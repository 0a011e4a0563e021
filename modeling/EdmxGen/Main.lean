import EdmxGen.Http.Wire
import EdmxGen.Program
import Std.Async.DNS
import Std.Async.TCP
import Std.Time.DateTime.Timestamp

/-!
The command line. A run is a function of the files, of the answers of the user and of the replies of
the servers, so it is run again with every answer and reply that it turns out to need, and what the
last of these runs has changed is written.
-/

namespace EdmxGen

open Std.Async

/-! ## Files -/

def pathOf (place : List String) : String := "/" ++ "/".intercalate place

/-- Adds what lies at a place, if anything does. -/
def loadPlace (fs : FileSystem) (place : List String) : IO FileSystem := do
  let path := (← IO.currentDir) / pathOf place
  if ← path.isDir then pure (fs.put place .dir)
  else
    match ← (IO.FS.readFile path).toBaseIO with
    | .ok text => pure (fs.put place (.file text))
    | .error _ => pure fs

/-- Adds what lies on the way along a path, and the files in a directory at its end. -/
def loadPath (fs : FileSystem) (path : String) : IO FileSystem := do
  let mut fs := fs
  let mut place := if Path.isAbsolute path then [] else fs.here
  for part in Path.parts path do
    if part = ".." then place := place.dropLast
    else if part != "" && part != "." then place := place ++ [part]
    fs ← loadPlace fs place
  let dir := (← IO.currentDir) / pathOf place
  if ← dir.isDir then
    for entry in ← dir.readDir do
      fs ← loadPlace fs (place ++ [entry.fileName])
  pure fs

/-- The files that a run can look at; the first two rounds find out where else to look. -/
def loadFiles (s : Start) : IO FileSystem := do
  let here := (Path.parts (← IO.currentDir).toString).filter (· != "")
  let mut fs : FileSystem := { here }
  for n in List.range here.length do
    fs := fs.put (here.take (n + 1)) .dir
  for _ in List.range 3 do
    for path in Program.places s fs do
      fs ← loadPath fs path
  pure fs

/-- Writes what has changed. -/
def storeFiles (before after : FileSystem) : IO Unit := do
  for (place, entry) in after.entries do
    if before.at? place != some entry then
      match entry with
      | .dir => IO.FS.createDirAll (pathOf place)
      | .file text => IO.FS.writeFile (pathOf place) text

/-! ## Servers -/

def addressOf (peer : Http.Peer) : IO (Option Std.Net.SocketAddress) := do
  let port : UInt16 := .ofNat peer.port
  let found ← (DNS.getAddrInfo peer.host (toString peer.port)).block
  pure (found[0]?.map fun
    | .v4 addr => .v4 { addr, port }
    | .v6 addr => .v6 { addr, port })

/-- All bytes that arrive on a connection. -/
partial def receiveAll (client : TCP.Socket.Client) (sofar : ByteArray) : Async ByteArray := do
  match ← client.recv? 65536 with
  | some bytes => receiveAll client (sofar ++ bytes)
  | none => pure sofar

/-- Sends a request and waits for the reply; nothing is sent that is to be encrypted. -/
def exchange (sending : Http.Sending) : IO Http.Reply := do
  if sending.isEncrypted then return .refused
  let some address ← addressOf sending.peer | pure .refused
  let client ← TCP.Socket.Client.mk
  (client.connect address).block
  (client.send (.mk sending.request.bytes.toArray)).block
  let bytes ← (receiveAll client .empty).block
  pure (((Http.Response.ofBytes? bytes.toList).map Http.Reply.response).getD .dropped)

/-! ## The user -/

def showQuestion : Question → IO Unit
  | .select prompt items _ => do
    IO.println (prompt ++ " (j, k and Enter)")
    for item in items do IO.println ("  " ++ item)
  | .input prompt initial placeholder =>
    IO.println (prompt ++ " (" ++ initial.getD placeholder ++ ")")

/-! ## Runs -/

/-- Runs with the keys and replies known so far until no more are needed. -/
partial def settle (s : Start) (w : World) (keys : List String) (replies : List Http.Reply)
    (isTerminal : Bool) : IO Outcome := do
  let prompter : Prompter := fun asked =>
    match keys[asked.length - 1]?, asked.getLast? with
    | some typed, some q => (Terminal.reply (Terminal.keys typed.toList) q).1
    | _, _ => .none
  let start := { s with
    network := fun sent _ => replies[sent.length]?.getD .dropped
    prompter := if isTerminal then prompter else Terminal.absent }
  let o := Program.run start w
  let next := if isTerminal then o.world.asked[keys.length]? else none
  match next, o.world.requests[replies.length]? with
  | some q, _ =>
    showQuestion q
    settle s w (keys ++ [← (← IO.getStdin).getLine]) replies isTerminal
  | none, some sending =>
    let reply ← try exchange sending catch _ => pure .refused
    settle s w keys (replies ++ [reply]) isTerminal
  | none, none => pure o

/-- The variables that mean something to the program. -/
def knownVariables : List String :=
  [Config.dirVariable, "XDG_CONFIG_HOME", "HOME", "RUST_LOG", "CLICOLOR_FORCE"]

/-- What a run is given. -/
def start (arguments : List String) : IO Start := do
  let entries ← knownVariables.filterMapM fun name => do
    pure ((← IO.getEnv name).map fun value => (name, value))
  let now ← Std.Time.Timestamp.now
  pure {
    arguments
    vars := ⟨entries⟩
    now := ⟨now.toSecondsSinceUnixEpoch.val, 0⟩
    network := fun _ _ => .refused
    prompter := Terminal.absent }

end EdmxGen

open EdmxGen in
/-- Runs the program and tells how the run ended. -/
def main (arguments : List String) : IO UInt32 := do
  let s ← start arguments
  let files ← loadFiles s
  let o ← settle s { files } [] [] (← (← IO.getStdin).isTty)
  storeFiles files o.world.files
  match o.logText s.now with
  | some log => IO.FS.writeFile Program.logPath log
  | none => pure ()
  IO.print o.output
  match o.error with
  | some text => IO.eprintln text
  | none => pure ()
  pure (.ofNat o.exit)
