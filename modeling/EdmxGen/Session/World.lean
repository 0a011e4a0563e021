import EdmxGen.File.System
import EdmxGen.Http.Request
import EdmxGen.Notice
import EdmxGen.Moment
import EdmxGen.Prompt
import EdmxGen.Template.Store

/-!
# What a run changes

A run reads and changes files, sends requests, asks questions, gives notices and prints. All of it
is one value, the world, so that a run is a function from the world before it to the world after it.
What answers the run is its environment: a clock, the network and the user.
-/

namespace EdmxGen

/-- How a piece of output looks. -/
inductive Style
  | plain
  | bold
  | success
  | accent
  deriving DecidableEq, Repr

/-- A piece of output. -/
structure Span where
  style : Style
  text : String
  deriving DecidableEq, Repr

namespace Span

def plain (text : String) : Span := ⟨.plain, text⟩

/-- What switches a look on in a terminal. -/
def escape : Style → String
  | .plain => ""
  | .bold => "\x1b[1m"
  | .success => "\x1b[1;32m"
  | .accent => "\x1b[36m"

/-- A piece of output in a terminal with colours, or anywhere else. -/
def write (coloured : Bool) (s : Span) : String :=
  if coloured && s.style != .plain then escape s.style ++ s.text ++ "\x1b[0m" else s.text

end Span

/-- Why the system refuses an operation on files that could be done. -/
inductive Refusal
  | permissionDenied
  | other
  deriving DecidableEq, Repr

def Refusal.kind : Refusal → FileErrorKind
  | permissionDenied => .permissionDenied
  | other => .other

/-- All that a run changes. The refusals are those of the operations on files to come, of which the
system lets all pass that come after the last. -/
structure World where
  files : FileSystem := {}
  refusals : List (Option Refusal) := []
  requests : List Http.Sending := []
  asked : List Question := []
  notices : List Notice := []
  output : List Span := []

/-- What a run is answered by: where its configuration lies, the time, the network, which knows the
requests before each, the user, and the decoder of pages. -/
structure Environment where
  configPath : String
  now : Moment
  network : List Http.Sending → Http.Sending → Http.Reply
  prompter : Prompter
  [decoder : Http.PageDecoder]

/-- A step of a run. -/
abbrev Session := StateM World

/-- A step of a run that may end it. -/
abbrev Attempt := ExceptT Trouble Session

namespace Session

def notify (n : Notice) : Session Unit := modify fun w => { w with notices := w.notices ++ [n] }

/-- Prints pieces of output and ends the line. -/
def print (spans : List Span) : Session Unit :=
  modify fun w => { w with output := w.output ++ spans ++ [.plain "\n"] }

/-- What the system makes of the next operation on files. -/
def nextRefusal : Session (Option Refusal) :=
  modifyGet fun w => (w.refusals.head?.join, { w with refusals := w.refusals.tail })

/-- Does something with the files that may fail and leaves them as they are. -/
def lookUp {α : Type} (f : FileSystem → Except FileErrorKind α) : Session (Except FileError α) := do
  match ← nextRefusal with
  | some r => pure (.error ⟨r.kind, none⟩)
  | none => pure ((f (← get).files).mapError fun kind => ⟨kind, none⟩)

/-- Changes the files, unless that fails. -/
def change (f : FileSystem → Except FileErrorKind FileSystem) :
    Session (Except FileError Unit) := do
  match ← nextRefusal with
  | some r => pure (.error ⟨r.kind, none⟩)
  | none =>
    let w ← get
    match f w.files with
    | .ok files =>
      set { w with files }
      pure (.ok ())
    | .error kind => pure (.error ⟨kind, none⟩)

/-- Something is seen at a path; what the system refuses to show is not. -/
def isSeen (path : String) : Session Bool := do
  match ← nextRefusal with
  | some _ => pure false
  | none => pure ((← get).files.exists? path)

def readFile (path : String) : Session (Except FileError String) := lookUp (·.read path)

def writeFile (path text : String) : Session (Except FileError Unit) := change (·.write path text)

def createDirs (path : String) : Session (Except FileError Unit) := change (·.createDirs path)

/-- The templates in the files. -/
def templateStore : Template.Store Session where
  list dir := lookUp (·.list dir)
  read := readFile
  createDirs := createDirs
  write := writeFile
  announce dir := notify (.templatesCopied dir)

end Session

namespace Attempt

/-- A step that fails with a trouble of its own. -/
def ofExcept {α : Type} (r : Except Trouble α) : Attempt α := ExceptT.mk (pure r)

/-- A step that cannot fail. -/
def lift {α : Type} (s : Session α) : Attempt α := ExceptT.lift s

/-- A step whose failure ends the run as it is. -/
def orFail {α : Type} (s : Session (Except Failure α)) : Attempt α :=
  ExceptT.mk do pure ((← s).mapError .failure)

/-- A step whose failure ends the run within a context. -/
def orFailIn {α : Type} (context : String) (s : Session (Except Failure α)) : Attempt α :=
  ExceptT.mk do pure (inContext context (← s))

/-- A step on files whose failure ends the run within a context. -/
def orFileIn {α : Type} (context : String) (s : Session (Except FileError α)) : Attempt α :=
  ExceptT.mk do pure ((← s).mapError fun e => .within context (.file e))

def ask {α : Type} (a : Asking α) : Attempt α :=
  ExceptT.mk fun w =>
    let (r, asked) := StateT.run (ExceptT.run a) w.asked
    (r, { w with asked })

end Attempt

end EdmxGen
