import EdmxGen.Http.Host

/-!
# Addresses on the web

An absolute address with its parts in their one form: scheme and host in lower case, a standard port
left out, the path without dot segments, and everything that needs it percent-encoded. The fragment
is dropped.
-/

namespace EdmxGen.Http

open Text

/-- The parts of an absolute address; one without a host leads nowhere. -/
structure Url where
  scheme : String
  user : List Char := []
  pass : Option (List Char) := none
  host : Option String := none
  port : Option Nat := none
  path : List Char := []
  query : Option (List Char) := none
  deriving DecidableEq, Repr

/-- Why a text is no absolute address: it names no scheme, or its parts are bad. -/
inductive UrlFault
  | relative
  | malformed
  deriving DecidableEq, Repr

namespace Url

def standardPort? : String → Option Nat
  | "http" => some 80
  | "https" => some 443
  | "ws" => some 80
  | "wss" => some 443
  | "ftp" => some 21
  | _ => none

/-- The text without blanks and control characters around it, and without line breaks and tabs. -/
def cleaned (cs : List Char) : List Char :=
  let isEdge (c : Char) : Bool := c.toNat ≤ 0x20
  let inner := ((cs.dropWhile isEdge).reverse.dropWhile isEdge).reverse
  inner.filter fun c => !(c == '\t' || c == '\n' || c == '\r')

/-- The scheme of a text in lower case and what follows the colon. -/
def splitScheme? (cs : List Char) : Option (List Char × List Char) :=
  let isPart (c : Char) : Bool := isLetter c || isDigit c || c == '+' || c == '-' || c == '.'
  match cs, cs.dropWhile isPart with
  | c :: _, ':' :: rest =>
    if isLetter c then some (lowerAscii (cs.takeWhile isPart), rest) else none
  | _, _ => none

/-! ## Authorities -/

/-- The name and the secret in front of a host, and what follows them. -/
def splitUser (authority : List Char) : (List Char × Option (List Char)) × List Char :=
  match (splitAt (· == '@') authority).reverse with
  | host :: (u :: us) =>
    let info := ['@'].intercalate (u :: us).reverse
    let name := info.takeWhile (· != ':')
    let secret := (info.dropWhile (· != ':')).drop 1
    ((name, if secret.isEmpty then none else some secret), host)
  | _ => (([], none), authority)

/-- The host and the written port; a colon within brackets is no mark of a port. -/
def splitPort (cs : List Char) : List Char × Option (List Char) :=
  match cs with
  | '[' :: _ =>
    let host := cs.takeWhile (· != ']')
    match cs.dropWhile (· != ']') with
    | ']' :: ':' :: port => (host ++ [']'], some port)
    | ']' :: [] => (host ++ [']'], none)
    | ']' :: rest => (host ++ ']' :: rest, none)
    | _ => (cs, none)
  | _ =>
    match cs.dropWhile (· != ':') with
    | ':' :: port => (cs.takeWhile (· != ':'), some port)
    | _ => (cs, none)

/-- The number of a written port, unless it is the standard one. -/
def readPort (scheme : String) : Option (List Char) → Except UrlFault (Option Nat)
  | none => .ok none
  | some digits =>
    if !digits.all isDigit ∨ 65535 < ofDecimal digits then .error .malformed
    else if digits.isEmpty ∨ standardPort? scheme = some (ofDecimal digits) then .ok none
    else .ok (some (ofDecimal digits))

/-! ## Paths -/

/-- The segment is one dot, perhaps encoded. -/
def isDot (s : List Char) : Bool := lowerAscii s == ['.'] || lowerAscii s == ['%', '2', 'e']

/-- The segment is two dots, perhaps encoded. -/
def isDoubleDot (s : List Char) : Bool :=
  match lowerAscii s with
  | '.' :: rest => isDot rest
  | '%' :: '2' :: 'e' :: rest => isDot rest
  | _ => false

/-- Resolves dots among segments, given the ones before them, last first. -/
def resolve (before : List (List Char)) : List (List Char) → List (List Char)
  | [] => before.reverse
  | s :: ss =>
    let close (before : List (List Char)) := if ss.isEmpty then [] :: before else before
    if isDoubleDot s then resolve (close before.tail) ss
    else if isDot s then resolve (close before) ss
    else resolve (percentEncode isEncodedInPath s :: before) ss

/-- A path in its one form. -/
def readPath (cs : List Char) : List Char :=
  let segments := splitAt (fun c => c == '/' || c == '\\') (cs.drop 1)
  '/' :: ['/'].intercalate (resolve [] segments)

/-! ## Addresses -/

/-- The rest of an address that names a host on the web, after its scheme. -/
def readWeb (scheme : String) (rest : List Char) : Except UrlFault Url := do
  let isSlash (c : Char) : Bool := c == '/' || c == '\\'
  let rest := rest.dropWhile isSlash
  let endsHost (c : Char) : Bool := isSlash c || c == '?' || c == '#'
  let authority := rest.takeWhile fun c => !endsHost c
  let rest := (rest.dropWhile fun c => !endsHost c).takeWhile (· != '#')
  let ((user, pass), server) := splitUser authority
  let (host, written) := splitPort server
  match Host.read? host with
  | none => .error .malformed
  | some host =>
    let port ← readPort scheme written
    let query :=
      match rest.dropWhile (· != '?') with
      | '?' :: q => some (percentEncode isEncodedInQuery q)
      | _ => none
    pure { scheme, user, pass, host, port, path := readPath (rest.takeWhile (· != '?')), query }

/-- The rest of an address with some other scheme; only whether it names a host matters. -/
def readOther (scheme : String) (rest : List Char) : Except UrlFault Url := do
  match rest with
  | '/' :: '/' :: rest =>
    let authority := rest.takeWhile fun c => !(c == '/' || c == '?' || c == '#')
    let (_, server) := splitUser authority
    let (host, written) := splitPort server
    let host := if scheme == "file" ∧ lowerAscii host = "localhost".toList then [] else host
    if host.any fun c => Host.isForbidden c && c != '%' && c != '[' && c != ']' && c != ':' then
      .error .malformed
    else
      let port ← readPort scheme written
      pure { scheme, port, host := if host.isEmpty then none else some (String.ofList host) }
  | _ => pure { scheme }

/-- The absolute address that a text holds. -/
def read (text : String) : Except UrlFault Url :=
  match splitScheme? (cleaned text.toList) with
  | none => .error .relative
  | some (scheme, rest) =>
    let scheme := String.ofList scheme
    if (standardPort? scheme).isSome then readWeb scheme rest else readOther scheme rest

/-- The host with a port that is not the standard one. -/
def authority (u : Url) : List Char :=
  (u.host.getD "").toList ++ ((u.port.map fun p => ':' :: decimal p).getD [])

def pathAndQuery (u : Url) : List Char :=
  u.path ++ ((u.query.map fun q => '?' :: q).getD [])

/-- The address without name, secret and fragment. -/
def write (u : Url) : List Char :=
  u.scheme.toList ++ [':', '/', '/'] ++ u.authority ++ u.pathAndQuery

end Url

end EdmxGen.Http
