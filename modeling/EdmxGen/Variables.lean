import EdmxGen.File.System
import EdmxGen.Text.Basic

/-!
# Variables of the environment

The variables that a run is started with, and those that a file adds to them. The file never changes
a variable that is set, and its lines count up to the first bad one. Quotes may go on over several
lines; a dollar sign stands for the variable named behind it, unless it is between apostrophes.
-/

namespace EdmxGen

/-- The variables of the environment by name. -/
structure Variables where
  entries : List (String × String) := []
  deriving DecidableEq, Repr

namespace Variables

open Text

def get? (vs : Variables) (name : String) : Option String :=
  (vs.entries.find? fun e => e.1 == name).map Prod.snd

/-- The variables with one more, unless it is set. -/
def setMissing (vs : Variables) (name value : String) : Variables :=
  if (vs.get? name).isSome then vs else ⟨vs.entries ++ [(name, value)]⟩

/-! ## Lines -/

/-- What is open at a place of a file: nothing, a blank behind which a comment may begin, an escape,
or a quote, perhaps with an escape in it. -/
inductive Open
  | nothing
  | blank
  | escape
  | strong (escaped : Bool)
  | weak (escaped : Bool)
  deriving DecidableEq, Repr

/-- What is open behind one more character. -/
def Open.next (o : Open) (c : Char) : Open :=
  let start : Open :=
    if c = '\\' then escape else if c = '"' then weak false
    else if c = '\'' then strong false else nothing
  match o with
  | nothing => if isBlank c && c != '\n' && c != '\r' then blank else start
  | blank => start
  | escape => nothing
  | weak true => weak false
  | weak false => if c = '\\' then weak true else if c = '"' then nothing else weak false
  | strong true => strong false
  | strong false => if c = '\\' then strong true else if c = '\'' then nothing else strong false

/-- The characters of a line up to a comment, and what is open behind them. -/
def scanLine (o : Open) : List Char → List Char × Open
  | [] => ([], o)
  | c :: cs =>
    if o = .blank ∧ c = '#' then ([], .nothing)
    else
      let r := scanLine (o.next c) cs
      (c :: r.1, r.2)

/-- The lines of a text, each with its line break. -/
def rawLines (cs : List Char) : List (List Char) :=
  let pieces := splitAt (· == '\n') cs
  let ended := pieces.dropLast.map (· ++ ['\n'])
  match pieces.getLast? with
  | some (c :: last) => ended ++ [c :: last]
  | _ => ended

/-- Joins lines as long as something is open behind them; `none` stands for something left open at
the end. Lines that begin with a comment mark are dropped. -/
def joinLines (sofar : List Char) (o : Open) : List (List Char) → List (Option (List Char))
  | [] => if o = .nothing then [] else [none]
  | line :: lines =>
    let all := sofar ++ line
    if (trimStart all).head? = some '#' then joinLines [] .nothing lines
    else
      let (kept, o) := scanLine o line
      if o = .nothing then some (sofar ++ kept) :: joinLines [] .nothing lines
      else joinLines (sofar ++ kept) o lines

/-! ## Values -/

/-- How the name of a variable to put in is being read. -/
inductive Insertion
  | none
  | bare (name : List Char)
  | braced (name : List Char)
  deriving DecidableEq, Repr

/-- How far a value is read. -/
structure Reading where
  value : List Char := []
  strong : Bool := false
  weak : Bool := false
  escaped : Bool := false
  ended : Bool := false
  insertion : Insertion := .none
  deriving DecidableEq, Repr

/-- The value with that of a variable behind it. -/
def Reading.insert (vs : Variables) (r : Reading) (name : List Char) : Reading :=
  { r with value := r.value ++ ((vs.get? (String.ofList name)).getD "").toList, insertion := .none }

/-- Reads one more character outside apostrophes, escapes and insertions. -/
def Reading.plain (r : Reading) (c : Char) : Reading :=
  if c = '$' then { r with insertion := .bare [] }
  else if r.weak then
    if c = '"' then { r with weak := false }
    else if c = '\\' then { r with escaped := true }
    else { r with value := r.value ++ [c] }
  else if c = '\'' then { r with strong := true }
  else if c = '"' then { r with weak := true }
  else if c = '\\' then { r with escaped := true }
  else if c = ' ' ∨ c = '\t' then { r with ended := true }
  else { r with value := r.value ++ [c] }

def Reading.next (vs : Variables) (r : Reading) (c : Char) : Option Reading :=
  let put (c : Char) : Reading := { r with value := r.value ++ [c], escaped := false }
  if r.ended then if c = ' ' ∨ c = '\t' then some r else none
  else if r.escaped then
    if ['\\', '\'', '"', '$', ' '].contains c then some (put c)
    else if c = 'n' then some (put '\n')
    else none
  else if r.strong then
    if c = '\'' then some { r with strong := false } else some (put c)
  else
    match r.insertion with
    | .none => some (r.plain c)
    | .bare name =>
      if isLetter c || isDigit c then some { r with insertion := .bare (name ++ [c]) }
      else if c = '\x7b' ∧ name.isEmpty then some { r with insertion := .braced [] }
      else
        let r := r.insert vs name
        if c = '$' then some { r with insertion := .bare [] }
        else some { r with value := r.value ++ [c] }
    | .braced name =>
      if c = '\x7d' then some (r.insert vs name)
      else some { r with insertion := .braced (name ++ [c]) }

/-- The end of a value: nothing may be left open but the name of a variable. -/
def Reading.finish (vs : Variables) (r : Reading) : Option (List Char) :=
  match r.insertion with
  | .braced _ => none
  | .bare name => if r.strong || r.weak then none else some (r.insert vs name).value
  | .none => if r.strong || r.weak then none else some r.value

/-- The value that is written; a comment may follow it behind a blank. -/
def readValue (vs : Variables) (r : Reading) : List Char → Option (List Char)
  | [] => r.finish vs
  | c :: cs =>
    if r.ended ∧ c = '#' then r.finish vs
    else
      match r.next vs c with
      | none => none
      | some r => readValue vs r cs

/-- The name at the beginning of a text, and what follows it and the blanks behind. -/
def readName (cs : List Char) : Option (String × List Char) :=
  let isPart (c : Char) : Bool := isLetter c || isDigit c || c == '_' || c == '.'
  match cs with
  | c :: _ =>
    if isLetter c || c == '_' then
      some (String.ofList (cs.takeWhile isPart), trimStart (cs.dropWhile isPart))
    else none
  | [] => none

/-- The name in front of an equals sign, and what follows the sign. -/
def readAssignee (cs : List Char) : Option (String × List Char) := do
  let (name, rest) ← readName cs
  match rest with
  | '=' :: rest => some (name, rest)
  | _ =>
    if name = "export" then
      let (name, rest) ← readName rest
      match rest with
      | '=' :: rest => some (name, rest)
      | _ => none
    else none

/-- The variables after a line; `none` if it is bad. -/
def readLine (vs : Variables) (line : List Char) : Option Variables :=
  match trim line with
  | [] => some vs
  | '#' :: _ => some vs
  | cs => do
    let (name, rest) ← readAssignee cs
    match trimStart rest with
    | [] => some (vs.setMissing name "")
    | '#' :: _ => some (vs.setMissing name "")
    | written => (readValue vs {} written).map fun v => vs.setMissing name (String.ofList v)

/-- The variables after lines, up to the first bad one. -/
def readLines (vs : Variables) : List (Option (List Char)) → Variables
  | some line :: lines =>
    match readLine vs line with
    | some vs => readLines vs lines
    | none => vs
  | _ => vs

def readText (vs : Variables) (text : List Char) : Variables :=
  let cs := match text with | '\uFEFF' :: cs => cs | cs => cs
  vs.readLines (joinLines [] .nothing (rawLines cs))

/-- The file that adds variables. -/
def fileName : String := ".env"

/-- A name in the directory this many levels above the working directory. -/
def above (levels : Nat) (name : String) : String :=
  String.join (List.replicate levels "../") ++ name

/-- The text of a file in the working directory or the nearest directory above it. -/
def nearest? (files : FileSystem) (name : String) : Option String :=
  (List.range (files.here.length + 1)).findSome? fun n => (files.read (above n name)).toOption

/-- The variables with those of the file for them, if there is one. -/
def withFile (vs : Variables) (files : FileSystem) : Variables :=
  match nearest? files fileName with
  | some text => vs.readText text.toList
  | none => vs

end Variables

end EdmxGen
