import EdmxGen.Json.Scan

/-!
# JSON texts as far as they can be read

A draft is what a text shows to somebody who reads it from left to right. It may stop inside an
array or object, and it keeps scalars that cannot be taken as values although they can be passed
over, such as a number beyond every range. So a reader that knows what it expects meets the faults
of the text and the faults of shape in the order in which they stand, and `Draft.toJson` reads the
whole of it.
-/

namespace EdmxGen.Json

open Text

/-- What kind of text stands where no value could be read. -/
inductive FlawKind
  | text
  | token
  | absent
  deriving DecidableEq, Repr

/-- A place where a text gives no value: what a reader of it meets, and what passing over it meets;
a key that is no string also shows what stands in its place. -/
structure Flaw where
  kind : FlawKind
  fault : Fault
  passing : Option Fault
  stray : Option Found
  deriving DecidableEq, Repr

/-- A flaw that nobody gets past. -/
def Flaw.final (fault : Fault) : Flaw := ⟨.absent, fault, some fault, none⟩

/-- A value as far as its text can be read. -/
inductive Draft
  | null
  | bool (b : Bool)
  | num (n : Number)
  | str (s : String)
  | arr (items : List Draft) (stop : Option Flaw)
  | obj (members : List (Except Fault String × Draft)) (stop : Option Flaw)
  | flawed (flaw : Flaw)

namespace Draft

instance : Inhabited Draft := ⟨.null⟩

/-! ## Reading a text -/

/-- A draft and what follows it; nothing follows a draft that stops inside. -/
abbrev Scanned (α : Type) := α × Option (List Char)

/-- A literal name, of which the first letter is read. -/
def ofName (value : Draft) (name : String) (cs : List Char) : Scanned Draft :=
  match readName name.toList cs with
  | .ok rest => (value, some rest)
  | .error f => (.flawed ⟨.token, f, some f, none⟩, none)

/-- A string after its opening quote. -/
def ofText (cs : List Char) : Scanned Draft :=
  match readText cs, skipText cs with
  | .ok (s, _), .ok rest => (.str (String.ofList s), some rest)
  | .error f, .ok rest => (.flawed ⟨.text, f, none, none⟩, some rest)
  | .error f, .error g => (.flawed ⟨.text, f, some g, none⟩, none)
  | .ok _, .error g => (.flawed ⟨.text, g, some g, none⟩, none)

def ofNumber (cs : List Char) : Scanned Draft :=
  match readNumber cs, skipNumber cs with
  | .ok (n, _), .ok rest => (.num n, some rest)
  | .error f, .ok rest => (.flawed ⟨.token, f, none, none⟩, some rest)
  | .error f, .error g => (.flawed ⟨.token, f, some g, none⟩, none)
  | .ok _, .error g => (.flawed ⟨.token, g, some g, none⟩, none)

/-- What a draft shows where something else was expected; `none` where no value can be read. -/
def found? : Draft → Option Found
  | .null => some .null
  | .bool b => some (.bool b)
  | .num n => some (.num n)
  | .str s => some (.str s)
  | .arr _ _ => some .sequence
  | .obj _ _ => some .map
  | .flawed _ => none

/-- A member: its key, if that can be taken, and its value. -/
abbrev Member := Except Fault String × Draft

/-- What stands in place of a member that has no key. -/
def noKey (fault passing : Fault) (stray : Option Found) : Member :=
  (.error fault, .flawed ⟨.absent, fault, some passing, stray⟩)

/-- The key of a member after its opening quote, and the text after its colon; or what stands in
place of the member. -/
def readKey (cs : List Char) : Except Member (Except Fault String × List Char) :=
  let key := (readText cs).map fun r => String.ofList r.1
  match skipText cs with
  | .error g =>
    match key with
    | .error f => .error (noKey f g none)
    | .ok _ => .error (noKey g g none)
  | .ok rest =>
    match skipSpace rest with
    | ':' :: value => .ok (key, value)
    | [] => .error (key, .flawed (.final .ended))
    | _ => .error (key, .flawed (.final .malformed))

mutual

/-- The value at the beginning of a text. -/
def scan : Nat → List Char → Scanned Draft
  | 0, _ => (.flawed (.final .ended), none)
  | fuel + 1, cs =>
    match skipSpace cs with
    | [] => (.flawed (.final .ended), none)
    | c :: rest =>
      if c = '"' then ofText rest
      else if c = 'n' then ofName .null "ull" rest
      else if c = 't' then ofName (.bool true) "rue" rest
      else if c = 'f' then ofName (.bool false) "alse" rest
      else if c = '-' ∨ isDigit c then ofNumber (c :: rest)
      else if c = '[' then
        match skipSpace rest with
        | ']' :: more => (.arr [] none, some more)
        | [] => (.arr [] (some (.final .ended)), none)
        | more =>
          let r := scanItems fuel more
          (.arr r.1.1 r.1.2, r.2)
      else if c = '{' then
        match skipSpace rest with
        | '\x7d' :: more => (.obj [] none, some more)
        | [] => (.obj [] (some (.final .ended)), none)
        | more =>
          let r := scanMembers fuel more
          (.obj r.1.1 r.1.2, r.2)
      else (.flawed (.final .malformed), none)

/-- The items of an array from one of them on; nothing after a comma is an item too. -/
def scanItems : Nat → List Char → Scanned (List Draft × Option Flaw)
  | 0, _ => (([], some (.final .ended)), none)
  | fuel + 1, cs =>
    match scan fuel cs with
    | (item, none) => (([item], some (.final .ended)), none)
    | (item, some rest) =>
      match skipSpace rest with
      | [] => (([item], some (.final .ended)), none)
      | ']' :: more => (([item], none), some more)
      | ',' :: more =>
        match skipSpace more with
        | ']' :: _ => (([item], some (.final .malformed)), none)
        | next =>
          let r := scanItems fuel next
          ((item :: r.1.1, r.1.2), r.2)
      | _ => (([item], some (.final .malformed)), none)

/-- The members of an object from one of them on; nothing after a comma is a member too. -/
def scanMembers : Nat → List Char → Scanned (List Member × Option Flaw)
  | 0, _ => (([], some (.final .ended)), none)
  | fuel + 1, cs =>
    match cs with
    | [] => (([noKey .ended .ended none], none), none)
    | '"' :: text =>
      match readKey text with
      | .error m => (([m], none), none)
      | .ok (key, value) =>
        match scan fuel value with
        | (item, none) => (([(key, item)], some (.final .ended)), none)
        | (item, some rest) =>
          match skipSpace rest with
          | [] => (([(key, item)], some (.final .ended)), none)
          | '\x7d' :: more => (([(key, item)], none), some more)
          | ',' :: more =>
            let r := scanMembers fuel (skipSpace more)
            (((key, item) :: r.1.1, r.1.2), r.2)
          | _ => (([(key, item)], some (.final .malformed)), none)
    | _ => (([noKey .malformed .malformed (scan fuel cs).1.found?], none), none)

end

/-- The draft of a text; the flag tells that something other than blanks follows the value. Two steps
are enough for each character: a bracket takes one, and what begins after it another. -/
def ofText? (cs : List Char) : Draft × Bool :=
  match scan (2 * cs.length + 1) cs with
  | (d, none) => (d, false)
  | (d, some rest) => (d, !(skipSpace rest).isEmpty)

/-! ## Passing over a draft -/

/-- Nothing stops here, or the fault of what does. -/
def passFlaw : Option Flaw → Except Fault Unit
  | none => .ok ()
  | some flaw =>
    match flaw.passing with
    | none => .ok ()
    | some f => .error f

mutual

/-- Passes over a value whose content does not matter. -/
def pass : Draft → Except Fault Unit
  | .arr items stop => do
    passItems items
    passFlaw stop
  | .obj members stop => do
    passMembers members
    passFlaw stop
  | .flawed flaw => passFlaw (some flaw)
  | _ => .ok ()

def passItems : List Draft → Except Fault Unit
  | [] => .ok ()
  | d :: ds => do
    pass d
    passItems ds

def passMembers : List Member → Except Fault Unit
  | [] => .ok ()
  | m :: ms => do
    pass m.2
    passMembers ms

end

/-! ## Reading the whole of a draft -/

/-- Nothing stops here, or the fault that a reader meets. -/
def checkFlaw : Option Flaw → Except Fault Unit
  | none => .ok ()
  | some flaw => .error flaw.fault

mutual

/-- The value of a draft in which at most `depth` arrays and objects lie within each other. -/
def toJson : Nat → Draft → Except Fault Json
  | _, .null => .ok .null
  | _, .bool b => .ok (.bool b)
  | _, .num n => .ok (.num n)
  | _, .str s => .ok (.str s)
  | 0, .arr _ _ => .error .malformed
  | 0, .obj _ _ => .error .malformed
  | depth + 1, .arr items stop => do
    let values ← toItems depth items
    checkFlaw stop
    pure (.arr values)
  | depth + 1, .obj members stop => do
    let values ← toMembers depth members
    checkFlaw stop
    pure (.obj values)
  | _, .flawed flaw => .error flaw.fault

/-- The values of items, up to the first fault. -/
def toItems : Nat → List Draft → Except Fault (List Json)
  | _, [] => .ok []
  | depth, d :: ds => do
    let v ← toJson depth d
    let vs ← toItems depth ds
    pure (v :: vs)

/-- The members of an object, up to the first fault. -/
def toMembers : Nat → List Member → Except Fault (List (String × Json))
  | _, [] => .ok []
  | depth, m :: ms => do
    let key ← m.1
    let v ← toJson depth m.2
    let vs ← toMembers depth ms
    pure ((key, v) :: vs)

end

/-! ## Drafts of values -/

mutual

/-- The draft of a value, which stops nowhere. -/
def ofJson : Json → Draft
  | .null => .null
  | .bool b => .bool b
  | .num n => .num n
  | .str s => .str s
  | .arr items => .arr (ofItems items) none
  | .obj members => .obj (ofMembers members) none

def ofItems : List Json → List Draft
  | [] => []
  | v :: vs => ofJson v :: ofItems vs

def ofMembers : List (String × Json) → List Member
  | [] => []
  | m :: ms => (.ok m.1, ofJson m.2) :: ofMembers ms

end

end Draft

/-- The depth to which arrays and objects may lie within each other. -/
def maxDepth : Nat := 127

end EdmxGen.Json
