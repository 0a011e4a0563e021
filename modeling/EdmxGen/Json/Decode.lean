import EdmxGen.Json.Draft

/-!
# Typed readers of JSON

A reader takes a draft and gives a value or the first fault. Records are read from objects, or from
arrays that list their fields in order. Three things depend on where a draft comes from: what
becomes of an array with too many items, of an object that should name one variant, and of a
variant's content.
-/

namespace EdmxGen.Json

/-- Where a draft comes from: straight from a text, from members held back while the rest of their
object was read, or from a value read before. -/
inductive Origin
  | text
  | held
  | value
  deriving DecidableEq, Repr

abbrev Reader (α : Type) := Draft → Except Fault α

namespace Draft

/-- The fault of a draft that is not what was expected. -/
def unexpected (expected : String) (d : Draft) : Fault :=
  match d with
  | .flawed flaw => flaw.fault
  | d => .shape (.invalidType (d.found?.getD .null) expected)

def asString : Reader String
  | .str s => .ok s
  | d => .error (d.unexpected "a string")

def asBool : Reader Bool
  | .bool b => .ok b
  | d => .error (d.unexpected "a boolean")

def asUInt64 : Reader UInt64
  | .num (.natural n) => .ok n
  | .num (.negative n) => .error (.shape (.invalidValue (.num (.negative n)) "u64"))
  | d => .error (d.unexpected "u64")

/-- Reads a value that may be null. -/
def optional {α : Type} (reader : Reader α) : Reader (Option α)
  | .null => .ok none
  | d => (reader d).map some

/-- Reads each of several items. -/
def eachItem {α : Type} (reader : Reader α) : List Draft → Except Fault (List α)
  | [] => .ok []
  | d :: ds => do
    let v ← reader d
    let vs ← eachItem reader ds
    pure (v :: vs)

def asList {α : Type} (reader : Reader α) : Reader (List α)
  | .arr items stop => do
    let vs ← eachItem reader items
    checkFlaw stop
    pure vs
  | d => .error (d.unexpected "a sequence")

/-- Reads the members of a dictionary of strings. -/
def eachEntry : List Member → Except Fault (List (String × String))
  | [] => .ok []
  | m :: ms => do
    let key ← m.1
    let value ← asString m.2
    let rest ← eachEntry ms
    pure ((key, value) :: rest)

/-- Reads a dictionary of strings as the list of its members. -/
def asEntries : Reader (List (String × String))
  | .obj members stop => do
    let entries ← eachEntry members
    checkFlaw stop
    pure entries
  | d => .error (d.unexpected "a map")

/-! ## Variants without content -/

/-- The variant of this name among two. -/
def variantOf {α : Type} (first second : String × α) (name : String) : Except Fault α :=
  if name = first.1 then .ok first.2
  else if name = second.1 then .ok second.2
  else .error (.shape (.unknownVariant name first.1 second.1))

/-- Reads the content of a variant that has none. -/
def asUnit (origin : Origin) : Reader Unit
  | .null => .ok ()
  | .obj [] none =>
    if origin = .held then .ok () else .error (unexpected "unit" (.obj [] none))
  | d => .error (d.unexpected "unit")

/-- The name of a variant given as a key. -/
def variantName : Member → Except Fault String
  | (.error _, .flawed ⟨_, _, _, some found⟩) =>
    .error (.shape (.invalidType found "variant identifier"))
  | (name, _) => name

/-- Reads one of two variants straight from a text: a string, or an object with the name as its one
key. -/
def asVariantOfText {α : Type} (first second : String × α) : Reader α
  | .str s => variantOf first second s
  | .obj [] none => .error .malformed
  | .obj [] (some flaw) => .error flaw.fault
  | .obj (m :: ms) stop => do
    let name ← variantName m
    let v ← variantOf first second name
    asUnit .text m.2
    match ms, stop with
    | [], none => pure v
    | [], some flaw => .error flaw.fault
    | _, _ => .error .malformed
  | .flawed flaw => .error (if flaw.kind = .token then .malformed else flaw.fault)
  | _ => .error .malformed

/-- Reads one of two variants from a value at hand. -/
def asVariantOfValue {α : Type} (origin : Origin) (first second : String × α) : Reader α
  | .str s => variantOf first second s
  | .obj [(key, d)] _ => do
    let name ← key
    let v ← variantOf first second name
    asUnit origin d
    pure v
  | .obj _ _ => .error (.shape (.invalidValue .map "map with a single key"))
  | d => .error (d.unexpected "string or map")

/-- Reads one of two variants. -/
def asVariant {α : Type} (origin : Origin) (first second : String × α) : Reader α :=
  if origin = .text then asVariantOfText first second else asVariantOfValue origin first second

/-! ## Records -/

end Draft

/-- A field of a record: its name, a test of its value, and whether an array may leave it out. -/
structure Field where
  name : String
  check : Draft → Except Fault Unit
  optional : Bool

/-- A field that reads with `reader` and must be given. -/
def Field.required {α : Type} (name : String) (reader : Reader α) : Field :=
  ⟨name, fun d => (reader d).map fun _ => (), false⟩

/-- A field that reads with `reader` and has a default. -/
def Field.defaulted {α : Type} (name : String) (reader : Reader α) : Field :=
  ⟨name, fun d => (reader d).map fun _ => (), true⟩

/-- The values given for the fields of a record. -/
abbrev Given := List (String × Draft)

/-- Collects the members that name a field, each at most once, and passes over the others. -/
def gather (fields : List Field) (given : Given) : List Draft.Member → Except Fault Given
  | [] => .ok given
  | m :: ms => do
    let key ← m.1
    match fields.find? fun f => f.name == key with
    | none =>
      m.2.pass
      gather fields given ms
    | some field =>
      if given.any fun g => g.1 == key then .error (.shape (.duplicateField key))
      else
        field.check m.2
        gather fields ((key, m.2) :: given) ms

/-- Deals items to fields in order; `count` fields are served. -/
def deal (expected : String) (stop : Option Flaw) (count : Nat) :
    List Field → List Draft → Except Fault (Given × List Draft)
  | [], items => .ok ([], items)
  | field :: fields, d :: ds => do
    field.check d
    let (given, rest) ← deal expected stop (count + 1) fields ds
    pure ((field.name, d) :: given, rest)
  | field :: fields, [] => do
    Draft.checkFlaw stop
    if field.optional then deal expected stop (count + 1) fields []
    else .error (.shape (.invalidLength count expected))

def plural (n : Nat) (one : String) : String :=
  if n = 1 then s!"1 {one}" else s!"{n} {one}s"

/-- What becomes of items beyond the last field. -/
def checkSurplus (origin : Origin) (fields items surplus : Nat) : Except Fault Unit :=
  if surplus = 0 then .ok ()
  else
    match origin with
    | .text => .error .malformed
    | .held =>
      .error (.shape (.invalidLength items (plural fields "element" ++ " in sequence")))
    | .value => .error (.shape (.invalidLength items "fewer elements in array"))

/-- The values for the fields of a record of this name. -/
def Draft.asRecord (origin : Origin) (name : String) (fields : List Field) : Reader Given
  | .obj members stop => do
    let given ← gather fields [] members
    Draft.checkFlaw stop
    pure given
  | .arr items stop => do
    let expected := "struct " ++ name ++ " with " ++ plural fields.length "element"
    let (given, rest) ← deal expected stop 0 fields items
    checkSurplus origin fields.length items.length rest.length
    Draft.checkFlaw stop
    pure given
  | d => .error (d.unexpected ("struct " ++ name))

namespace Given

def get? (given : Given) (name : String) : Option Draft :=
  (given.find? fun g => g.1 == name).map Prod.snd

def required {α : Type} (given : Given) (name : String) (reader : Reader α) : Except Fault α :=
  match given.get? name with
  | some d => reader d
  | none => .error (.shape (.missingField name))

def defaulted {α : Type} (given : Given) (name : String) (reader : Reader α) (default : α) :
    Except Fault α :=
  match given.get? name with
  | some d => reader d
  | none => .ok default

end Given

/-- The value that a whole text has for a reader. -/
def readWith {α : Type} (reader : Reader α) (text : List Char) : Except Fault α := do
  let (draft, more) := Draft.ofText? text
  let value ← reader draft
  if more then .error .malformed else pure value

end EdmxGen.Json
