import EdmxGen.Text.Quoted
import EdmxGen.Json.Value

/-!
# Faults of JSON texts

A text ends too early, is not JSON, or is JSON of another shape than the one asked for. A fault of
shape says what was found and what was expected.
-/

namespace EdmxGen.Json

/-- What stands where something else was expected. -/
inductive Found
  | null
  | bool (b : Bool)
  | num (n : Number)
  | str (s : String)
  | sequence
  | map
  deriving DecidableEq, Repr

def Found.words : Found → String
  | .null => "null"
  | .bool true => "boolean `true`"
  | .bool false => "boolean `false`"
  | .num (.real bits) => "floating point `" ++ String.ofList (Number.real bits).write ++ "`"
  | .num n => "integer `" ++ String.ofList n.write ++ "`"
  | .str s => "string " ++ Text.quoted s
  | .sequence => "sequence"
  | .map => "map"

inductive ShapeFault
  | missingField (name : String)
  | duplicateField (name : String)
  | invalidType (found : Found) (expected : String)
  | invalidValue (found : Found) (expected : String)
  | unknownVariant (name : String) (first second : String)
  | invalidLength (length : Nat) (expected : String)
  deriving DecidableEq, Repr

def ShapeFault.message : ShapeFault → String
  | .missingField name => s!"missing field `{name}`"
  | .duplicateField name => s!"duplicate field `{name}`"
  | .invalidType found expected => "invalid type: " ++ found.words ++ ", expected " ++ expected
  | .invalidValue found expected => "invalid value: " ++ found.words ++ ", expected " ++ expected
  | .unknownVariant name first second =>
    s!"unknown variant `{name}`, expected `{first}` or `{second}`"
  | .invalidLength length expected => s!"invalid length {length}, expected {expected}"

/-- Why a text gives no value. -/
inductive Fault
  /-- The text ends too early. -/
  | ended
  /-- The text is not JSON. -/
  | malformed
  /-- The text is JSON of another shape. -/
  | shape (fault : ShapeFault)
  deriving DecidableEq, Repr

end EdmxGen.Json
