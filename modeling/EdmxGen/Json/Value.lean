import EdmxGen.Decimal.Shortest

/-!
# JSON values

A value keeps the members of an object in the order in which they were written. Numbers are unsigned
or negative 64-bit integers, or binary64 values kept as their bits.
-/

namespace EdmxGen

namespace Json

/-- A number: an unsigned integer, the negative of a positive integer, or binary64 bits. -/
inductive Number
  | natural (n : UInt64)
  | negative (n : Nat)
  | real (bits : UInt64)
  deriving DecidableEq, Repr

/-- Reals are positional from `1e-5` up to sixteen digits, and an exponent has two digits or more.
-/
def Number.format : Decimal.Format := ⟨-5, 15, 2⟩

def Number.write : Number → List Char
  | .natural n => Nat.toDigits 10 n.toNat
  | .negative n => '-' :: Nat.toDigits 10 n
  | .real bits => Decimal.write Number.format bits

end Json

inductive Json
  | null
  | bool (b : Bool)
  | num (n : Json.Number)
  | str (s : String)
  | arr (items : List Json)
  | obj (members : List (String × Json))

namespace Json

instance : Inhabited Json := ⟨.null⟩

/-- The member of a value that may be absent. -/
def memberOf {α : Type} (key : String) (f : α → Json) : Option α → List (String × Json)
  | some a => [(key, f a)]
  | none => []

/-- The value of the first member of an object with this key. -/
def member? (key : String) : Json → Option Json
  | .obj ms => (ms.find? fun m => m.1 == key).map Prod.snd
  | _ => none

end Json

end EdmxGen
