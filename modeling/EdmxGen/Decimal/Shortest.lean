/-!
# The fewest digits that read back

A finite binary64 value is `m · 2 ^ q`. The reals that round to it form an interval around it, whose
ends belong to it when `m` is even. `digits` gives the decimal with the fewest digits in that
interval, and of two such the nearer.
-/

namespace EdmxGen.Decimal

/-- A positive binary64 value times four, and the ends of its interval: numerators of `2 ^ scale`.
-/
structure Interval where
  low : Nat
  value : Nat
  high : Nat
  scale : Int
  closed : Bool

/-- The interval of the bits of a positive value, its sign left out. -/
def Interval.ofBits (bits : Nat) : Interval :=
  let fraction : Nat := bits % Nat.pow 2 52
  let exponent : Nat := bits / Nat.pow 2 52 % Nat.pow 2 11
  let m : Nat := if exponent = 0 then fraction else fraction + Nat.pow 2 52
  let q : Int := if exponent = 0 then -1074 else (exponent : Int) - 1075
  let below : Nat := if fraction = 0 ∧ exponent > 1 then 1 else 2
  ⟨4 * m - below, 4 * m, 4 * m + 2, q - 2, m % 2 = 0⟩

/-- A positive value in decimal: its digits, and the exponent of ten of the first of them. -/
structure Digits where
  digits : List Char
  exponent : Int
  deriving DecidableEq, Repr

/-- The exponent of ten of the first digit of `num / den`, searched downwards from `start`. -/
def leadingExponent (num den : Nat) (start : Nat) : Nat → Int
  | 0 => start
  | fuel + 1 =>
    let e : Int := (start : Int)
    if den * Nat.pow 10 start ≤ num then e
    else
      match start with
      | 0 => below fuel 1
      | s + 1 => leadingExponent num den s fuel
where
  /-- The search among negative exponents: the least `j` with `num · 10 ^ j ≥ den`. -/
  below : Nat → Nat → Int
    | 0, j => -(j : Int)
    | fuel + 1, j => if den ≤ num * Nat.pow 10 j then -(j : Int) else below fuel (j + 1)

/-- The integer on the grid of `10 ^ k` in the interval that is nearest to the value, if any. -/
def Interval.onGrid (i : Interval) (k : Int) : Option Nat :=
  let up := Nat.pow 2 i.scale.toNat * Nat.pow 10 (-k).toNat
  let unit := Nat.pow 10 k.toNat * Nat.pow 2 (-i.scale).toNat
  let value := i.value * up
  let inside (d : Nat) : Bool :=
    0 < d &&
      (if i.closed then i.low * up ≤ d * unit && d * unit ≤ i.high * up
       else i.low * up < d * unit && d * unit < i.high * up)
  let floor := value / unit
  let ceiling := floor + 1
  let floorIsNearer := 2 * value < (2 * floor + 1) * unit ∨
    (2 * value = (2 * floor + 1) * unit ∧ floor % 2 = 0)
  if inside floor && (floorIsNearer || !inside ceiling) then some floor
  else if inside ceiling then some ceiling
  else none

/-- The first grid of at most `fuel` more digits that meets the interval. -/
def Interval.search (i : Interval) (lead : Int) : Nat → Nat → Option (Nat × Int)
  | 0, _ => none
  | fuel + 1, count =>
    let k := lead - count + 1
    match i.onGrid k with
    | some d => some (d, k)
    | none => i.search lead fuel (count + 1)

/-- The digits of a positive value given by its bits. -/
def Digits.ofBits (bits : Nat) : Digits :=
  let i := Interval.ofBits bits
  let num := i.value * Nat.pow 2 i.scale.toNat
  let den := Nat.pow 2 (-i.scale).toNat
  let lead := leadingExponent num den 308 700
  match i.search lead 17 1 with
  | some (d, k) =>
    let digits := Nat.toDigits 10 d
    ⟨(digits.reverse.dropWhile (· == '0')).reverse, k + digits.length - 1⟩
  | none => ⟨['0'], 0⟩

/-- Where positional notation ends, and how few digits an exponent has. -/
structure Format where
  leastPositional : Int
  mostPositional : Int
  exponentWidth : Nat

/-- A value positionally when its exponent allows, else with an exponent; a point or an exponent
always stands in it. -/
def Digits.write (f : Format) (d : Digits) : List Char :=
  let count : Int := d.digits.length
  if f.leastPositional ≤ d.exponent ∧ d.exponent ≤ f.mostPositional then
    if d.exponent < 0 then
      ['0', '.'] ++ List.replicate (-d.exponent - 1).toNat '0' ++ d.digits
    else if count ≤ d.exponent + 1 then
      d.digits ++ List.replicate (d.exponent + 1 - count).toNat '0' ++ ['.', '0']
    else
      d.digits.take (d.exponent + 1).toNat ++ '.' :: d.digits.drop (d.exponent + 1).toNat
  else
    let mantissa :=
      match d.digits with
      | [] => []
      | [c] => [c]
      | c :: cs => c :: '.' :: cs
    let size := Nat.toDigits 10 d.exponent.natAbs
    mantissa ++ ['e', if d.exponent < 0 then '-' else '+'] ++
      List.replicate (f.exponentWidth - size.length) '0' ++ size

/-- A finite value given by its bits; both zeros keep their sign. -/
def write (f : Format) (bits : UInt64) : List Char :=
  let magnitude := bits.toNat % Nat.pow 2 63
  let sign := if bits.toNat / Nat.pow 2 63 = 1 then ['-'] else []
  if magnitude = 0 then sign ++ ['0', '.', '0'] else sign ++ (Digits.ofBits magnitude).write f

end EdmxGen.Decimal
