/-!
# Punycode

The ASCII form of a label with other characters: its ASCII characters, then for every other
character, in rising order, how far it lies from the one before, in digits of a base that adapts.
-/

namespace EdmxGen.Http.Punycode

/-- The digit for a value below 36. -/
def digit (n : Nat) : Char := if n < 26 then Char.ofNat (0x61 + n) else Char.ofNat (0x30 + n - 26)

/-- Divides a distance down to the range of one digit, counting the digits it takes. -/
def reduce (delta k : Nat) : Nat :=
  if h : 455 < delta then reduce (delta / 35) (k + 36) else k + 36 * delta / (delta + 38)
termination_by delta
decreasing_by omega

/-- The bias for the next distance. -/
def adapt (delta count : Nat) (first : Bool) : Nat :=
  let d := if first then delta / 700 else delta / 2
  reduce (d + d / count) 0

/-- The digits of a distance from position `k` on. -/
def digits (bias : Nat) : Nat → Nat → Nat → List Char
  | 0, _, _ => []
  | fuel + 1, q, k =>
    let t := if k ≤ bias then 1 else if bias + 26 ≤ k then 26 else k - bias
    if q < t then [digit q]
    else digit (t + (q - t) % (36 - t)) :: digits bias fuel ((q - t) / (36 - t)) (k + 36)

/-- The state while characters are written: the least one not yet written, the distance run up, the
bias, and how many characters are written. -/
structure Progress where
  next : Nat
  delta : Nat
  bias : Nat
  written : Nat

/-- Writes each occurrence of one character. -/
def writeAll (basic m : Nat) : List Nat → Progress → List Char × Progress
  | [], p => ([], { p with next := m + 1, delta := p.delta + 1 })
  | c :: cs, p =>
    if c < m then writeAll basic m cs { p with delta := p.delta + 1 }
    else if c = m then
      let out := digits p.bias (p.delta + 1) p.delta 36
      let bias := adapt p.delta (p.written + 1) (p.written == basic)
      let r := writeAll basic m cs { p with delta := 0, bias, written := p.written + 1 }
      (out ++ r.1, r.2)
    else writeAll basic m cs p

/-- Writes one character after the other, at most `fuel` different ones. -/
def writeFrom (basic : Nat) (label : List Nat) : Nat → Progress → List Char
  | 0, _ => []
  | fuel + 1, p =>
    match (label.filter fun c => p.next ≤ c).min? with
    | none => []
    | some m =>
      let r := writeAll basic m label
        { p with delta := p.delta + (m - p.next) * (p.written + 1) }
      r.1 ++ writeFrom basic label fuel r.2

/-- The ASCII form of a label, without the mark in front. -/
def encode (label : List Char) : List Char :=
  let basic := label.filter fun c => c.toNat < 0x80
  let lead := if basic.isEmpty then [] else basic ++ ['-']
  lead ++ writeFrom basic.length (label.map Char.toNat) label.length ⟨0x80, 0, 72, basic.length⟩

end EdmxGen.Http.Punycode
