/-!
# UTF-8

A decoder that takes one byte at a time. Between bytes it holds what a character begun still owes:
how many bytes, and the range the next one must lie in. So a byte that cannot continue shows the
longest bad beginning at once, and the end of the input inside a character is its own case.

`decode` reports the first fault, `decodeLossy` writes U+FFFD for each.
-/

namespace EdmxGen.Text.Utf8

/-- Why bytes are no text. -/
inductive Fault
  /-- `width` bytes from `index` on begin no character. -/
  | invalid (width index : Nat)
  /-- The input ends inside the character that begins at `index`. -/
  | incomplete (index : Nat)
  deriving DecidableEq, Repr

def Fault.message : Fault → String
  | .invalid width index => s!"invalid utf-8 sequence of {width} bytes from index {index}"
  | .incomplete index => s!"incomplete utf-8 byte sequence from index {index}"

/-- A character begun: the bits so far, the bytes taken and still owed, and the range of the next.
-/
structure Pending where
  bits : Nat
  taken : Nat
  owed : Nat
  low : UInt8
  high : UInt8

/-- What one byte leads to. -/
inductive Step
  | char (c : Char)
  | pending (p : Pending)
  | bad

/-- The step from a byte between characters. -/
def begin (b : UInt8) : Step :=
  if b < 0x80 then .char (Char.ofNat b.toNat)
  else if b < 0xC2 then .bad
  else if b < 0xE0 then .pending ⟨b.toNat - 0xC0, 1, 1, 0x80, 0xBF⟩
  else if b = 0xE0 then .pending ⟨0, 1, 2, 0xA0, 0xBF⟩
  else if b = 0xED then .pending ⟨0xD, 1, 2, 0x80, 0x9F⟩
  else if b < 0xF0 then .pending ⟨b.toNat - 0xE0, 1, 2, 0x80, 0xBF⟩
  else if b = 0xF0 then .pending ⟨0, 1, 3, 0x90, 0xBF⟩
  else if b < 0xF4 then .pending ⟨b.toNat - 0xF0, 1, 3, 0x80, 0xBF⟩
  else if b = 0xF4 then .pending ⟨4, 1, 3, 0x80, 0x8F⟩
  else .bad

/-- The step from a byte inside a character. -/
def Pending.next (p : Pending) (b : UInt8) : Step :=
  if p.low ≤ b ∧ b ≤ p.high then
    let bits := 64 * p.bits + (b.toNat - 0x80)
    if p.owed ≤ 1 then .char (Char.ofNat bits)
    else .pending ⟨bits, p.taken + 1, p.owed - 1, 0x80, 0xBF⟩
  else .bad

/-- Decoding from `index`, where `p` is a character begun before it. -/
def decodeFrom (index : Nat) (p : Option Pending) : List UInt8 → Except Fault (List Char)
  | [] =>
    match p with
    | none => .ok []
    | some p => .error (.incomplete (index - p.taken))
  | b :: bs =>
    match p with
    | none =>
      match begin b with
      | .char c => (decodeFrom (index + 1) none bs).map (c :: ·)
      | .pending q => decodeFrom (index + 1) (some q) bs
      | .bad => .error (.invalid 1 index)
    | some p =>
      match p.next b with
      | .char c => (decodeFrom (index + 1) none bs).map (c :: ·)
      | .pending q => decodeFrom (index + 1) (some q) bs
      | .bad => .error (.invalid p.taken (index - p.taken))

/-- The text that bytes encode, or the first fault. -/
def decode (bs : List UInt8) : Except Fault (List Char) := decodeFrom 0 none bs

/-- The character that stands for bytes which are no text. -/
def replacement : Char := Char.ofNat 0xFFFD

/-- Decoding with a replacement for each fault, where `p` is a character begun. -/
def decodeLossyFrom (p : Option Pending) : List UInt8 → List Char
  | [] =>
    match p with
    | none => []
    | some _ => [replacement]
  | b :: bs =>
    let fresh (_ : Unit) : List Char :=
      match begin b with
      | .char c => c :: decodeLossyFrom none bs
      | .pending q => decodeLossyFrom (some q) bs
      | .bad => replacement :: decodeLossyFrom none bs
    match p with
    | none => fresh ()
    | some p =>
      match p.next b with
      | .char c => c :: decodeLossyFrom none bs
      | .pending q => decodeLossyFrom (some q) bs
      | .bad => replacement :: fresh ()

/-- The text that bytes encode, with U+FFFD for each longest bad beginning. -/
def decodeLossy (bs : List UInt8) : List Char := decodeLossyFrom none bs

def encode (cs : List Char) : List UInt8 := cs.flatMap String.utf8EncodeChar

def byteLength (cs : List Char) : Nat := (encode cs).length

end EdmxGen.Text.Utf8
