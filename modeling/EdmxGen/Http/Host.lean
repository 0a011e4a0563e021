import EdmxGen.Http.Encoding
import EdmxGen.Http.Punycode
import EdmxGen.Text.Basic

/-!
# Hosts

The host of an address: a name in ASCII and lower case, four bytes with dots between them, or eight
groups in brackets. A name whose last label is a number stands for four bytes, in whatever base they
are written.
-/

namespace EdmxGen.Http.Host

open Text

/-! ## Four bytes -/

/-- A number that may be octal or hexadecimal. -/
def number? (label : List Char) : Option Nat :=
  let based (base : Nat) (digits : List Char) : Option Nat :=
    digits.foldl
      (fun n c => do
        let n ← n
        let d ← hexValue? c
        if d < base then some (base * n + d) else none)
      (some 0)
  match label with
  | [] => none
  | '0' :: 'x' :: digits => based 16 digits
  | '0' :: 'X' :: digits => based 16 digits
  | '0' :: d :: digits => based 8 (d :: digits)
  | digits => based 10 digits

/-- The labels of a name, without an empty one at the end. -/
def labels (name : List Char) : List (List Char) :=
  let all := splitAt (· == '.') name
  if all.length > 1 ∧ all.getLast? = some [] then all.dropLast else all

def endsInNumber (name : List Char) : Bool :=
  match (labels name).getLast? with
  | none => false
  | some last =>
    (!last.isEmpty && last.all isDigit) ||
      (match last with
      | '0' :: 'x' :: _ => (number? last).isSome
      | '0' :: 'X' :: _ => (number? last).isSome
      | _ => false)

/-- The value of numbers in front of the last one, each a byte. -/
def leadValue? : List Nat → Nat → Option Nat
  | [], value => some value
  | n :: ns, value => if n ≤ 255 then leadValue? ns (256 * value + n) else none

def writeBytes (value : Nat) : List Char :=
  decimal (value / 16777216) ++ '.' :: decimal (value / 65536 % 256) ++
    '.' :: decimal (value / 256 % 256) ++ '.' :: decimal (value % 256)

/-- The four bytes that up to four numbers stand for; the last one fills what the others leave. -/
def bytes? (name : List Char) : Option (List Char) := do
  let numbers ← (labels name).mapM number?
  let last ← numbers.getLast?
  let lead := numbers.dropLast
  if 3 < lead.length then none
  else
    let room := Nat.pow 256 (4 - lead.length)
    let value ← leadValue? lead 0
    if last < room then some (writeBytes (value * room + last)) else none

/-! ## Eight groups -/

/-- A group of up to four hexadecimal digits. -/
def group? (cs : List Char) : Option Nat :=
  if cs.isEmpty ∨ 4 < cs.length ∨ !cs.all fun c => (hexValue? c).isSome then none
  else some (cs.foldl (fun n c => 16 * n + (hexValue? c).getD 0) 0)

/-- A decimal byte without leading zeros. -/
def byte? (cs : List Char) : Option Nat :=
  if cs.isEmpty ∨ !cs.all isDigit ∨ (cs.head? = some '0' ∧ 1 < cs.length) ∨ 3 < cs.length then none
  else if ofDecimal cs ≤ 255 then some (ofDecimal cs) else none

/-- The groups between colons; the last place may hold four bytes instead of two groups. -/
def groups? : List (List Char) → Option (List Nat)
  | [] => some []
  | [last] =>
    if last.contains '.' then
      match (splitAt (· == '.') last).mapM byte? with
      | some [a, b, c, d] => some [256 * a + b, 256 * c + d]
      | _ => none
    else (group? last).map fun g => [g]
  | first :: rest => do
    let g ← group? first
    let gs ← groups? rest
    pure (g :: gs)

/-- The groups of a part of an address between its ends and a double colon. -/
def side? (cs : List Char) : Option (List Nat) :=
  if cs.isEmpty then some [] else groups? (splitAt (· == ':') cs)

/-- The eight groups; a double colon stands for one or more of them that are zero. -/
def allGroups? (cs : List Char) : Option (List Nat) :=
  match cut? [':', ':'] cs with
  | none => (side? cs).filter fun gs => gs.length == 8
  | some (front, back) => do
    let front ← if front.contains '.' then none else side? front
    let back ← side? back
    let count := front.length + back.length
    if count ≤ 7 then some (front ++ List.replicate (8 - count) 0 ++ back) else none

/-- The length of the run of zeros at the beginning. -/
def zeros (gs : List Nat) : Nat := (gs.takeWhile (· == 0)).length

/-- The place of the first of the longest runs of two or more zeros, searched from place `i`. -/
def longestZeros (best : Nat × Nat) (i : Nat) : List Nat → Nat × Nat
  | [] => best
  | g :: gs =>
    let here := zeros (g :: gs)
    longestZeros (if here > best.2 ∧ 1 < here then (i, here) else best) (i + 1) gs

def writeGroups (gs : List Nat) : List Char := [':'].intercalate (gs.map hex)

/-- Eight groups in their shortest form. -/
def writeAddress (gs : List Nat) : List Char :=
  let (i, count) := longestZeros (0, 0) 0 gs
  if count = 0 then writeGroups gs
  else writeGroups (gs.take i) ++ [':', ':'] ++ writeGroups (gs.drop (i + count))

/-! ## Names -/

/-- The character may not stand in a name. -/
def isForbidden (c : Char) : Bool :=
  c.toNat ≤ 0x20 || c.toNat == 0x7F ||
    ['#', '/', ':', '<', '>', '?', '@', '[', '\\', ']', '^', '|', '%'].contains c

/-- The lower-case form of a letter of the Latin, Greek and Cyrillic scripts. -/
def lowerChar (c : Char) : Char :=
  let n := c.toNat
  if (0x41 ≤ n ∧ n ≤ 0x5A) ∨ (0xC0 ≤ n ∧ n ≤ 0xDE ∧ n ≠ 0xD7) ∨
      (0x391 ≤ n ∧ n ≤ 0x3AB ∧ n ≠ 0x3A2) ∨ (0x410 ≤ n ∧ n ≤ 0x42F) then Char.ofNat (n + 32)
  else if 0x400 ≤ n ∧ n ≤ 0x40F then Char.ofNat (n + 80)
  else if (0x100 ≤ n ∧ n ≤ 0x137 ∧ n ≠ 0x130) ∨ (0x14A ≤ n ∧ n ≤ 0x177) then
    Char.ofNat (n + 1 - n % 2)
  else if (0x139 ≤ n ∧ n ≤ 0x148) ∨ (0x179 ≤ n ∧ n ≤ 0x17E) then Char.ofNat (n + n % 2)
  else c

/-- A label in ASCII. -/
def label (cs : List Char) : List Char :=
  if cs.all fun c => c.toNat < 0x80 then cs else ['x', 'n', '-', '-'] ++ Punycode.encode cs

def asciiName (cs : List Char) : List Char :=
  ['.'].intercalate ((splitAt (· == '.') (cs.map lowerChar)).map label)

/-- The host that a text names, in its one form. -/
def read? (cs : List Char) : Option String :=
  match cs with
  | '[' :: rest =>
    match rest.reverse with
    | ']' :: inner =>
      (allGroups? inner.reverse).map fun gs => String.ofList ('[' :: writeAddress gs ++ [']'])
    | _ => none
  | _ =>
    let name := asciiName (Utf8.decodeLossy (percentDecode cs))
    if name.isEmpty ∨ name.any isForbidden then none
    else if endsInNumber name then (bytes? name).map String.ofList
    else some (String.ofList name)

end EdmxGen.Http.Host
