/-!
# Characters and parts of texts

The blanks are the 25 characters with the Unicode property `White_Space`; trimming takes the longest
run of them off an end of a text. Digits have values in base ten and sixteen, and natural numbers
have texts in both. `stripPrefix?` takes a known beginning off a text, and `cut?` divides a text at
the first place where a needle stands.
-/

namespace EdmxGen.Text

/-! ## Blanks -/

/-- The character has the property `White_Space`. -/
def isBlank (c : Char) : Bool :=
  let n := c.toNat
  (9 ≤ n && n ≤ 13) || n == 0x20 || n == 0x85 || n == 0xA0 || n == 0x1680 ||
    (0x2000 ≤ n && n ≤ 0x200A) || n == 0x2028 || n == 0x2029 || n == 0x202F || n == 0x205F ||
    n == 0x3000

/-- The text without the longest run of characters satisfying `p` at its end. -/
def dropEndWhile (p : Char → Bool) (cs : List Char) : List Char :=
  (cs.reverse.dropWhile p).reverse

def trimStart (cs : List Char) : List Char := cs.dropWhile isBlank

def trimEnd (cs : List Char) : List Char := dropEndWhile isBlank cs

def trim (cs : List Char) : List Char := trimEnd (trimStart cs)

def trimmed (s : String) : String := String.ofList (trim s.toList)

/-! ## Digits and letters -/

/-- The character is one of `0` to `9`. -/
def isDigit (c : Char) : Bool := '0' ≤ c && c ≤ '9'

/-- The character is an ASCII letter. -/
def isLetter (c : Char) : Bool := ('a' ≤ c && c ≤ 'z') || ('A' ≤ c && c ≤ 'Z')

def digitValue (c : Char) : Nat := c.toNat - '0'.toNat

def hexValue? (c : Char) : Option Nat :=
  if isDigit c then some (digitValue c)
  else if 'a' ≤ c ∧ c ≤ 'f' then some (c.toNat - 'a'.toNat + 10)
  else if 'A' ≤ c ∧ c ≤ 'F' then some (c.toNat - 'A'.toNat + 10)
  else none

/-- The number that a run of decimal digits stands for. -/
def ofDecimal (digits : List Char) : Nat :=
  digits.foldl (fun n c => 10 * n + digitValue c) 0

/-- The decimal digits of a number, without leading zeros. -/
def decimal (n : Nat) : List Char := Nat.toDigits 10 n

/-- The decimal digits of a number, with zeros in front up to `width`. -/
def decimalPadded (width n : Nat) : List Char :=
  List.replicate (width - (decimal n).length) '0' ++ decimal n

/-- The lower-case hexadecimal digits of a number, without leading zeros. -/
def hex (n : Nat) : List Char := Nat.toDigits 16 n

/-- The upper-case hexadecimal digits of a number, with zeros in front up to `width`. -/
def hexPaddedUpper (width n : Nat) : List Char :=
  List.replicate (width - (hex n).length) '0' ++ (hex n).map Char.toUpper

/-- The ASCII letters in lower case, all else unchanged. -/
def lowerAscii (cs : List Char) : List Char := cs.map Char.toLower

/-! ## Parts -/

def stripPrefix? : List Char → List Char → Option (List Char)
  | [], cs => some cs
  | _ :: _, [] => none
  | p :: ps, c :: cs => if p = c then stripPrefix? ps cs else none

/-- The parts of a text before and after the first occurrence of `needle`. -/
def cut? (needle : List Char) : List Char → Option (List Char × List Char)
  | [] => (stripPrefix? needle []).map fun rest => ([], rest)
  | c :: cs =>
    match stripPrefix? needle (c :: cs) with
    | some rest => some ([], rest)
    | none => (cut? needle cs).map fun parts => (c :: parts.1, parts.2)

def stripSuffix? (tail cs : List Char) : Option (List Char) :=
  (stripPrefix? tail.reverse cs.reverse).map List.reverse

def startsWith (lead cs : List Char) : Bool := (stripPrefix? lead cs).isSome

/-- The pieces of a text between the characters that satisfy `p`, empty pieces included. -/
def splitAt (p : Char → Bool) : List Char → List (List Char)
  | [] => [[]]
  | c :: cs =>
    if p c then [] :: splitAt p cs
    else
      match splitAt p cs with
      | [] => [[c]]
      | piece :: pieces => (c :: piece) :: pieces

theorem stripPrefix?_append (lead cs : List Char) : stripPrefix? lead (lead ++ cs) = some cs := by
  induction lead with
  | nil => rfl
  | cons p ps ih => simp [stripPrefix?, ih]

theorem eq_append_of_stripPrefix? {lead cs rest : List Char}
    (h : stripPrefix? lead cs = some rest) : cs = lead ++ rest := by
  induction lead generalizing cs with
  | nil => simpa [stripPrefix?] using h
  | cons p ps ih =>
    cases cs with
    | nil => simp [stripPrefix?] at h
    | cons c cs =>
      simp only [stripPrefix?] at h
      split at h
      · next hpc => rw [hpc, ih h, List.cons_append]
      · simp at h

end EdmxGen.Text
