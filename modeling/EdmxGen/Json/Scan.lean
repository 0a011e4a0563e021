import EdmxGen.Text.Basic
import EdmxGen.Text.Utf8
import EdmxGen.Json.Fault

/-!
# Scalars of JSON texts

Readers for numbers, strings and the three literal names. Each takes the text from where the scalar
begins and leaves what follows it. A number or string can also be passed over, which asks for less:
its digits may exceed every range, and its escapes may name half a surrogate pair.

A real is the 64-bit significand of its digits, scaled by one power of ten after another.
-/

namespace EdmxGen.Json

open Text

/-- The blanks between JSON tokens. -/
def isSpace (c : Char) : Bool := c == ' ' || c == '\n' || c == '\t' || c == '\r'

/-- The text from its next token on. -/
def skipSpace (cs : List Char) : List Char := cs.dropWhile isSpace

/-! ## Numbers -/

/-- Adds digits to a significand while it stays below `2 ^ 64`; the digits left over follow it. -/
def accumulate (n : Nat) : List Char → Nat × List Char
  | [] => (n, [])
  | c :: cs =>
    let n' := 10 * n + digitValue c
    if n' < UInt64.size then accumulate n' cs else (n, c :: cs)

/-- The significand times ten to the exponent, in binary64 steps; `none` past the largest value. -/
def scale : Nat → Float → Int → Option Float
  | 0, f, _ => some f
  | fuel + 1, f, e =>
    if e.natAbs ≤ 308 then
      let power := Float.ofScientific 1 false e.natAbs
      if 0 ≤ e then
        let g := f * power
        if g.isInf then none else some g
      else some (f / power)
    else if f == 0 then some f
    else if 0 ≤ e then none
    else scale fuel (f / 1e308) (e + 308)

/-- The real with this sign, significand and exponent. -/
def real (negative : Bool) (significand : Nat) (exponent : Int) : Except Fault Number :=
  match scale 8 (UInt64.ofNat significand).toFloat exponent with
  | some f => .ok (.real (if negative then -f else f).toBits)
  | none => .error .malformed

/-- The exponent part after its `e`, for a number read so far. -/
def readExponent (negative : Bool) (significand : Nat) (exponent : Int) (cs : List Char) :
    Except Fault (Number × List Char) :=
  let (down, cs) :=
    match cs with
    | '+' :: rest => (false, rest)
    | '-' :: rest => (true, rest)
    | _ => (false, cs)
  let digits := cs.takeWhile isDigit
  let rest := cs.dropWhile isDigit
  match digits with
  | [] => .error (if rest.isEmpty then .ended else .malformed)
  | _ =>
    let e := ofDecimal digits
    if e < Nat.pow 2 31 then
      (real negative significand (if down then exponent - e else exponent + e)).map (·, rest)
    else if significand ≠ 0 ∧ !down then .error .malformed
    else (real negative 0 0).map (·, rest)

/-- The decimals after the point, for a number read so far. -/
def readFraction (negative : Bool) (significand : Nat) (exponent : Int) (cs : List Char) :
    Except Fault (Number × List Char) :=
  let digits := cs.takeWhile isDigit
  let rest := cs.dropWhile isDigit
  match digits with
  | [] => .error (if rest.isEmpty then .ended else .malformed)
  | _ =>
    let (significand, excess) := accumulate significand digits
    let exponent := exponent - (digits.length - excess.length : Nat)
    match rest with
    | 'e' :: more => readExponent negative significand exponent more
    | 'E' :: more => readExponent negative significand exponent more
    | _ => (real negative significand exponent).map (·, rest)

/-- An integer within the 64-bit ranges; negative zero and what lies below the range are reals. -/
def integer (negative : Bool) (n : Nat) : Except Fault Number :=
  if negative then
    if 0 < n ∧ n ≤ Nat.pow 2 63 then .ok (.negative n) else real true n 0
  else .ok (.natural (UInt64.ofNat n))

def readUnsigned (negative : Bool) (cs : List Char) : Except Fault (Number × List Char) :=
  let digits := cs.takeWhile isDigit
  let rest := cs.dropWhile isDigit
  match digits with
  | [] => .error (if rest.isEmpty then .ended else .malformed)
  | '0' :: _ :: _ => .error .malformed
  | _ =>
    let (significand, excess) := accumulate 0 digits
    match rest with
    | '.' :: more => readFraction negative significand excess.length more
    | 'e' :: more => readExponent negative significand excess.length more
    | 'E' :: more => readExponent negative significand excess.length more
    | _ =>
      if excess.isEmpty then (integer negative significand).map (·, rest)
      else (real negative significand excess.length).map (·, rest)

def readNumber : List Char → Except Fault (Number × List Char)
  | '-' :: cs => readUnsigned true cs
  | cs => readUnsigned false cs

def skipDigits (cs : List Char) : Except Fault (List Char) :=
  if (cs.takeWhile isDigit).isEmpty then .error .malformed else .ok (cs.dropWhile isDigit)

/-- What follows an exponent part, if one stands here. -/
def skipExponent : List Char → Except Fault (List Char)
  | 'e' :: '+' :: cs | 'e' :: '-' :: cs | 'E' :: '+' :: cs | 'E' :: '-' :: cs => skipDigits cs
  | 'e' :: cs | 'E' :: cs => skipDigits cs
  | cs => .ok cs

/-- What follows the whole part of a number, in which no zero stands in front of other digits. -/
def skipWhole : List Char → Except Fault (List Char)
  | '0' :: c :: rest => if isDigit c then .error .malformed else .ok (c :: rest)
  | cs => skipDigits cs

def skipUnsigned (cs : List Char) : Except Fault (List Char) := do
  match ← skipWhole cs with
  | '.' :: rest => skipExponent (← skipDigits rest)
  | rest => skipExponent rest

def skipNumber : List Char → Except Fault (List Char)
  | '-' :: cs => skipUnsigned cs
  | cs => skipUnsigned cs

/-! ## Strings -/

/-- The character that a letter after a backslash stands for. -/
def unescape? : Char → Option Char
  | '"' => some '"'
  | '\\' => some '\\'
  | '/' => some '/'
  | 'b' => some '\x08'
  | 'f' => some '\x0c'
  | 'n' => some '\n'
  | 'r' => some '\r'
  | 't' => some '\t'
  | _ => none

/-- The value of four hexadecimal digits. -/
def hex4? (a b c d : Char) : Option Nat := do
  let a ← hexValue? a
  let b ← hexValue? b
  let c ← hexValue? c
  let d ← hexValue? d
  pure (((a * 16 + b) * 16 + c) * 16 + d)

/-- The number is the first half of a surrogate pair. -/
def isLeading (n : Nat) : Bool := 0xD800 ≤ n && n < 0xDC00

/-- The number is the second half of a surrogate pair. -/
def isTrailing (n : Nat) : Bool := 0xDC00 ≤ n && n < 0xE000

def joinPair (lead trail : Nat) : Char :=
  Char.ofNat ((lead - 0xD800) * 1024 + (trail - 0xDC00) + 0x10000)

/-- The fault of fewer than four hexadecimal digits before the end or a quote. -/
def shortEscape (cs : List Char) : Fault :=
  if Utf8.byteLength (cs.take 4) < 4 then .ended else .malformed

/-- The characters of a string after its opening quote. -/
def readText : List Char → Except Fault (List Char × List Char)
  | [] => .error .ended
  | '"' :: cs => .ok ([], cs)
  | '\\' :: [] => .error .ended
  | '\\' :: 'u' :: a :: b :: c :: d :: cs =>
    match hex4? a b c d with
    | none => .error .malformed
    | some n =>
      if isTrailing n then .error .malformed
      else if isLeading n then
        match cs with
        | '\\' :: 'u' :: e :: f :: g :: h :: cs =>
          match hex4? e f g h with
          | none => .error .malformed
          | some m =>
            if isTrailing m then (readText cs).map fun r => (joinPair n m :: r.1, r.2)
            else .error .malformed
        | '\\' :: 'u' :: more => .error (shortEscape more)
        | ['\\'] => .error .ended
        | [] => .error .ended
        | _ => .error .malformed
      else (readText cs).map fun r => (Char.ofNat n :: r.1, r.2)
  | '\\' :: 'u' :: more => .error (shortEscape more)
  | '\\' :: c :: cs =>
    match unescape? c with
    | none => .error .malformed
    | some e => (readText cs).map fun r => (e :: r.1, r.2)
  | c :: cs =>
    if c.toNat < 0x20 then .error .malformed
    else (readText cs).map fun r => (c :: r.1, r.2)

def skipText : List Char → Except Fault (List Char)
  | [] => .error .ended
  | '"' :: cs => .ok cs
  | '\\' :: [] => .error .ended
  | '\\' :: 'u' :: a :: b :: c :: d :: cs =>
    if (hex4? a b c d).isSome then skipText cs else .error .malformed
  | '\\' :: 'u' :: more => .error (shortEscape more)
  | '\\' :: c :: cs => if (unescape? c).isSome then skipText cs else .error .malformed
  | c :: cs => if c.toNat < 0x20 then .error .malformed else skipText cs

/-! ## Literal names -/

/-- What follows the rest of a literal name. -/
def readName : List Char → List Char → Except Fault (List Char)
  | [], cs => .ok cs
  | _ :: _, [] => .error .ended
  | n :: ns, c :: cs => if n = c then readName ns cs else .error .malformed

end EdmxGen.Json
