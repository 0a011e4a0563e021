import EdmxGen.Text.Basic
import EdmxGen.Toml.Draft

/-!
# TOML values without marks

Booleans, integers, reals and dates. An integer has at most 128 bits and a real rounds to a finite
binary64 value; the parts of a date are in the ranges of the calendar, and a minute may have 60
seconds and one more.
-/

namespace EdmxGen.Toml

open Text

/-- Digits with single underscores between them, the underscores left out. -/
def digits? (p : Char → Bool) (cs : List Char) : Option (List Char) :=
  let groups := splitAt (· == '_') cs
  if groups.all fun g => !g.isEmpty && g.all p then some groups.flatten else none

/-- The number that hexadecimal digits stand for in a base. -/
def ofBase (base : Nat) (digits : List Char) : Nat :=
  digits.foldl (fun n c => base * n + (hexValue? c).getD 0) 0

/-- Decimal digits without a leading zero. -/
def wholeDigits? (cs : List Char) : Option (List Char) :=
  match digits? isDigit cs with
  | some ('0' :: _ :: _) => none
  | r => r

/-- The sign in front of a number, which is negative for a minus, and what follows it. -/
def splitSign : List Char → Bool × List Char
  | '+' :: cs => (false, cs)
  | '-' :: cs => (true, cs)
  | cs => (false, cs)

/-- An integer of at most 128 bits. -/
def bounded? (n : Int) : Option Int :=
  if -(Nat.pow 2 127 : Int) ≤ n ∧ n < (Nat.pow 2 128 : Int) then some n else none

/-- The integer that is written, with a base of its own only where there is no sign. -/
def integer? (cs : List Char) : Option Int :=
  let based (base : Nat) (p : Char → Bool) (digits : List Char) : Option Int :=
    (digits? p digits).bind fun ds => bounded? (ofBase base ds)
  match cs with
  | '0' :: 'x' :: digits => based 16 (fun c => (hexValue? c).isSome) digits
  | '0' :: 'o' :: digits => based 8 (fun c => '0' ≤ c && c ≤ '7') digits
  | '0' :: 'b' :: digits => based 2 (fun c => c == '0' || c == '1') digits
  | _ =>
    let (negative, digits) := splitSign cs
    (wholeDigits? digits).bind fun ds =>
      bounded? (if negative then -(ofDecimal ds : Int) else ofDecimal ds)

/-- The decimal `n · 10 ^ e` rounds to a finite binary64 value. -/
def isFinite (n : Nat) (e : Int) : Bool :=
  let order := (decimal n).length + e
  if n = 0 ∨ order < 300 then true
  else if order > 310 then false
  else n * Nat.pow 10 e.toNat < (Nat.pow 2 1024 - Nat.pow 2 970) * Nat.pow 10 (-e).toNat

/-- The text is that of a real: whole digits with a fraction, an exponent or both, or one of the two
names that stand for no number or no finite one. -/
def isReal (cs : List Char) : Bool :=
  let (_, body) := splitSign cs
  if body = ['i', 'n', 'f'] ∨ body = ['n', 'a', 'n'] then true
  else
    let whole := body.takeWhile fun c => isDigit c || c == '_'
    let rest := body.dropWhile fun c => isDigit c || c == '_'
    let hasFraction := rest.head? = some '.'
    let fraction :=
      if hasFraction then (rest.drop 1).takeWhile fun c => isDigit c || c == '_' else []
    let rest := if hasFraction then (rest.drop 1).dropWhile fun c => isDigit c || c == '_' else rest
    let hasExponent := rest.head? = some 'e' ∨ rest.head? = some 'E'
    let (down, exponent) := splitSign (rest.drop 1)
    match wholeDigits? whole, (if hasFraction then digits? isDigit fraction else some []),
      (if hasExponent then digits? isDigit exponent else some []) with
    | some w, some f, some x =>
      (hasFraction || hasExponent) && (hasExponent || rest.isEmpty) &&
        isFinite (ofDecimal (w ++ f))
          ((if down then -(ofDecimal x : Int) else ofDecimal x) - f.length)
    | _, _, _ => false

/-! ## Dates -/

/-- The number of two digits at the beginning of a text, if it is at most `most`. -/
def twoDigits? (most : Nat) : List Char → Option (Nat × List Char)
  | a :: b :: cs =>
    if isDigit a && isDigit b && ofDecimal [a, b] ≤ most then some (ofDecimal [a, b], cs) else none
  | _ => none

def daysOf (year month : Nat) : Nat :=
  if month = 2 then if year % 4 = 0 ∧ (year % 100 ≠ 0 ∨ year % 400 = 0) then 29 else 28
  else if month = 4 ∨ month = 6 ∨ month = 9 ∨ month = 11 then 30
  else 31

def dropDate? (cs : List Char) : Option (List Char) := do
  let year := cs.take 4
  if !(year.length == 4 && year.all isDigit) then none
  else
    match cs.drop 4 with
    | '-' :: cs =>
      let (month, cs) ← twoDigits? 12 cs
      match cs with
      | '-' :: cs =>
        let (day, cs) ← twoDigits? (daysOf (ofDecimal year) month) cs
        if 0 < month && 0 < day then some cs else none
      | _ => none
    | _ => none

def dropSeconds? : List Char → Option (List Char)
  | ':' :: cs => do
    let (_, cs) ← twoDigits? 60 cs
    match cs with
    | '.' :: cs =>
      if (cs.takeWhile isDigit).isEmpty then none else some (cs.dropWhile isDigit)
    | cs => some cs
  | cs => some cs

def dropTime? (cs : List Char) : Option (List Char) := do
  let (_, cs) ← twoDigits? 23 cs
  match cs with
  | ':' :: cs =>
    let (_, cs) ← twoDigits? 59 cs
    dropSeconds? cs
  | _ => none

/-- The text is an offset from universal time, or nothing. -/
def isOffset : List Char → Bool
  | [] | ['Z'] | ['z'] => true
  | c :: cs =>
    (c == '+' || c == '-') &&
      (match twoDigits? 23 cs with
      | some (_, ':' :: cs) => (twoDigits? 59 cs).map Prod.snd == some []
      | _ => false)

/-- The text is a date, a time, or a date with a time and perhaps an offset. -/
def isMoment (cs : List Char) : Bool :=
  match dropDate? cs with
  | some [] => true
  | some (c :: time) =>
    (c == 'T' || c == 't' || c == ' ') && ((dropTime? time).map isOffset).getD false
  | none => dropTime? cs == some []

/-! ## Any of them -/

/-- The character ends a value without marks. -/
def endsScalar (c : Char) : Bool :=
  c == ',' || c == '[' || c == ']' || c == '{' || c == '}' || c == '=' || c == ' ' || c == '\t' ||
    c == '#' || c == '\r' || c == '\n'

/-- Divides a text behind the value without marks at its beginning; a blank between a date and a
time belongs to the value. -/
def splitScalar (cs : List Char) : List Char × List Char :=
  let word := cs.takeWhile fun c => !endsScalar c
  let rest := cs.dropWhile fun c => !endsScalar c
  match rest with
  | ' ' :: c :: more =>
    if dropDate? word = some [] ∧ isDigit c then
      (word ++ ' ' :: (c :: more).takeWhile fun c => !endsScalar c,
        (c :: more).dropWhile fun c => !endsScalar c)
    else (word, rest)
  | _ => (word, rest)

/-- The value that a word stands for. -/
def scalar? (word : List Char) : Option Toml :=
  if word = ['t', 'r', 'u', 'e'] then some (.boolean true)
  else if word = ['f', 'a', 'l', 's', 'e'] then some (.boolean false)
  else
    match integer? word with
    | some n => some (.integer n)
    | none =>
      if isReal word then some (.real (String.ofList word))
      else if isMoment word then some (.moment (String.ofList word))
      else none

/-- A value without marks and what follows it. -/
def readScalar (cs : List Char) : Option (Toml × List Char) :=
  (scalar? (splitScalar cs).1).map fun v => (v, (splitScalar cs).2)

end EdmxGen.Toml
