import EdmxGen.Text.Basic
import EdmxGen.Text.Utf8

/-!
# Encodings of bytes

Bytes as characters of an address or a header. In an address a byte may be written as a percent sign
and two hexadecimal digits. Which characters must be, depends on the part of the address in which
they stand; all that are not printable ASCII must. In base 64 three bytes become four characters,
and equals signs fill the last four.
-/

namespace EdmxGen.Http

open Text

/-- The character may stand in a token, such as the name of a header. -/
def isToken (c : Char) : Bool :=
  isLetter c || isDigit c ||
    ['!', '#', '$', '%', '&', '\'', '*', '+', '-', '.', '^', '_', '\x60', '|', '~'].contains c

/-! ## Percent signs -/

def percentByte (b : UInt8) : List Char := '%' :: hexPaddedUpper 2 b.toNat

/-- The character is no printable ASCII. -/
def isUnprintable (c : Char) : Bool := c.toNat < 0x20 || 0x7E < c.toNat

/-- The character is encoded in every part of an address. -/
def isAlwaysEncoded (c : Char) : Bool :=
  isUnprintable c || c == ' ' || c == '"' || c == '#' || c == '<' || c == '>'

def isEncodedInPath (c : Char) : Bool :=
  isAlwaysEncoded c || c == '?' || c == '\x60' || c == '\x7b' || c == '\x7d'

def isEncodedInQuery (c : Char) : Bool := isAlwaysEncoded c || c == '\''

def percentEncode (p : Char → Bool) (cs : List Char) : List Char :=
  cs.flatMap fun c => if p c then (Utf8.encode [c]).flatMap percentByte else [c]

/-- The bytes of a text, encoded ones decoded; a percent sign without two digits stands for itself.
-/
def percentDecode : List Char → List UInt8
  | '%' :: a :: b :: cs =>
    match hexValue? a, hexValue? b with
    | some x, some y => UInt8.ofNat (16 * x + y) :: percentDecode cs
    | _, _ => Utf8.encode ['%'] ++ percentDecode (a :: b :: cs)
  | c :: cs => Utf8.encode [c] ++ percentDecode cs
  | [] => []

/-! ## Base 64 -/

namespace Base64

/-- The character for six bits. -/
def digit (n : Nat) : Char :=
  if n < 26 then Char.ofNat (n + 'A'.toNat)
  else if n < 52 then Char.ofNat (n - 26 + 'a'.toNat)
  else if n < 62 then Char.ofNat (n - 52 + '0'.toNat)
  else if n = 62 then '+'
  else '/'

def encode : List UInt8 → List Char
  | [] => []
  | [a] =>
    let n := a.toNat * 16
    [digit (n / 64), digit (n % 64), '=', '=']
  | [a, b] =>
    let n := (a.toNat * 256 + b.toNat) * 4
    [digit (n / 4096), digit (n / 64 % 64), digit (n % 64), '=']
  | a :: b :: c :: rest =>
    let n := (a.toNat * 256 + b.toNat) * 256 + c.toNat
    digit (n / 262144) :: digit (n / 4096 % 64) :: digit (n / 64 % 64) :: digit (n % 64) ::
      encode rest

end Base64

end EdmxGen.Http
