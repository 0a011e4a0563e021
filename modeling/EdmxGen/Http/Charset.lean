import EdmxGen.Http.Encoding

/-!
# Character sets

How the text of a page is decoded. A byte order mark decides before anything else, and is dropped;
then the character set that the content type names; all other texts are taken for UTF-8. Bytes that
mean nothing are replaced. A run leaves decoding to a `PageDecoder`, because there are more
character sets than the four of `Charset`, which most pages have.
-/

namespace EdmxGen.Http

open Text

/-- A decoder of pages: the text of bytes with a content type. -/
class PageDecoder where
  text : Option String → List UInt8 → List Char

inductive Charset
  | utf8
  | windows1252
  | utf16 (bigEndian : Bool)
  deriving DecidableEq, Repr

namespace Charset

/-! ## Labels -/

def westernLabels : List String :=
  ["ansi_x3.4-1968", "ascii", "cp1252", "cp819", "csisolatin1", "ibm819", "iso-8859-1",
    "iso-ir-100", "iso8859-1", "iso88591", "iso_8859-1", "iso_8859-1:1987", "l1", "latin1",
    "us-ascii", "windows-1252", "x-cp1252"]

/-- The labels of the set of two-byte units that begin with their low byte. -/
def lowFirstLabels : List String :=
  ["csunicode", "iso-10646-ucs-2", "ucs-2", "unicode", "unicodefeff", "utf-16", "utf-16le"]

/-- The labels of the set of two-byte units that begin with their high byte. -/
def highFirstLabels : List String := ["unicodefffe", "utf-16be"]

/-- The character set of a label, as far as it is one of these. -/
def ofLabel (label : List Char) : Charset :=
  let name := String.ofList (lowerAscii (trim label))
  if westernLabels.contains name then windows1252
  else if lowFirstLabels.contains name then utf16 false
  else if highFirstLabels.contains name then utf16 true
  else utf8

/-! ## Content types -/

/-- The parameters of a content type behind a semicolon, unless they are badly written. A value in
quotes has at least one character, which may be a quote. -/
def readParameters : Nat → List Char → Option (List (List Char × List Char))
  | _, [] => some []
  | 0, _ => none
  | fuel + 1, ' ' :: cs => readParameters fuel cs
  | fuel + 1, cs =>
    let name := cs.takeWhile isToken
    let further (value rest : List Char) : Option (List (List Char × List Char)) :=
      match rest with
      | [] => some [(lowerAscii name, value)]
      | ';' :: rest => (readParameters fuel rest).map ((lowerAscii name, value) :: ·)
      | _ => none
    match cs.dropWhile isToken with
    | '=' :: '"' :: c :: rest =>
      let value := c :: rest.takeWhile (· != '"')
      let rest := rest.dropWhile (· != '"')
      if name.isEmpty || rest.isEmpty || value.any isUnprintable then none
      else further value (rest.tail.dropWhile (· == ' '))
    | '=' :: rest =>
      let value := rest.takeWhile isToken
      let rest := rest.dropWhile isToken
      if name.isEmpty || (value.isEmpty && !rest.isEmpty) then none else further value rest
    | _ => none

def parameters? (type : List Char) : Option (List (List Char × List Char)) :=
  match type.takeWhile isToken, type.dropWhile isToken with
  | _ :: _, '/' :: rest =>
    match rest.takeWhile isToken, rest.dropWhile isToken with
    | _, [] => some []
    | _ :: _, ';' :: rest => readParameters rest.length rest
    | _, _ => none
  | _, _ => none

def ofContentType (type : String) : Charset :=
  let named := (parameters? (trim type.toList)).bind fun ps =>
    ps.find? fun p => p.1 == "charset".toList
  (named.map fun p => ofLabel p.2).getD utf8

/-! ## Bytes -/

/-- The characters of the western set between the two blocks it shares with Unicode. -/
def westernSpecials : List Nat :=
  [0x20AC, 0x81, 0x201A, 0x192, 0x201E, 0x2026, 0x2020, 0x2021, 0x2C6, 0x2030, 0x160, 0x2039, 0x152,
    0x8D, 0x17D, 0x8F, 0x90, 0x2018, 0x2019, 0x201C, 0x201D, 0x2022, 0x2013, 0x2014, 0x2DC, 0x2122,
    0x161, 0x203A, 0x153, 0x9D, 0x17E, 0x178]

def westernChar (b : UInt8) : Char :=
  let n := b.toNat
  if 0x80 ≤ n ∧ n < 0xA0 then Char.ofNat (westernSpecials.getD (n - 0x80) n) else Char.ofNat n

/-- The two-byte units of some bytes, and whether a byte is left over. -/
def units (bigEndian : Bool) : List UInt8 → List Nat × Bool
  | a :: b :: bs =>
    let unit := if bigEndian then 256 * a.toNat + b.toNat else 256 * b.toNat + a.toNat
    let r := units bigEndian bs
    (unit :: r.1, r.2)
  | [_] => ([], true)
  | [] => ([], false)

/-- The characters of two-byte units, behind which a byte may be left over. Half of a pair alone is
replaced, and so is a byte left over; both at the end are replaced as one. -/
def ofUnits (odd : Bool) : List Nat → List Char
  | [] => if odd then [Utf8.replacement] else []
  | [u] =>
    if 0xD800 ≤ u ∧ u < 0xDC00 then [Utf8.replacement]
    else (if 0xDC00 ≤ u ∧ u < 0xE000 then Utf8.replacement else Char.ofNat u) :: ofUnits odd []
  | u :: v :: us =>
    if 0xD800 ≤ u ∧ u < 0xDC00 then
      if 0xDC00 ≤ v ∧ v < 0xE000 then
        Char.ofNat ((u - 0xD800) * 1024 + (v - 0xDC00) + 0x10000) :: ofUnits odd us
      else Utf8.replacement :: ofUnits odd (v :: us)
    else
      (if 0xDC00 ≤ u ∧ u < 0xE000 then Utf8.replacement else Char.ofNat u) :: ofUnits odd (v :: us)

def decodeAs (set : Charset) (bytes : List UInt8) : List Char :=
  match set with
  | utf8 => Utf8.decodeLossy bytes
  | windows1252 => bytes.map westernChar
  | utf16 bigEndian =>
    let (us, odd) := units bigEndian bytes
    ofUnits odd us

def decode (type : Option String) (bytes : List UInt8) : List Char :=
  match bytes with
  | 0xEF :: 0xBB :: 0xBF :: rest => decodeAs utf8 rest
  | 0xFF :: 0xFE :: rest => decodeAs (utf16 false) rest
  | 0xFE :: 0xFF :: rest => decodeAs (utf16 true) rest
  | _ => decodeAs ((type.map ofContentType).getD utf8) bytes

end Charset

/-- The decoder of the program. -/
instance : PageDecoder := ⟨Charset.decode⟩

end EdmxGen.Http
