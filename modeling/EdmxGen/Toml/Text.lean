import EdmxGen.Text.Basic

/-!
# TOML texts

The four notations of a text: between quotation marks with escapes or between apostrophes without,
on one line or on several between three marks. Each reader takes what follows the opening marks and
gives the text and what follows the closing marks. Of the marks before the closing three, two may be
text.
-/

namespace EdmxGen.Toml

open Text

/-- The character may stand in a text on one line, and in a comment. -/
def isTextChar (c : Char) : Bool := c == '\t' || (0x20 ≤ c.toNat && c.toNat != 0x7F)

/-- The character is a blank between the parts of a line. -/
def isBlankChar (c : Char) : Bool := c == ' ' || c == '\t'

/-! ## Escapes -/

/-- What an escape lacks after its backslash: its letter, or that many digits. -/
inductive Escape
  | letter
  | digits (count value : Nat)
  deriving DecidableEq, Repr

/-- The character that a letter after a backslash stands for. -/
def unescape? : Char → Option Char
  | 'b' => some '\x08'
  | 't' => some '\t'
  | 'n' => some '\n'
  | 'f' => some '\x0c'
  | 'r' => some '\r'
  | 'e' => some '\x1b'
  | '"' => some '"'
  | '\\' => some '\\'
  | _ => none

/-- The character of a number that names one. -/
def charOf? (n : Nat) : Option Char :=
  if n.isValidChar then some (Char.ofNat n) else none

/-- What one more character makes of an escape: a longer one, or the character it stands for. -/
def Escape.next : Escape → Char → Option (Escape ⊕ Char)
  | .letter, 'x' => some (.inl (.digits 2 0))
  | .letter, 'u' => some (.inl (.digits 4 0))
  | .letter, 'U' => some (.inl (.digits 8 0))
  | .letter, c => (unescape? c).map .inr
  | .digits count value, c =>
    match hexValue? c with
    | none => none
    | some d =>
      if count ≤ 1 then (charOf? (value * 16 + d)).map .inr
      else some (.inl (.digits (count - 1) (value * 16 + d)))

/-! ## Texts on one line -/

/-- A text and what follows it. -/
abbrev Found := Option (List Char × List Char)

/-- Puts a character in front of the text found. -/
def Found.cons (c : Char) (r : Found) : Found := r.map fun f => (c :: f.1, f.2)

/-- A text with escapes, up to a quotation mark; `e` is an escape that has begun. -/
def readBasic (e : Option Escape) : List Char → Found
  | [] => none
  | c :: cs =>
    match e with
    | some e =>
      match e.next c with
      | none => none
      | some (.inl e) => readBasic (some e) cs
      | some (.inr d) => Found.cons d (readBasic none cs)
    | none =>
      if c = '"' then some ([], cs)
      else if c = '\\' then readBasic (some .letter) cs
      else if isTextChar c then Found.cons c (readBasic none cs)
      else none

/-- A text without escapes, up to an apostrophe. -/
def readLiteral : List Char → Found
  | [] => none
  | c :: cs =>
    if c = '\'' then some ([], cs)
    else if isTextChar c then Found.cons c (readLiteral cs)
    else none

/-! ## Texts on several lines -/

/-- The text without a line break at its beginning. -/
def dropBreak : List Char → List Char
  | '\n' :: cs => cs
  | '\r' :: '\n' :: cs => cs
  | cs => cs

/-- A text without escapes, up to three apostrophes. -/
def readLiteralLines : List Char → Found
  | '\'' :: '\'' :: '\'' :: '\'' :: '\'' :: cs => some (['\'', '\''], cs)
  | '\'' :: '\'' :: '\'' :: '\'' :: cs => some (['\''], cs)
  | '\'' :: '\'' :: '\'' :: cs => some ([], cs)
  | '\r' :: '\n' :: cs => Found.cons '\r' (Found.cons '\n' (readLiteralLines cs))
  | c :: cs =>
    if c = '\n' ∨ isTextChar c then Found.cons c (readLiteralLines cs) else none
  | [] => none

/-- Where a reader of lines with escapes stands. -/
inductive Place
  /-- In the text, or behind a backslash at a line's end, where blanks and breaks do not count. -/
  | text (folding : Bool)
  /-- In an escape. -/
  | escape (e : Escape)
  /-- In the blanks between a backslash and the line's end. -/
  | lineEnd
  deriving DecidableEq, Repr

/-- A text with escapes, up to three quotation marks. -/
def readBasicLines : Place → List Char → Found
  | .text _, '"' :: '"' :: '"' :: '"' :: '"' :: cs => some (['"', '"'], cs)
  | .text _, '"' :: '"' :: '"' :: '"' :: cs => some (['"'], cs)
  | .text _, '"' :: '"' :: '"' :: cs => some ([], cs)
  | .text folding, '\r' :: '\n' :: cs =>
    if folding then readBasicLines (.text true) cs
    else Found.cons '\r' (Found.cons '\n' (readBasicLines (.text false) cs))
  | .text folding, c :: cs =>
    if c = '\\' then readBasicLines (.escape .letter) cs
    else if folding ∧ (c = '\n' ∨ isBlankChar c) then readBasicLines (.text true) cs
    else if c = '\n' ∨ isTextChar c then Found.cons c (readBasicLines (.text false) cs)
    else none
  | .escape .letter, '\r' :: '\n' :: cs => readBasicLines (.text true) cs
  | .lineEnd, '\r' :: '\n' :: cs => readBasicLines (.text true) cs
  | .escape e, c :: cs =>
    if e = .letter ∧ isBlankChar c then readBasicLines .lineEnd cs
    else if e = .letter ∧ c = '\n' then readBasicLines (.text true) cs
    else
      match e.next c with
      | none => none
      | some (.inl e) => readBasicLines (.escape e) cs
      | some (.inr d) => Found.cons d (readBasicLines (.text false) cs)
  | .lineEnd, c :: cs =>
    if c = '\n' then readBasicLines (.text true) cs
    else if isBlankChar c then readBasicLines .lineEnd cs
    else none
  | _, [] => none

/-- A text in any notation, if one begins here. -/
def readText : List Char → Found
  | '"' :: '"' :: '"' :: cs => readBasicLines (.text false) (dropBreak cs)
  | '\'' :: '\'' :: '\'' :: cs => readLiteralLines (dropBreak cs)
  | '"' :: cs => readBasic none cs
  | '\'' :: cs => readLiteral cs
  | _ => none

end EdmxGen.Toml
