import EdmxGen.Text.Basic

/-!
# Character data

Why a text is no document; which characters may stand in a document and in a name; references, line
ends and blanks in texts, attribute values and literal sections. A carriage return written as a
reference is kept; a raw one is a line end.
-/

namespace EdmxGen.Xml

open Text

/-! ## Faults -/

/-- Why a text is no document. -/
inductive Fault
  /-- A character that no document may hold. -/
  | forbiddenChar
  /-- An ampersand that begins no reference. -/
  | malformedReference
  /-- A reference to a name that stands for nothing. -/
  | unknownReference
  /-- A close tag of another name than the open element. -/
  | unexpectedCloseTag
  /-- A label that no declaration binds. -/
  | unknownNamespace
  /-- Two attributes of one name and namespace. -/
  | duplicatedAttribute
  /-- Two declarations of one label on an element. -/
  | duplicatedNamespace
  /-- The label `xml` bound to another namespace than its own. -/
  | invalidXmlLabel
  /-- The namespace of `xml` bound to another label, or by default. -/
  | unexpectedXmlUri
  /-- The namespace of declarations bound at all. -/
  | unexpectedXmlnsUri
  /-- An element labelled `xmlns`. -/
  | invalidElementLabel
  /-- A declaration of the document anywhere but at its start. -/
  | unexpectedDeclaration
  /-- Two hyphens inside a comment, or one at its end. -/
  | invalidComment
  /-- A document type. -/
  | documentType
  /-- No element. -/
  | noRoot
  /-- An outermost element that is not closed. -/
  | unclosedRoot
  /-- Markup that follows no rule. -/
  | malformed
  deriving DecidableEq, Repr

/-! ## Characters -/

/-- The characters that separate the parts of markup. -/
def isSpace (c : Char) : Bool := c == ' ' || c == '\t' || c == '\n' || c == '\r'

def isAllowed (c : Char) : Bool :=
  if c.toNat < 0x20 then isSpace c else c.toNat != 0xFFFE && c.toNat != 0xFFFF

def isNameStart (c : Char) : Bool :=
  let n := c.toNat
  if n ≤ 128 then Text.isLetter c || c == ':' || c == '_'
  else
    (0xC0 ≤ n && n ≤ 0xD6) || (0xD8 ≤ n && n ≤ 0xF6) || (0xF8 ≤ n && n ≤ 0x2FF) ||
      (0x370 ≤ n && n ≤ 0x37D) || (0x37F ≤ n && n ≤ 0x1FFF) || (0x200C ≤ n && n ≤ 0x200D) ||
      (0x2070 ≤ n && n ≤ 0x218F) || (0x2C00 ≤ n && n ≤ 0x2FEF) || (0x3001 ≤ n && n ≤ 0xD7FF) ||
      (0xF900 ≤ n && n ≤ 0xFDCF) || (0xFDF0 ≤ n && n ≤ 0xFFFD) || (0x10000 ≤ n && n ≤ 0xEFFFF)

def isNameChar (c : Char) : Bool :=
  let n := c.toNat
  if n ≤ 128 then isNameStart c || Text.isDigit c || c == '-' || c == '.'
  else
    isNameStart c || n == 0xB7 || (0x300 ≤ n && n ≤ 0x36F) || (0x203F ≤ n && n ≤ 0x2040)

/-! ## References -/

/-- The character that a name between `&` and `;` stands for. -/
def namedChar? (name : String) : Option Char :=
  if name = "quot" then some '"'
  else if name = "amp" then some '&'
  else if name = "apos" then some '\''
  else if name = "lt" then some '<'
  else if name = "gt" then some '>'
  else none

/-- The character with this number; U+FFFD where there is none. -/
def numberedChar (n : Nat) : Char :=
  if h : n.isValidChar then Char.ofNatAux n h else Char.ofNat 0xFFFD

/-- The character with the number that digits of a base stand for, if it may stand in a document. -/
def charOfDigits (base : Nat) (digits : List Char) : Option Char :=
  match digits with
  | [] => none
  | _ =>
    let n := digits.foldl (fun n c => base * n + (hexValue? c).getD 0) 0
    if n < UInt32.size ∧ isAllowed (numberedChar n) then some (numberedChar n) else none

/-- A name at the beginning of a text and what follows it. -/
def readName : List Char → Option (List Char × List Char)
  | [] => none
  | c :: cs =>
    if isNameStart c then some (c :: cs.takeWhile isNameChar, cs.dropWhile isNameChar) else none

/-- The character of a reference after its ampersand, and what follows the reference. -/
def readReference (cs : List Char) : Except Fault (Char × List Char) :=
  let numbered (base : Nat) (isBase : Char → Bool) (cs : List Char) :
      Except Fault (Char × List Char) :=
    match charOfDigits base (cs.takeWhile isBase), cs.dropWhile isBase with
    | some c, ';' :: rest => .ok (c, rest)
    | _, _ => .error .malformedReference
  match cs with
  | '#' :: 'x' :: cs => numbered 16 (fun c => (hexValue? c).isSome) cs
  | '#' :: cs => numbered 10 isDigit cs
  | cs =>
    match readName cs with
    | some (name, ';' :: rest) =>
      match namedChar? (String.ofList name) with
      | some c => .ok (c, rest)
      | none => .error .unknownReference
    | _ => .error .malformedReference

/-- A piece of character data: a character as it stands, or one given by a reference. -/
inductive Piece
  | raw (c : Char)
  | given (c : Char)

def pieces : Nat → List Char → Except Fault (List Piece)
  | _, [] => .ok []
  | 0, _ => .ok []
  | fuel + 1, c :: cs =>
    if c = '&' then do
      let (d, rest) ← readReference cs
      let more ← pieces fuel rest
      pure (.given d :: more)
    else do
      let more ← pieces fuel cs
      pure (.raw c :: more)

/-- The text of pieces, built in reverse; `fixed` tells that the next character stays as it is. -/
def joinText (built : List Char) (fixed : Bool) : List Piece → List Char
  | [] => built.reverse
  | .given c :: ps => joinText (c :: built) true ps
  | .raw c :: ps =>
    if fixed then joinText (c :: built) false ps
    else
      let last (c : Char) : Char := if ps.isEmpty && c == '\r' then '\n' else c
      match built with
      | '\r' :: rest =>
        if c = '\n' then joinText ('\n' :: rest) false ps
        else joinText (last c :: '\n' :: rest) false ps
      | _ => joinText (last c :: built) false ps

/-- The text that a run of character data stands for. -/
def textOf (cs : List Char) : Except Fault String :=
  if cs.any fun c => c == '&' || c == '\r' then do
    let ps ← pieces cs.length cs
    pure (String.ofList (joinText [] false ps))
  else .ok (String.ofList cs)

/-- The text of pieces in an attribute value, where every raw blank is a space. -/
def joinValue : List Piece → List Char
  | [] => []
  | .given c :: ps => c :: joinValue ps
  | .raw '\r' :: .raw '\n' :: ps => ' ' :: joinValue ps
  | .raw c :: ps => (if c == '\n' || c == '\r' || c == '\t' then ' ' else c) :: joinValue ps

/-- The value that an attribute's text stands for. -/
def valueOf (cs : List Char) : Except Fault String := do
  let ps ← pieces cs.length cs
  pure (String.ofList (joinValue ps))

/-- The text that a literal section stands for: every line end is a line feed. -/
def literalOf : List Char → List Char
  | [] => []
  | '\r' :: '\n' :: cs => '\n' :: literalOf cs
  | '\r' :: cs => '\n' :: literalOf cs
  | c :: cs => c :: literalOf cs

end EdmxGen.Xml
