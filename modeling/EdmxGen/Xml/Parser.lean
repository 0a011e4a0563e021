import EdmxGen.Text.Basic
import EdmxGen.Xml.Content
import EdmxGen.Xml.Document

/-!
# Reading documents

A document is read strictly from left to right, and the first fault is the one reported. The
elements that are open at a place form a stack; a close tag moves the innermost into the content of
the next.
-/

namespace EdmxGen.Xml

open Text

def skipSpace (cs : List Char) : List Char := cs.dropWhile isSpace

/-- What follows an expected text. -/
def expect (word : String) (cs : List Char) : Except Fault (List Char) :=
  match stripPrefix? word.toList cs with
  | some rest => .ok rest
  | none => .error .malformed

/-- Divides a text before `mark`, which may be missing; every character in front must be allowed. -/
def readUntil (mark : List Char) : List Char → Except Fault (List Char × List Char)
  | [] => .ok ([], [])
  | c :: cs =>
    if !isAllowed c then .error .forbiddenChar
    else if startsWith mark (c :: cs) then .ok ([], c :: cs)
    else (readUntil mark cs).map fun r => (c :: r.1, r.2)

/-! ## Names and attributes -/

/-- The name of an element or attribute, and what follows it. -/
def readQName (cs : List Char) : Except Fault (QName × List Char) :=
  let isPart (c : Char) : Bool := isNameChar c && c != ':'
  let first := cs.takeWhile isPart
  let begins (name : List Char) : Bool := (name.head?.map isNameStart).getD false
  match cs.dropWhile isPart with
  | ':' :: more =>
    let second := more.takeWhile isPart
    match more.dropWhile isPart with
    | ':' :: _ => .error .malformed
    | rest =>
      if (first.isEmpty || begins first) && begins second then
        .ok (⟨String.ofList first, String.ofList second⟩, rest)
      else .error .malformed
  | rest => if begins first then .ok (⟨"", String.ofList first⟩, rest) else .error .malformed

/-- The text of an attribute value up to its closing quote or a `<`. -/
def readValue (quote : Char) : List Char → Except Fault (List Char × List Char)
  | [] => .ok ([], [])
  | c :: cs =>
    if !isAllowed c then .error .forbiddenChar
    else if c = quote ∨ c = '<' then .ok ([], c :: cs)
    else (readValue quote cs).map fun r => (c :: r.1, r.2)

/-- An attribute: its name and the text between its quotes. -/
def readAttribute (cs : List Char) : Except Fault ((QName × List Char) × List Char) := do
  let (name, rest) ← readQName cs
  match skipSpace rest with
  | '=' :: rest =>
    match skipSpace rest with
    | quote :: rest =>
      if quote = '"' ∨ quote = '\'' then
        let (value, rest) ← readValue quote rest
        match rest with
        | c :: rest => if c = quote then pure ((name, value), rest) else .error .malformed
        | [] => .error .malformed
      else .error .malformed
    | [] => .error .malformed
  | _ => .error .malformed

/-! ## The declaration of a document, comments and instructions -/

/-- Blanks, unless the declaration ends here. -/
def declarationSpace (cs : List Char) : Except Fault (List Char) :=
  match cs with
  | [] => .ok []
  | c :: _ =>
    if isSpace c then .ok (skipSpace cs)
    else if startsWith ['?', '>'] cs then .ok cs
    else .error .malformed

/-- What follows the declaration of a document, of which `<?xml` is read. -/
def readDeclaration (cs : List Char) : Except Fault (List Char) := do
  let cs ← declarationSpace cs
  if !startsWith "version".toList cs then .error .malformed
  else
    let cs ← declarationSpace (← readAttribute cs).2
    let cs ←
      if startsWith "encoding".toList cs then declarationSpace (← readAttribute cs).2 else pure cs
    let cs ← if startsWith "standalone".toList cs then pure (← readAttribute cs).2 else pure cs
    expect "?>" (skipSpace cs)

/-- A comment, of which `<!--` is read. -/
def readComment (cs : List Char) : Except Fault (Node × List Char) := do
  let (text, rest) ← readUntil ['-', '-', '>'] cs
  let rest ← expect "-->" rest
  if (cut? ['-', '-'] text).isSome || text.getLast? == some '-' then .error .invalidComment
  else pure (.comment (String.ofList text), rest)

/-- An instruction, with its `<?`. -/
def readInstruction (cs : List Char) : Except Fault (Node × List Char) :=
  if startsWith "<?xml ".toList cs then .error .unexpectedDeclaration
  else
    match readName (cs.drop 2) with
    | none => .error .malformed
    | some (target, rest) => do
      let (content, rest) ← readUntil ['?', '>'] (skipSpace rest)
      let rest ← expect "?>" rest
      pure (.instruction (String.ofList target) (String.ofList content), rest)

/-- What follows blanks, comments and instructions outside the outermost element. -/
def skipMisc : Nat → List Char → Except Fault (List Char)
  | 0, cs => .ok cs
  | fuel + 1, cs =>
    let cs := skipSpace cs
    match stripPrefix? "<!--".toList cs with
    | some rest => do
      let (_, rest) ← readComment rest
      skipMisc fuel rest
    | none =>
      if startsWith ['<', '?'] cs then do
        let (_, rest) ← readInstruction cs
        skipMisc fuel rest
      else .ok cs

/-! ## Tags -/

/-- How a start tag ends: before content, without content, or with the input. -/
inductive TagEnd
  | opened
  | empty
  | cut

/-- The attributes of a start tag and its end. -/
def readAttributes : Nat → StartTag → List Char → Except Fault (StartTag × TagEnd × List Char)
  | 0, tag, _ => .ok (tag, .cut, [])
  | fuel + 1, tag, cs =>
    match cs with
    | [] => .ok (tag, .cut, [])
    | c :: _ =>
      match skipSpace cs with
      | [] => .error .malformed
      | '/' :: '>' :: rest => .ok (tag, .empty, rest)
      | '/' :: _ => .error .malformed
      | '>' :: rest => .ok (tag, .opened, rest)
      | d :: rest =>
        if !isSpace c then .error .malformed
        else do
          let ((name, text), rest) ← readAttribute (d :: rest)
          let value ← valueOf text
          let tag ← tag.add name value
          readAttributes fuel tag rest

/-- A start tag, of which `<` is read; it has less than `fuel` attributes. -/
def readStartTag (fuel : Nat) (cs : List Char) : Except Fault (StartTag × TagEnd × List Char) := do
  let (name, rest) ← readQName cs
  if name.label = "xmlns" then .error .invalidElementLabel
  else readAttributes fuel { name } rest

/-- The name of a close tag, of which `</` is read. -/
def readCloseTag (cs : List Char) : Except Fault (QName × List Char) := do
  let (name, rest) ← readQName cs
  match skipSpace rest with
  | '>' :: rest => pure (name, rest)
  | _ => .error .malformed

/-! ## Content -/

/-- An open element and its content so far, last first. -/
structure Frame where
  tag : Tag
  children : List Node

def Frame.add (f : Frame) (n : Node) : Frame := { f with children := n :: f.children }

def Frame.close (f : Frame) : Node := .element f.tag f.children.reverse

/-- What reading the outermost element gives. -/
inductive Outcome
  | root (node : Node) (rest : List Char)
  | unclosed
  | absent

/-- Reads on inside `frame`, the innermost open element, around which those of `outer` are open. -/
def readContent : Nat → Frame → List Frame → List Char → Except Fault Outcome
  | 0, _, _, _ => .ok .unclosed
  | _, _, _, [] => .ok .unclosed
  | fuel + 1, frame, outer, '<' :: cs =>
    match cs with
    | [] => .error .malformed
    | '!' :: _ =>
      match stripPrefix? "!--".toList cs, stripPrefix? "![CDATA[".toList cs with
      | some rest, _ => do
        let (node, rest) ← readComment rest
        readContent fuel (frame.add node) outer rest
      | none, some rest => do
        let (text, rest) ← readUntil [']', ']', '>'] rest
        let rest ← expect "]]>" rest
        readContent fuel (frame.add (.text (String.ofList (literalOf text)))) outer rest
      | none, none => .error .malformed
    | '?' :: _ => do
      let (node, rest) ← readInstruction ('<' :: cs)
      readContent fuel (frame.add node) outer rest
    | '/' :: cs => do
      let (name, rest) ← readCloseTag cs
      if name ≠ frame.tag.name then .error .unexpectedCloseTag
      else
        match outer with
        | [] => pure (.root frame.close rest)
        | next :: outer => readContent fuel (next.add frame.close) outer rest
    | _ => do
      let (start, tagEnd, rest) ← readStartTag fuel cs
      match tagEnd with
      | .cut => pure .unclosed
      | .empty =>
        let tag ← start.resolve frame.tag.scope
        readContent fuel (frame.add (.element tag [])) outer rest
      | .opened =>
        let tag ← start.resolve frame.tag.scope
        readContent fuel ⟨tag, []⟩ (frame :: outer) rest
  | fuel + 1, frame, outer, cs => do
    let (text, rest) ← readUntil ['<'] cs
    if (cut? [']', ']', '>'] text).isSome then .error .malformed
    else
      let s ← textOf text
      readContent fuel (frame.add (.text s)) outer rest

/-- Reads the outermost element, of which `<` is read. -/
def readRoot (cs : List Char) : Except Fault Outcome := do
  let (start, tagEnd, rest) ← readStartTag cs.length cs
  match tagEnd with
  | .cut => pure .absent
  | .empty =>
    let tag ← start.resolve []
    pure (.root (.element tag []) rest)
  | .opened =>
    let tag ← start.resolve []
    readContent (rest.length + 1) ⟨tag, []⟩ [] rest

/-- The outermost element of a document. -/
def parse (text : String) : Except Fault Node := do
  let cs := text.toList
  let fuel := cs.length + 1
  let cs :=
    match cs with
    | c :: rest => if c.toNat = 0xFEFF then rest else cs
    | [] => []
  let cs ←
    if startsWith "<?xml ".toList cs then readDeclaration (cs.drop 5) else pure cs
  let cs ← skipMisc fuel cs
  if startsWith "<!DOCTYPE".toList cs then .error .documentType
  else
    match cs with
    | '<' :: cs =>
      match ← readRoot cs with
      | .absent => .error .noRoot
      | .unclosed => .error .unclosedRoot
      | .root node rest =>
        let rest ← skipMisc fuel rest
        if rest.isEmpty then pure node else .error .malformed
    | [] => .error .noRoot
    | _ => .error .malformed

end EdmxGen.Xml
