import EdmxGen.Toml.Draft
import EdmxGen.Toml.Scalar
import EdmxGen.Toml.Text

/-!
# Reading TOML documents

A document is a sequence of lines: headers, pairs of a key and a value, and comments. Arrays and
tables within braces may lie in one another up to a depth of 80; between their parts there may be
comments and line breaks.
-/

namespace EdmxGen.Toml

open Text

/-! ## Between the parts -/

def dropBlanks (cs : List Char) : List Char := cs.dropWhile isBlankChar

/-- What follows blanks, line breaks and comments. -/
def dropGap (inComment : Bool) : List Char → Option (List Char)
  | [] => some []
  | '\r' :: '\n' :: cs => dropGap false cs
  | c :: cs =>
    if c = '\n' then dropGap false cs
    else if inComment then if isTextChar c then dropGap true cs else none
    else if isBlankChar c then dropGap false cs
    else if c = '#' then dropGap true cs
    else some (c :: cs)

/-- What is left of a line whose statement has ended; only blanks and a comment may follow. -/
def lineEnd (cs : List Char) : Option (List Char) :=
  match dropBlanks cs with
  | [] => some []
  | c :: rest =>
    if c = '\n' ∨ c = '#' ∨ (c = '\r' ∧ rest.head? = some '\n') then some (c :: rest) else none

/-! ## Keys -/

/-- The character may stand in a key without marks. -/
def isKeyChar (c : Char) : Bool := isDigit c || isLetter c || c == '-' || c == '_'

def readKey : List Char → Found
  | '"' :: cs => readBasic none cs
  | '\'' :: cs => readLiteral cs
  | cs =>
    if (cs.takeWhile isKeyChar).isEmpty then none
    else some (cs.takeWhile isKeyChar, cs.dropWhile isKeyChar)

/-- Keys with dots between them, and what follows them and the blanks behind. -/
def readKeys : Nat → List Char → Option (List String × List Char)
  | 0, cs => (readKey cs).map fun r => ([String.ofList r.1], dropBlanks r.2)
  | fuel + 1, cs => do
    let (key, rest) ← readKey cs
    match dropBlanks rest with
    | '.' :: more =>
      (readKeys fuel (dropBlanks more)).map fun r => (String.ofList key :: r.1, r.2)
    | rest => some ([String.ofList key], rest)

def addUnder (keys : List String) (v : Toml) (entries : Draft.Entries) : Option Draft.Entries :=
  match keys.getLast? with
  | none => none
  | some key => Draft.add key v keys.dropLast entries

/-! ## Values -/

/-- A reader of values within arrays and tables. -/
abbrev ValueReader := List Char → Option (Toml × List Char)

/-- The values of an array after its bracket. -/
def readItems (read : ValueReader) : Nat → List Char → Option (List Toml × List Char)
  | 0, _ => none
  | fuel + 1, cs => do
    match ← dropGap false cs with
    | ']' :: rest => some ([], rest)
    | cs =>
      let (v, rest) ← read cs
      match ← dropGap false rest with
      | ']' :: rest => some ([v], rest)
      | ',' :: rest => (readItems read fuel rest).map fun r => (v :: r.1, r.2)
      | _ => none

/-- The entries of a table after its brace, added to those read so far. -/
def readPairs (read : ValueReader) :
    Nat → Draft.Entries → List Char → Option (Draft.Entries × List Char)
  | 0, _, _ => none
  | fuel + 1, entries, cs => do
    match ← dropGap false cs with
    | '}' :: rest => some (entries, rest)
    | cs =>
      let (keys, rest) ← readKeys cs.length cs
      match ← dropGap false rest with
      | '=' :: rest =>
        let (v, rest) ← read (← dropGap false rest)
        let entries ← addUnder keys v entries
        match ← dropGap false rest with
        | '}' :: rest => some (entries, rest)
        | ',' :: rest => readPairs read fuel entries rest
        | _ => none
      | _ => none

/-- A value with at most this many arrays and tables in one another. -/
def readValue : Nat → ValueReader
  | depth, cs =>
    match cs, depth with
    | '[' :: rest, depth + 1 =>
      (readItems (readValue depth) cs.length rest).map fun r => (.array r.1, r.2)
    | '{' :: rest, depth + 1 =>
      (readPairs (readValue depth) cs.length [] rest).map fun r =>
        (.table (Draft.finishEntries r.1), r.2)
    | '"' :: _, _ => (readText cs).map fun r => (.text (String.ofList r.1), r.2)
    | '\'' :: _, _ => (readText cs).map fun r => (.text (String.ofList r.1), r.2)
    | _, _ => readScalar cs

/-- How many arrays and tables may lie in one another. -/
def maxDepth : Nat := 80

/-! ## Documents -/

/-- The tables of a document so far, and the keys of the header whose table is being filled. -/
structure Progress where
  entries : Draft.Entries := []
  header : List String := []

/-- A header after its first bracket. -/
def readHeader (p : Progress) (cs : List Char) : Option (Progress × List Char) :=
  match cs with
  | '[' :: cs => do
    let (keys, rest) ← readKeys cs.length (dropBlanks cs)
    match rest, keys.getLast? with
    | ']' :: ']' :: rest, some key =>
      let entries ← Draft.modifyAt (Draft.begin key) keys.dropLast p.entries
      some (⟨entries, keys⟩, rest)
    | _, _ => none
  | cs => do
    let (keys, rest) ← readKeys cs.length (dropBlanks cs)
    match rest, keys.getLast? with
    | ']' :: rest, some key =>
      let entries ← Draft.modifyAt (Draft.head key) keys.dropLast p.entries
      some (⟨entries, keys⟩, rest)
    | _, _ => none

def readPair (p : Progress) (cs : List Char) : Option (Progress × List Char) := do
  let (keys, rest) ← readKeys cs.length cs
  match rest with
  | '=' :: rest =>
    let (v, rest) ← readValue maxDepth (dropBlanks rest)
    let entries ← Draft.modifyAt (addUnder keys v) p.header p.entries
    some ({ p with entries }, rest)
  | _ => none

def readStatements : Nat → Progress → List Char → Option Progress
  | 0, _, _ => none
  | fuel + 1, p, cs => do
    match ← dropGap false cs with
    | [] => some p
    | '[' :: cs =>
      let (p, rest) ← readHeader p cs
      readStatements fuel p (← lineEnd rest)
    | cs =>
      let (p, rest) ← readPair p cs
      readStatements fuel p (← lineEnd rest)

/-- The text without a byte order mark. -/
def dropMark : List Char → List Char
  | '\uFEFF' :: cs => cs
  | cs => cs

/-- The entries of a document, if it is well formed. -/
def ofText? (text : List Char) : Option Entries :=
  let cs := dropMark text
  (readStatements (cs.length + 1) {} cs).map fun p => Draft.finishEntries p.entries

end EdmxGen.Toml
