import EdmxGen.Toml.Text
import EdmxGen.Text.Basic

/-!
# Writing TOML texts

A text is written in the first notation that holds it as it is: between quotation marks, between
apostrophes, or on several lines with either. A text that none of them holds is escaped.
-/

namespace EdmxGen.Toml

open Text

/-- The length of the longest run of a character; `run` of them precede the text. -/
def longestRun (c : Char) (run : Nat) : List Char → Nat
  | [] => run
  | d :: ds => if d = c then longestRun c (run + 1) ds else max run (longestRun c 0 ds)

/-- The character needs no thought in any notation. -/
def isPlainChar (c : Char) : Bool :=
  isDigit c || isLetter c || c == '_' || c == '-' || c == '.' || c == '/' || c == ' ' || c == ':'

/-- The character is a control character that no notation holds as it is. -/
def isControlChar (c : Char) : Bool :=
  (c.toNat < 0x20 && c != '\t' && c != '\n') || c.toNat == 0x7F

/-- The escaped form of a character between quotation marks. -/
def escapeChar (c : Char) : List Char :=
  if c = '\x08' then ['\\', 'b']
  else if c = '\t' then ['\\', 't']
  else if c = '\n' then ['\\', 'n']
  else if c = '\x0c' then ['\\', 'f']
  else if c = '\r' then ['\\', 'r']
  else if c = '"' then ['\\', '"']
  else if c = '\\' then ['\\', '\\']
  else if isControlChar c then '\\' :: 'u' :: hexPaddedUpper 4 c.toNat
  else [c]

/-- The escaped form of a text on several lines, in which line breaks stay and of the quotation
marks every third of a run is escaped; `run` of them stand in front as they are. -/
def escapeLines (run : Nat) : List Char → List Char
  | [] => []
  | c :: cs =>
    if c = '"' then
      if run < 2 then '"' :: escapeLines (run + 1) cs else '\\' :: '"' :: escapeLines 0 cs
    else if c = '\n' then '\n' :: escapeLines 0 cs
    else escapeChar c ++ escapeLines 0 cs

/-- The forms of a written text. -/
inductive Form
  | basic
  | literal
  | basicLines
  | literalLines
  deriving DecidableEq, Repr

def chooseForm (cs : List Char) : Form :=
  let control := cs.any isControlChar
  let backslash := cs.contains '\\'
  let lines := cs.contains '\n'
  let quotes := longestRun '"' 0 cs
  let apostrophes := longestRun '\'' 0 cs
  if !control && !backslash && quotes == 0 && !lines then .basic
  else if !control && apostrophes == 0 && !lines then .literal
  else if !control && !backslash && quotes ≤ 2 then .basicLines
  else if !control && apostrophes ≤ 2 then .literalLines
  else if lines then .basicLines
  else .basic

/-- A text in its notation; one on several lines begins on a line of its own. -/
def writeText (s : String) : List Char :=
  let cs := s.toList
  let start := if cs.contains '\n' then ['\n'] else []
  if cs.all isPlainChar then '"' :: cs ++ ['"']
  else
    match chooseForm cs with
    | .basic => '"' :: cs.flatMap escapeChar ++ ['"']
    | .literal => '\'' :: cs ++ ['\'']
    | .basicLines => ['"', '"', '"'] ++ start ++ escapeLines 0 cs ++ ['"', '"', '"']
    | .literalLines => ['\'', '\'', '\''] ++ start ++ cs ++ ['\'', '\'', '\'']

/-- One item of an array on several lines. -/
def writeItem (s : String) : List Char := ' ' :: ' ' :: ' ' :: ' ' :: writeText s ++ [',', '\n']

/-- An array of texts; two or more stand on a line each. -/
def writeTexts : List String → List Char
  | [] => ['[', ']']
  | [s] => '[' :: writeText s ++ [']']
  | ss => '[' :: '\n' :: ss.flatMap writeItem ++ [']']

end EdmxGen.Toml
