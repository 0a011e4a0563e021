import EdmxGen.Text.Basic
import EdmxGen.Json.Value

/-!
# Printing JSON

The indented form puts every item and member on a line of its own, the compact form none.
-/

namespace EdmxGen.Json

open Text

/-- A character inside a string. -/
def escape (c : Char) : List Char :=
  match c with
  | '"' => ['\\', '"']
  | '\\' => ['\\', '\\']
  | '\x08' => ['\\', 'b']
  | '\x0c' => ['\\', 'f']
  | '\n' => ['\\', 'n']
  | '\r' => ['\\', 'r']
  | '\t' => ['\\', 't']
  | c =>
    if c.toNat < 0x20 then "\\u00".toList ++ (if c.toNat < 16 then ['0'] else []) ++ hex c.toNat
    else [c]

def writeText (s : String) : List Char := '"' :: s.toList.flatMap escape ++ ['"']

/-- A new line, indented `depth` times. -/
def newLine (indent : List Char) (depth : Nat) : List Char :=
  '\n' :: (List.replicate depth indent).flatten

mutual

/-- A value whose lines after the first are indented `depth` times or deeper. -/
def prettyAt (indent : List Char) (depth : Nat) : Json → List Char
  | .null => "null".toList
  | .bool true => "true".toList
  | .bool false => "false".toList
  | .num n => n.write
  | .str s => writeText s
  | .arr [] => ['[', ']']
  | .arr (v :: vs) =>
    '[' :: newLine indent (depth + 1) ++ prettyAt indent (depth + 1) v ++
      prettyItems indent depth vs
  | .obj [] => ['\x7b', '\x7d']
  | .obj ((key, v) :: ms) =>
    '\x7b' :: newLine indent (depth + 1) ++ writeText key ++ [':', ' '] ++
      prettyAt indent (depth + 1) v ++ prettyMembers indent depth ms

/-- The items after the first, and the end of their array. -/
def prettyItems (indent : List Char) (depth : Nat) : List Json → List Char
  | [] => newLine indent depth ++ [']']
  | v :: vs =>
    ',' :: newLine indent (depth + 1) ++ prettyAt indent (depth + 1) v ++
      prettyItems indent depth vs

/-- The members after the first, and the end of their object. -/
def prettyMembers (indent : List Char) (depth : Nat) : List (String × Json) → List Char
  | [] => newLine indent depth ++ ['\x7d']
  | (key, v) :: ms =>
    ',' :: newLine indent (depth + 1) ++ writeText key ++ [':', ' '] ++
      prettyAt indent (depth + 1) v ++ prettyMembers indent depth ms

end

def pretty (indent : String) (v : Json) : List Char := prettyAt indent.toList 0 v

mutual

def compact : Json → List Char
  | .null => "null".toList
  | .bool true => "true".toList
  | .bool false => "false".toList
  | .num n => n.write
  | .str s => writeText s
  | .arr [] => ['[', ']']
  | .arr (v :: vs) => '[' :: compact v ++ compactItems vs
  | .obj [] => ['\x7b', '\x7d']
  | .obj ((key, v) :: ms) => '\x7b' :: writeText key ++ ':' :: compact v ++ compactMembers ms

/-- The items after the first, and the end of their array. -/
def compactItems : List Json → List Char
  | [] => [']']
  | v :: vs => ',' :: compact v ++ compactItems vs

/-- The members after the first, and the end of their object. -/
def compactMembers : List (String × Json) → List Char
  | [] => ['\x7d']
  | (key, v) :: ms => ',' :: writeText key ++ ':' :: compact v ++ compactMembers ms

end

end EdmxGen.Json
