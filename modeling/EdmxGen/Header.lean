import EdmxGen.Failure
import EdmxGen.Json.Printer
import EdmxGen.Moment
import EdmxGen.Settings.Json

/-!
# The header of a generated file

A generated file begins with a comment that holds its settings between two markers. No value can end
the comment, since the slash after an asterisk is escaped. Reading looks at the first block only:
from the first opening marker to the first closing marker after it.
-/

namespace EdmxGen.Header

open Text

/-- The marker before the settings. -/
def opening : List Char := "#ODATATOOLSOPTIONS".toList

/-- The marker after the settings. -/
def closing : List Char := "#ODATATOOLSOPTIONSEND".toList

/-- A line of the comment's border. -/
def rule : List Char := List.replicate 74 '*'

/-- What stands between the border and the time of creation. -/
def banner : List Char :=
  ("\nCreated by odatatools 0.1.0: https://github.com/norpie/odatatools\n" ++
    "Run 'odatatools update <file>' to refresh the generated code of this file.\n" ++
    "Creation Time: ").toList

/-- What stands between the time of creation and the settings. -/
def warning : List Char := "\nDO NOT DELETE THIS IN ORDER TO UPDATE YOUR SERVICE\n".toList

/-- The text with every slash after an asterisk escaped. -/
def shield : List Char → List Char
  | '*' :: '/' :: cs => '*' :: '\\' :: '/' :: shield cs
  | c :: cs => c :: shield cs
  | [] => []

/-- The written settings, as they stand between the markers. -/
def block (settings : Json) : List Char := '\n' :: shield (settings.pretty "\t") ++ ['\n']

/-- The header for written settings, created at a moment. -/
def encode (settings : Json) (created : Moment) : List Char :=
  '/' :: rule ++ banner ++ created.write ++ warning ++ opening ++ block settings ++ closing ++
    '\n' :: rule ++ ['/', '\n', '\n']

/-- The text between the markers of the first block. -/
def block? (text : List Char) : Option (List Char) := do
  let (_, rest) ← cut? opening text
  let (inner, _) ← cut? closing rest
  pure inner

/-- The settings in the first block of a text. -/
def decode (text : List Char) : Except Failure FileSettings :=
  match block? text with
  | none => .error .noHeader
  | some inner => (Json.readWith FileSettings.read inner).mapError .headerDecode

end EdmxGen.Header
