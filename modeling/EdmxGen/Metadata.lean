import EdmxGen.Failure
import EdmxGen.Text.Utf8
import EdmxGen.Xml.Element

/-!
# Metadata documents

A metadata document is XML whose outermost element shows the name `edmx:Edmx`. A document with
another one is reported as it came.
-/

namespace EdmxGen

open Xml

namespace Metadata

/-- The name of the outermost element. -/
def rootName : String := "edmx:Edmx"

/-- The outermost element of a metadata document. -/
def parse (text : String) : Except Failure Element :=
  match Element.parse text with
  | .error fault => .error (.malformedXml fault)
  | .ok root => if root.name = rootName then .ok root else .error (.invalidMetadata root.name)

/-- The texts that reading a document reports as unusable. -/
def reported (text : String) : List String :=
  match parse text with
  | .error (.invalidMetadata _) => [text]
  | _ => []

end Metadata

end EdmxGen
