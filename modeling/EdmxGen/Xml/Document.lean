import EdmxGen.Xml.Content

/-!
# Parsed documents

An element keeps its name as it was written, the namespace that its label stands for, and all
declarations in scope: its own in document order, then those of its parent that it does not
redeclare.
-/

namespace EdmxGen.Xml

/-- A name with its label; an empty label is none. -/
structure QName where
  label : String
  localName : String
  deriving DecidableEq, Repr

def QName.written (q : QName) : String :=
  if q.label.isEmpty then q.localName else q.label ++ ":" ++ q.localName

/-- The declaration that a label, or by default no label, stands for a namespace. -/
structure Declaration where
  label : Option String
  uri : String
  deriving DecidableEq, Repr

/-- An attribute with the namespace of its label. -/
structure Attribute where
  name : QName
  uri : Option String
  value : String
  deriving DecidableEq, Repr

/-- An element without its content. -/
structure Tag where
  name : QName
  uri : Option String
  scope : List Declaration
  attributes : List Attribute
  deriving DecidableEq, Repr

inductive Node
  | element (tag : Tag) (children : List Node)
  | text (s : String)
  | comment (s : String)
  | instruction (target content : String)

/-- The namespace that the label `xml` always stands for. -/
def xmlUri : String := "http://www.w3.org/XML/1998/namespace"

/-- The namespace of declarations. -/
def xmlnsUri : String := "http://www.w3.org/2000/xmlns/"

/-- The declarations in scope of an element: its own, then those inherited whose label is not in the
list yet. -/
def inScope (own inherited : List Declaration) : List Declaration :=
  if own.isEmpty then inherited
  else
    inherited.foldl
      (fun scope d => if scope.any fun e => e.label == d.label then scope else scope ++ [d]) own

/-- The declaration of a label in scope. -/
def declared? (scope : List Declaration) (label : Option String) : Option Declaration :=
  scope.find? fun d => d.label == label

def elementUri (scope : List Declaration) (name : QName) : Except Fault (Option String) :=
  if name.label.isEmpty then .ok ((declared? scope none).map Declaration.uri)
  else
    match declared? scope (some name.label) with
    | some d => .ok (some d.uri)
    | none => .error .unknownNamespace

/-- The namespace of an attribute's label; an attribute without one has no namespace. -/
def attributeUri (scope : List Declaration) (name : QName) : Except Fault (Option String) :=
  if name.label = "xml" then .ok (some xmlUri)
  else if name.label.isEmpty then .ok none
  else elementUri scope name

/-- Resolves attributes in order, after those in `seen`. -/
def resolveAttributes (scope : List Declaration) (seen : List Attribute) :
    List (QName × String) → Except Fault (List Attribute)
  | [] => .ok []
  | (name, value) :: rest => do
    let uri ← attributeUri scope name
    if seen.any fun a => a.uri == uri && a.name.localName == name.localName then
      .error .duplicatedAttribute
    else
      let a : Attribute := ⟨name, uri, value⟩
      let others ← resolveAttributes scope (a :: seen) rest
      pure (a :: others)

/-- A start tag as written: its name, declarations and attributes. -/
structure StartTag where
  name : QName
  declarations : List Declaration := []
  attributes : List (QName × String) := []

/-- The element that a start tag begins where these declarations are in scope. -/
def StartTag.resolve (tag : StartTag) (inherited : List Declaration) : Except Fault Tag := do
  let scope := inScope tag.declarations inherited
  let attributes ← resolveAttributes scope [] tag.attributes
  let uri ← elementUri scope tag.name
  pure ⟨tag.name, uri, scope, attributes⟩

/-- A start tag with one more attribute, which may be a declaration. -/
def StartTag.add (tag : StartTag) (name : QName) (value : String) : Except Fault StartTag :=
  if name.label = "xmlns" then
    if value = xmlnsUri then .error .unexpectedXmlnsUri
    else if name.localName = "xml" ∧ value ≠ xmlUri then .error .invalidXmlLabel
    else if name.localName ≠ "xml" ∧ value = xmlUri then .error .unexpectedXmlUri
    else if tag.declarations.any fun d => d.label == some name.localName then
      .error .duplicatedNamespace
    else if value = xmlUri then .ok tag
    else
      .ok { tag with declarations := tag.declarations ++ [⟨some name.localName, value⟩] }
  else if name.localName = "xmlns" then
    if value = xmlUri then .error .unexpectedXmlUri
    else if value = xmlnsUri then .error .unexpectedXmlnsUri
    else .ok { tag with declarations := tag.declarations ++ [⟨none, value⟩] }
  else .ok { tag with attributes := tag.attributes ++ [(name, value)] }

end EdmxGen.Xml
