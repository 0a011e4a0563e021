import EdmxGen.Text.Basic
import EdmxGen.Xml.Parser

/-!
# Element trees

What the projection looks at: elements with their names, attributes, child elements and text. Names
are shown with a label that stands for their namespace, the first such in scope.
-/

namespace EdmxGen.Xml

structure Element where
  name : String
  attributes : List (String × String) := []
  children : List Element := []
  text : Option String := none

namespace Element

instance : Inhabited Element := ⟨⟨"", [], [], none⟩⟩

def withAttribute (e : Element) (name value : String) : Element :=
  { e with attributes := e.attributes ++ [(name, value)] }

def withChild (e child : Element) : Element := { e with children := e.children ++ [child] }

def attribute? (e : Element) (name : String) : Option String :=
  (e.attributes.find? fun a => a.1 == name).map Prod.snd

def childrenNamed (e : Element) (name : String) : List Element :=
  e.children.filter fun c => c.name == name

def child? (e : Element) (name : String) : Option Element :=
  e.children.find? fun c => c.name == name

def hasChild (e : Element) (name : String) : Bool := (e.child? name).isSome

mutual

/-- Two elements are alike in name, attributes, children and text. -/
def alike : Element → Element → Bool
  | ⟨n, as, cs, t⟩, ⟨n', as', cs', t'⟩ => n == n' && as == as' && allAlike cs cs' && t == t'

/-- Two lists of elements are alike one by one. -/
def allAlike : List Element → List Element → Bool
  | [], [] => true
  | c :: cs, c' :: cs' => alike c c' && allAlike cs cs'
  | _, _ => false

end

end Element

/-! ## The tree of a document -/

/-- The first label in scope that stands for a namespace; `xml` always stands for its own. -/
def labelOf? (scope : List Declaration) (uri : String) : Option String :=
  if uri = xmlUri then some "xml"
  else (scope.find? fun d => d.uri == uri).bind Declaration.label

/-- The local name with the label that stands for its namespace. -/
def qualify (scope : List Declaration) (uri : Option String) (localName : String) : String :=
  match uri.bind (labelOf? scope) with
  | some label => (QName.mk label localName).written
  | none => localName

def directText (children : List Node) : String :=
  String.join (children.filterMap fun
    | .text s => some s
    | _ => none)

/-- The text, trimmed; none if nothing is left. -/
def shownText (s : String) : Option String :=
  let t := Text.trimmed s
  if t.isEmpty then none else some t

def Node.isElement : Node → Bool
  | .element _ _ => true
  | _ => false

mutual

def Element.ofNode : Node → Element
  | .element tag children =>
    { name := qualify tag.scope tag.uri tag.name.localName
      attributes := tag.attributes.map fun a => (qualify tag.scope a.uri a.name.localName, a.value)
      children := Element.ofNodes children
      text := shownText (directText children) }
  | _ => default

def Element.ofNodes : List Node → List Element
  | [] => []
  | n :: ns => if n.isElement then Element.ofNode n :: Element.ofNodes ns else Element.ofNodes ns

end

/-- The tree of the document in a text. -/
def Element.parse (text : String) : Except Fault Element := (Xml.parse text).map Element.ofNode

end EdmxGen.Xml
