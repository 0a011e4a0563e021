import EdmxGen.Xml.Element
import Mathlib.Data.List.Infix

/-!
# Texts of documents

`SpellsDocument doc cs` says that `cs` is a text of the document with the nodes `doc`: its outermost
element with remarks around it, that is, with comments and instructions. Inside an element stand its
nodes one after the other (`SpellsAll`). A text between two tags may be spelled in several pieces,
and each piece is a run of characters and references or a literal section. A start tag declares
labels and gives attributes, and which element it begins depends on the declarations in scope
(`Resolves`).
-/

namespace EdmxGen.Xml

open Text

/-! ## Names and attributes -/

/-- Blanks between the parts of markup. -/
def Gap (cs : List Char) : Prop := ∀ c ∈ cs, isSpace c = true

/-- A name, perhaps with colons. -/
structure IsName (cs : List Char) : Prop where
  first : ∃ c ∈ cs.head?, isNameStart c = true
  chars : ∀ c ∈ cs, isNameChar c = true

/-- A name without a colon. -/
structure IsPart (cs : List Char) : Prop extends IsName cs where
  colon : ':' ∉ cs

/-- The texts of a name with its label. A name without one may have a colon in front. -/
inductive SpellsName : QName → List Char → Prop
  | plain {l : List Char} : IsPart l → SpellsName ⟨"", String.ofList l⟩ l
  | bare {l : List Char} : IsPart l → SpellsName ⟨"", String.ofList l⟩ (':' :: l)
  | labelled {k l : List Char} : IsPart k → IsPart l →
      SpellsName ⟨String.ofList k, String.ofList l⟩ (k ++ ':' :: l)

/-- The texts of an attribute, with what stands between its quotes. -/
inductive SpellsAttribute : QName → List Char → List Char → Prop
  | mk {name : QName} {w g g' text : List Char} {quote : Char} : SpellsName name w → Gap g →
      Gap g' → quote = '"' ∨ quote = '\'' →
      (∀ c ∈ text, isAllowed c = true ∧ c ≠ quote ∧ c ≠ '<') →
      SpellsAttribute name text (w ++ (g ++ '=' :: (g' ++ quote :: (text ++ [quote]))))

/-- The texts of the attributes of a start tag up to its end, declarations included, with the values
that they stand for. -/
inductive SpellsGiven : List (QName × String) → List Char → Prop
  | nil {g : List Char} : Gap g → SpellsGiven [] g
  | cons {name : QName} {value : String} {given : List (QName × String)}
      {g text w ws : List Char} : Gap g → g ≠ [] → SpellsAttribute name text w →
      valueOf text = .ok value → SpellsGiven given ws →
      SpellsGiven ((name, value) :: given) (g ++ (w ++ ws))

/-! ## Start tags -/

/-- An attribute of this name is a declaration. -/
def declares (name : QName) : Bool := name.label == "xmlns" || name.localName == "xmlns"

/-- What an attribute declares. The label `xml` stands for its namespace anyway. -/
def declaration? (given : QName × String) : Option Declaration :=
  if given.1.label = "xmlns" then
    if given.2 = xmlUri then none else some ⟨some given.1.localName, given.2⟩
  else if given.1.localName = "xmlns" then some ⟨none, given.2⟩
  else none

/-- A declaration may be made: the namespace of declarations is not declared, and that of `xml` has
only its own label. -/
def Legal (g : QName × String) : Prop :=
  declares g.1 = true → g.2 ≠ xmlnsUri ∧ (g.2 = xmlUri ↔ g.1 = ⟨"xmlns", "xml"⟩)

/-- A label is not declared again. -/
def Apart (d e : Declaration) : Prop := e.label ≠ none → d.label ≠ e.label

/-- An attribute is another one than those before it. -/
def Distinct (a b : Attribute) : Prop := a.uri = b.uri → a.name.localName ≠ b.name.localName

/-- A start tag with these attributes begins this element where these declarations are inherited:
all that is no declaration is an attribute of the element, in its order. -/
structure Resolves (inherited : List Declaration) (given : List (QName × String)) (tag : Tag) :
    Prop where
  label : tag.name.label ≠ "xmlns"
  legal : ∀ g ∈ given, Legal g
  once : (given.filterMap declaration?).Pairwise Apart
  scope : tag.scope = inScope (given.filterMap declaration?) inherited
  uri : elementUri tag.scope tag.name = .ok tag.uri
  attributes : tag.attributes.map (fun a => (a.name, a.value)) =
    given.filter fun g => !declares g.1
  uris : ∀ a ∈ tag.attributes, attributeUri tag.scope a.name = .ok a.uri
  distinct : tag.attributes.Pairwise Distinct

/-- The texts of a start tag between its brackets, where these declarations are inherited. -/
inductive SpellsTag : List Declaration → Tag → List Char → Prop
  | mk {inherited : List Declaration} {given : List (QName × String)} {tag : Tag}
      {name ws : List Char} : SpellsName tag.name name → SpellsGiven given ws →
      Resolves inherited given tag → SpellsTag inherited tag (name ++ ws)

/-! ## Nodes -/

/-- The texts of comments and instructions. An instruction `xml` with a space behind its name would
be the declaration of a document. -/
inductive SpellsRemark : Node → List Char → Prop
  | comment {s : List Char} : (∀ c ∈ s, isAllowed c = true) → ¬ ['-', '-'] <:+: s →
      s.getLast? ≠ some '-' →
      SpellsRemark (.comment (String.ofList s)) (['<', '!', '-', '-'] ++ (s ++ ['-', '-', '>']))
  | instruction {target g s : List Char} : IsName target → Gap g →
      (∀ c ∈ s, isAllowed c = true) → (∀ c ∈ s.head?, isSpace c = false) →
      (∀ c ∈ (g ++ s).head?, isNameChar c = false) → ¬ ['?', '>'] <:+: s →
      (target = ['x', 'm', 'l'] → g.head? ≠ some ' ') →
      SpellsRemark (.instruction (String.ofList target) (String.ofList s))
        (['<', '?'] ++ (target ++ (g ++ (s ++ ['?', '>']))))

mutual

/-- The texts of a node where these declarations are in scope. -/
inductive Spells : List Declaration → Node → List Char → Prop
  | remark {scope : List Declaration} {n : Node} {w : List Char} : SpellsRemark n w →
      Spells scope n w
  | run {scope : List Declaration} {s : String} {w : List Char} : w ≠ [] →
      (∀ c ∈ w, isAllowed c = true ∧ c ≠ '<') → ¬ [']', ']', '>'] <:+: w → textOf w = .ok s →
      Spells scope (.text s) w
  | literal {scope : List Declaration} {w : List Char} : (∀ c ∈ w, isAllowed c = true) →
      ¬ [']', ']', '>'] <:+: w →
      Spells scope (.text (String.ofList (literalOf w)))
        (['<', '!', '[', 'C', 'D', 'A', 'T', 'A', '['] ++ (w ++ [']', ']', '>']))
  | empty {scope : List Declaration} {tag : Tag} {w : List Char} : SpellsTag scope tag w →
      Spells scope (.element tag []) ('<' :: (w ++ ['/', '>']))
  | element {scope : List Declaration} {tag : Tag} {children : List Node}
      {w inside closing g : List Char} : SpellsTag scope tag w →
      SpellsAll tag.scope children inside → SpellsName tag.name closing → Gap g →
      Spells scope (.element tag children)
        ('<' :: (w ++ '>' :: (inside ++ '<' :: '/' :: (closing ++ (g ++ ['>'])))))

/-- The texts of nodes one after the other. What follows a run begins with markup. -/
inductive SpellsAll : List Declaration → List Node → List Char → Prop
  | nil {scope : List Declaration} : SpellsAll scope [] []
  | cons {scope : List Declaration} {n : Node} {ns : List Node} {w ws : List Char} :
      Spells scope n w → SpellsAll scope ns ws →
      w.head? = some '<' ∨ (∀ c ∈ ws.head?, c = '<') →
      SpellsAll scope (n :: ns) (w ++ ws)

end

/-! ## Documents -/

/-- The texts of remarks outside the outermost element. -/
inductive SpellsRemarks : List Node → List Char → Prop
  | nil {g : List Char} : Gap g → SpellsRemarks [] g
  | cons {n : Node} {ns : List Node} {g w ws : List Char} : Gap g → SpellsRemark n w →
      SpellsRemarks ns ws → SpellsRemarks (n :: ns) (g ++ (w ++ ws))

/-- The texts of an attribute in the declaration of a document, with blanks in front. Its name
begins with a given word. -/
structure SpellsProperty (word cs : List Char) : Prop where
  exists_attribute : ∃ name text g w, Gap g ∧ g ≠ [] ∧ SpellsAttribute name text w ∧ word <+: w ∧
    cs = g ++ w

/-- The texts of the declaration of a document. -/
inductive SpellsDeclaration : List Char → Prop
  | mk {version encoding standalone g : List Char} : SpellsProperty "version".toList version →
      version.head? = some ' ' → encoding = [] ∨ SpellsProperty "encoding".toList encoding →
      standalone = [] ∨ SpellsProperty "standalone".toList standalone → Gap g →
      SpellsDeclaration
        (['<', '?', 'x', 'm', 'l'] ++
          (version ++ (encoding ++ (standalone ++ (g ++ ['?', '>'])))))

/-- The texts of a document with these nodes. -/
inductive SpellsDocument : List Node → List Char → Prop
  | mk {before after : List Node} {root : Node} {mark opening lead body trail : List Char} :
      mark = [] ∨ mark = [Char.ofNat 0xFEFF] → opening = [] ∨ SpellsDeclaration opening →
      SpellsRemarks before lead → root.isElement = true → Spells [] root body →
      SpellsRemarks after trail →
      SpellsDocument (before ++ root :: after) (mark ++ (opening ++ (lead ++ (body ++ trail))))

end EdmxGen.Xml
