import Mathlib.Data.List.Forall2
import EdmxGen.Proofs.Run
import EdmxGen.Xml.Element

/-!
# Names as they are written and as they are shown

An element of a tree shows the label that is declared first, among the declarations in scope, for
the namespace that its written label stands for. So a name is shown as it is written exactly if no
other label is declared before its own for the same namespace (`qualify_eq_written`).
-/

namespace EdmxGen.Xml

open Text

/-! ## The label that is shown -/

/-- The label of a name as declarations have it: an empty one is none. -/
def QName.label? (q : QName) : Option String := if q.label.isEmpty then none else some q.label

/-- A local name behind its label. -/
def spell (label : Option String) (localName : String) : String :=
  match label with
  | some label => label ++ ":" ++ localName
  | none => localName

theorem QName.written_eq (q : QName) : q.written = spell q.label? q.localName := by
  unfold written label?
  split
  · rfl
  · rfl

theorem spell_inj {label label' : Option String} {localName : String} :
    spell label localName = spell label' localName ↔ label = label' := by
  have hlonger : ∀ label : String, spell (some label) localName ≠ spell none localName := by
    intro label h
    have hlength := congrArg String.length h
    simp [spell] at hlength
  cases label with
  | none =>
    cases label' with
    | none => simp
    | some label' => simp [(hlonger label').symm]
  | some label =>
    cases label' with
    | none => simp [hlonger label]
    | some label' => simp [spell]

/-- Where a label stands for a namespace, none is declared before it for the same one. -/
def Leads (scope : List Declaration) (label : Option String) : Prop :=
  ∀ d ∈ declared? scope label, ∀ first ∈ scope.find? fun e => e.uri == d.uri, first.label = label

instance (scope : List Declaration) (label : Option String) : Decidable (Leads scope label) :=
  inferInstanceAs (Decidable (∀ d ∈ declared? scope label,
    ∀ first ∈ scope.find? fun e => e.uri == d.uri, first.label = label))

/-- A declaration as documents make them: no label is empty, and none stands for the namespace of
`xml`. -/
structure Declaration.Proper (d : Declaration) : Prop where
  label : d.label ≠ some ""
  uri : d.uri ≠ xmlUri

theorem qualify_eq_spell {scope : List Declaration} (hscope : ∀ d ∈ scope, d.Proper)
    (uri : Option String) (localName : String) :
    qualify scope uri localName = spell (uri.bind (labelOf? scope)) localName := by
  unfold qualify
  cases hlabel : uri.bind (labelOf? scope) with
  | none => rfl
  | some label =>
    have hsome : label ≠ "" := by
      rintro rfl
      obtain ⟨u, _, hu⟩ := Option.bind_eq_some_iff.1 hlabel
      unfold labelOf? at hu
      split at hu
      · simp at hu
      · obtain ⟨d, hd, hlabel⟩ := Option.bind_eq_some_iff.1 hu
        exact (hscope d (List.mem_of_find?_eq_some hd)).label hlabel
    show (QName.mk label localName).written = _
    rw [QName.written_eq]
    unfold QName.label?
    rw [if_neg (by simpa using hsome)]

/-- The label of a namespace is that of its first declaration. -/
theorem labelOf?_eq {scope : List Declaration} (hscope : ∀ d ∈ scope, d.Proper) {uri : String}
    {d : Declaration} (hd : d ∈ scope) (huri : d.uri = uri) :
    ∃ first, scope.find? (fun e => e.uri == uri) = some first ∧
      labelOf? scope uri = first.label := by
  have hfound : (scope.find? fun e => e.uri == uri).isSome := by
    rw [List.find?_isSome]
    exact ⟨d, hd, by simp [huri]⟩
  obtain ⟨first, hfirst⟩ := Option.isSome_iff_exists.1 hfound
  refine ⟨first, hfirst, ?_⟩
  unfold labelOf?
  rw [if_neg (huri ▸ (hscope d hd).uri), hfirst]
  rfl

/-- The name of an element is shown as it is written exactly if its label leads. -/
theorem qualify_eq_written {scope : List Declaration} (hscope : ∀ d ∈ scope, d.Proper)
    {name : QName} {uri : Option String} (h : elementUri scope name = .ok uri) :
    qualify scope uri name.localName = name.written ↔ Leads scope name.label? := by
  rw [qualify_eq_spell hscope, QName.written_eq, spell_inj]
  have hlabelled : ∀ d, declared? scope name.label? = some d → uri = some d.uri →
      (uri.bind (labelOf? scope) = name.label? ↔ Leads scope name.label?) := by
    rintro d hd rfl
    obtain ⟨first, hfirst, hlabel⟩ := labelOf?_eq hscope (List.mem_of_find?_eq_some hd) rfl
    show labelOf? scope d.uri = _ ↔ _
    rw [hlabel]
    unfold Leads
    simp [hd, hfirst]
  unfold elementUri at h
  split at h
  · next hempty =>
    have hnone : name.label? = none := if_pos hempty
    cases hd : declared? scope none with
    | some d =>
      rw [hd] at h
      exact hlabelled d (by rw [hnone, hd]) (Except.ok.inj h).symm
    | none =>
      rw [hd] at h
      obtain rfl := Except.ok.inj h
      unfold Leads
      simp [hnone, hd]
  · next hsome =>
    have hlabel : name.label? = some name.label := if_neg hsome
    split at h
    · next d hd => exact hlabelled d (by rw [hlabel, hd]) (Except.ok.inj h).symm
    · nomatch h

/-- So is the name of an attribute, and always one without a label or with the label `xml`. -/
theorem qualify_attribute_eq_written {scope : List Declaration} (hscope : ∀ d ∈ scope, d.Proper)
    {name : QName} {uri : Option String} (h : attributeUri scope name = .ok uri) :
    qualify scope uri name.localName = name.written ↔
      name.label? ∈ [none, some "xml"] ∨ Leads scope name.label? := by
  unfold attributeUri at h
  split at h
  · next hxml =>
    obtain rfl := Except.ok.inj h
    have hlabel : name.label? = some "xml" := by
      unfold QName.label?
      rw [hxml]
      rfl
    rw [qualify_eq_spell hscope, QName.written_eq, spell_inj, hlabel]
    simp [labelOf?]
  split at h
  · next hempty =>
    obtain rfl := Except.ok.inj h
    have hnone : name.label? = none := if_pos hempty
    rw [qualify_eq_spell hscope, QName.written_eq, spell_inj, hnone]
    simp
  · next hother hsome =>
    have hlabel : name.label? = some name.label := if_neg hsome
    rw [qualify_eq_written hscope h]
    simp [hlabel, hother]

/-! ## Trees -/

/-- An element as documents make them: its scope has proper declarations only, in which the
namespaces of its name and of its attributes are found. -/
structure Tag.Proper (tag : Tag) : Prop where
  scope : ∀ d ∈ tag.scope, d.Proper
  uri : elementUri tag.scope tag.name = .ok tag.uri
  attributes : ∀ a ∈ tag.attributes, attributeUri tag.scope a.name = .ok a.uri

mutual

/-- The elements of a node, in document order. -/
def Node.tags : Node → List Tag
  | .element tag children => tag :: Node.tagsAmong children
  | .text _ => []
  | .comment _ => []
  | .instruction _ _ => []

def Node.tagsAmong : List Node → List Tag
  | [] => []
  | n :: ns => n.tags ++ Node.tagsAmong ns

end

mutual

/-- An element and all inside it, in document order. -/
def Element.all : Element → List Element
  | ⟨name, attributes, children, text⟩ =>
    ⟨name, attributes, children, text⟩ :: Element.allAmong children

def Element.allAmong : List Element → List Element
  | [] => []
  | e :: es => e.all ++ Element.allAmong es

end

/-- An attribute of an element is shown: with its value, and with its name as it is written exactly
if that has no label or the label `xml`, or if its label leads. -/
structure Attribute.ShownAs (scope : List Declaration) (a : Attribute) (x : String × String) :
    Prop where
  name : x.1 = a.name.written ↔ a.name.label? ∈ [none, some "xml"] ∨ Leads scope a.name.label?
  value : x.2 = a.value

/-- An element is shown: with its name as it is written exactly if its label leads, and with all its
attributes. -/
structure Tag.ShownAs (tag : Tag) (e : Element) : Prop where
  name : e.name = tag.name.written ↔ Leads tag.scope tag.name.label?
  attributes : List.Forall₂ (Attribute.ShownAs tag.scope) tag.attributes e.attributes

theorem Tag.Proper.shown {tag : Tag} (h : tag.Proper) (children : List Node) :
    tag.ShownAs (Element.ofNode (.element tag children)) := by
  rw [Element.ofNode]
  refine ⟨qualify_eq_written h.scope h.uri, ?_⟩
  rw [List.forall₂_map_right_iff, List.forall₂_same]
  exact fun a ha => ⟨qualify_attribute_eq_written h.scope (h.attributes a ha), rfl⟩

mutual

theorem shown_ofNode (n : Node) (helement : n.isElement = true) (h : ∀ tag ∈ n.tags, tag.Proper) :
    List.Forall₂ Tag.ShownAs n.tags (Element.ofNode n).all := by
  cases n with
  | element tag children =>
    rw [Node.tags] at h ⊢
    have hroot := (h tag List.mem_cons_self).shown children
    rw [Element.ofNode] at hroot ⊢
    rw [Element.all]
    exact .cons hroot (shown_ofNodes children fun t ht => h t (List.mem_cons_of_mem _ ht))
  | text s => nomatch helement
  | comment s => nomatch helement
  | instruction target content => nomatch helement

theorem shown_ofNodes (ns : List Node) (h : ∀ tag ∈ Node.tagsAmong ns, tag.Proper) :
    List.Forall₂ Tag.ShownAs (Node.tagsAmong ns) (Element.allAmong (Element.ofNodes ns)) := by
  cases ns with
  | nil =>
    rw [Node.tagsAmong, Element.ofNodes, Element.allAmong]
    exact .nil
  | cons n ns =>
    rw [Node.tagsAmong] at h ⊢
    rw [List.forall_mem_append] at h
    have hrest := shown_ofNodes ns h.2
    rw [Element.ofNodes]
    by_cases helement : n.isElement = true
    · rw [if_pos helement, Element.allAmong]
      exact List.rel_append (shown_ofNode n helement h.1) hrest
    · rw [if_neg helement]
      have hnone : n.tags = [] := by
        cases n with
        | element tag children => exact absurd rfl helement
        | text s => rw [Node.tags]
        | comment s => rw [Node.tags]
        | instruction target content => rw [Node.tags]
      rw [hnone]
      exact hrest

end

end EdmxGen.Xml
