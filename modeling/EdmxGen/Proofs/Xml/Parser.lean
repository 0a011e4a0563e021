import EdmxGen.Metadata
import EdmxGen.Proofs.Xml.Names
import EdmxGen.Proofs.Xml.Reading

/-!
# The names of a document

What holds for every start tag, where it holds for what the tag inherits, holds for all elements of
a document (`Spells.proper`). So the tree of a document shows all of its elements, each name as far
as its label leads (`parse_shows`).
-/

namespace EdmxGen.Xml

open Text

/-! ## Start tags -/

theorem SpellsName.localName_ne {q : QName} {w : List Char} (h : SpellsName q w) :
    q.localName ≠ "" := by
  have hpart : ∀ {l : List Char}, IsPart l → String.ofList l ≠ "" := by
    intro l hl hempty
    have hlist := congrArg String.toList hempty
    rw [String.toList_ofList] at hlist
    exact hl.ne_nil hlist
  cases h with
  | plain hl => exact hpart hl
  | bare hl => exact hpart hl
  | labelled _ hl => exact hpart hl

theorem SpellsGiven.localName_ne {given : List (QName × String)} {w : List Char}
    (h : SpellsGiven given w) : ∀ g ∈ given, g.1.localName ≠ "" := by
  induction h with
  | nil => exact List.forall_mem_nil _
  | cons _ _ hw _ _ ih =>
    obtain ⟨hname, -, -, -, -⟩ := hw
    exact List.forall_mem_cons.2 ⟨hname.localName_ne, ih⟩

theorem Legal.proper {g : QName × String} (h : Legal g) (hname : g.1.localName ≠ "") :
    ∀ d ∈ declaration? g, d.Proper := by
  obtain ⟨⟨label, localName⟩, value⟩ := g
  unfold declaration?
  dsimp only at hname ⊢
  intro d hd
  split at hd
  · split at hd
    · cases hd
    · next huri =>
      obtain rfl := Option.some.inj hd
      exact ⟨fun hlabel => hname (Option.some.inj hlabel), huri⟩
  split at hd
  · next hlabel hlocal =>
    obtain rfl := Option.some.inj hd
    refine ⟨by simp, fun huri => hlabel ?_⟩
    exact congrArg QName.label ((h (by simp [declares, hlocal])).2.1 huri)
  · cases hd

theorem mem_inScope {own inherited : List Declaration} {d : Declaration}
    (h : d ∈ inScope own inherited) : d ∈ own ∨ d ∈ inherited := by
  unfold inScope at h
  split at h
  · exact Or.inr h
  · clear * - h
    induction inherited generalizing own with
    | nil => exact Or.inl h
    | cons e inherited ih =>
      rw [List.foldl_cons] at h
      rcases ih h with hown | hrest
      · split at hown
        · exact Or.inl hown
        · rcases List.mem_append.1 hown with hown | he
          · exact Or.inl hown
          · exact Or.inr (List.mem_cons.2 (Or.inl (List.mem_singleton.1 he)))
      · exact Or.inr (List.mem_cons_of_mem _ hrest)

theorem SpellsTag.proper {inherited : List Declaration} {tag : Tag} {w : List Char}
    (h : SpellsTag inherited tag w) (hinherited : ∀ d ∈ inherited, d.Proper) : tag.Proper := by
  obtain ⟨-, hgiven, hresolves⟩ := h
  refine ⟨fun d hd => ?_, hresolves.uri, hresolves.uris⟩
  rw [hresolves.scope] at hd
  rcases mem_inScope hd with hown | hold
  · obtain ⟨g, hg, hd⟩ := List.mem_filterMap.1 hown
    exact (hresolves.legal g hg).proper (hgiven.localName_ne g hg) d hd
  · exact hinherited d hold

/-! ## Content -/

/-- All elements of a node are as documents make them. -/
def Node.Proper (n : Node) : Prop := ∀ tag ∈ n.tags, tag.Proper

theorem tagsAmong_proper {ns : List Node} (h : ∀ n ∈ ns, n.Proper) :
    ∀ tag ∈ Node.tagsAmong ns, tag.Proper := by
  induction ns with
  | nil =>
    rw [Node.tagsAmong]
    exact List.forall_mem_nil _
  | cons n ns ih =>
    rw [Node.tagsAmong]
    obtain ⟨hn, hns⟩ := List.forall_mem_cons.1 h
    exact List.forall_mem_append.2 ⟨hn, ih hns⟩

theorem element_proper {tag : Tag} {children : List Node} (htag : tag.Proper)
    (hchildren : ∀ n ∈ children, n.Proper) : (Node.element tag children).Proper := by
  unfold Node.Proper
  rw [Node.tags]
  exact List.forall_mem_cons.2 ⟨htag, tagsAmong_proper hchildren⟩

theorem proper_of_not_element {n : Node} (h : n.isElement = false) : n.Proper := by
  unfold Node.Proper
  cases n with
  | element tag children => cases h
  | text s =>
    rw [Node.tags]
    exact List.forall_mem_nil _
  | comment s =>
    rw [Node.tags]
    exact List.forall_mem_nil _
  | instruction target content =>
    rw [Node.tags]
    exact List.forall_mem_nil _

mutual

theorem Spells.proper {scope : List Declaration} {n : Node} {w : List Char}
    (h : Spells scope n w) : (∀ d ∈ scope, d.Proper) → n.Proper := by
  intro hscope
  cases h with
  | remark h => exact proper_of_not_element h.isElement_eq
  | run => exact proper_of_not_element rfl
  | literal => exact proper_of_not_element rfl
  | empty h => exact element_proper (h.proper hscope) (List.forall_mem_nil _)
  | element h hchildren =>
    have htag := h.proper hscope
    exact element_proper htag (hchildren.proper htag.scope)

theorem SpellsAll.proper {scope : List Declaration} {ns : List Node} {w : List Char}
    (h : SpellsAll scope ns w) : (∀ d ∈ scope, d.Proper) → ∀ n ∈ ns, n.Proper := by
  intro hscope
  cases h with
  | nil => exact List.forall_mem_nil _
  | cons hn hns => exact List.forall_mem_cons.2 ⟨hn.proper hscope, hns.proper hscope⟩

end

/-- The outermost element of a document and all inside it are as documents make them. -/
theorem parse_proper {text : String} {root : Node} (h : parse text = .ok root) :
    root.isElement = true ∧ root.Proper := by
  obtain ⟨doc, hspells, hdoc⟩ := parse_iff.1 h
  obtain ⟨node, body, hnode, helement, hbody⟩ := hspells.exists_root
  obtain rfl : node = root := List.singleton_inj.1 (hnode.symm.trans hdoc)
  exact ⟨helement, hbody.proper (List.forall_mem_nil _)⟩

/-! ## Trees of documents -/

theorem metadata_iff {text : String} {root : Element} (h : Element.parse text = .ok root) :
    (∃ e, Metadata.parse text = .ok e) ↔ root.name = "edmx:Edmx" := by
  unfold Metadata.parse
  rw [h]
  show (∃ e, (if root.name = Metadata.rootName then _ else _) = _) ↔ _
  by_cases hname : root.name = Metadata.rootName
  · rw [if_pos hname]
    exact ⟨fun _ => hname, fun _ => ⟨root, rfl⟩⟩
  · rw [if_neg hname]
    exact ⟨fun ⟨e, he⟩ => by simp at he, fun heq => absurd heq hname⟩

/-- The tree of a document shows all its elements with all their attributes. A name is shown as it
is written exactly if its label leads, or if an attribute has no label or the label `xml`. So a
document whose outermost element has a label that leads is metadata exactly if its name is written
`edmx:Edmx`. -/
theorem parse_shows {text : String} {root : Element} (h : Element.parse text = .ok root) :
    ∃ tag children, parse text = .ok (.element tag children) ∧
      List.Forall₂ Tag.ShownAs (Node.element tag children).tags root.all ∧
      (Leads tag.scope tag.name.label? →
        ((∃ e, Metadata.parse text = .ok e) ↔ tag.name.written = "edmx:Edmx")) := by
  have hmetadata := metadata_iff h
  unfold Element.parse at h
  cases hnode : parse text with
  | error fault =>
    rw [hnode] at h
    cases h
  | ok node =>
    rw [hnode] at h
    obtain rfl := Except.ok.inj h
    obtain ⟨helement, hproper⟩ := parse_proper hnode
    cases node with
    | element tag children =>
      have hshown := shown_ofNode _ helement hproper
      have htag : tag.Proper := hproper tag (by rw [Node.tags]; exact List.mem_cons_self)
      refine ⟨tag, children, rfl, hshown, fun hleads => ?_⟩
      rw [hmetadata, (htag.shown children).name.2 hleads]
    | text s => cases helement
    | comment s => cases helement
    | instruction target content => cases helement

/-! ## Two documents -/

/-- The tags of the elements of a document. -/
def tags? (text : String) : Except Fault (List Tag) := (parse text).map Node.tags

theorem of_tags? {text : String} {tag : Tag} {tags : List Tag}
    (h : tags? text = .ok (tag :: tags)) :
    ∃ children root, parse text = .ok (.element tag children) ∧ Node.tagsAmong children = tags ∧
      Element.parse text = .ok root ∧ root.name = qualify tag.scope tag.uri tag.name.localName := by
  unfold tags? at h
  unfold Element.parse
  cases hnode : parse text with
  | error fault =>
    rw [hnode] at h
    cases h
  | ok node =>
    rw [hnode] at h
    have htags : node.tags = tag :: tags := Except.ok.inj h
    cases node with
    | element tag' children =>
      rw [Node.tags] at htags
      obtain ⟨rfl, hchildren⟩ := List.cons.inj htags
      refine ⟨children, _, rfl, hchildren, rfl, ?_⟩
      rw [Element.ofNode]
    | text s => cases htags
    | comment s => cases htags
    | instruction target content => cases htags

/-- In its first inner element this document declares a default for the namespace of `m`, in its
second the label `edmx` for another namespace. -/
def nested : List Char :=
  ("<edmx:Edmx xmlns:edmx=\"u\" xmlns:m=\"v\"><m:A xmlns=\"v\" m:n=\"1\" x=\"2\"/>" ++
    "<edmx:B xmlns:edmx=\"w\" edmx:n=\"3\"/></edmx:Edmx>").toList

theorem tags?_nested {text : String} (h : text.toList = nested) :
    tags? text = .ok
      [⟨⟨"edmx", "Edmx"⟩, some "u", [⟨some "edmx", "u"⟩, ⟨some "m", "v"⟩], []⟩,
        ⟨⟨"m", "A"⟩, some "v", [⟨none, "v"⟩, ⟨some "edmx", "u"⟩, ⟨some "m", "v"⟩],
          [⟨⟨"m", "n"⟩, some "v", "1"⟩, ⟨⟨"", "x"⟩, none, "2"⟩]⟩,
        ⟨⟨"edmx", "B"⟩, some "w", [⟨some "edmx", "w"⟩, ⟨some "m", "v"⟩],
          [⟨⟨"edmx", "n"⟩, some "w", "3"⟩]⟩] := by
  unfold tags? parse
  rw [h]
  decide +kernel

/-- Behind the default declaration the label `m` goes from an element and its attribute, while the
label `edmx` stays in both of its meanings, and the document is metadata. -/
theorem parse_shows_nested : ∃ root outer first second,
    Element.parse (String.ofList nested) = .ok root ∧ root.all = [outer, first, second] ∧
      (∃ e, Metadata.parse (String.ofList nested) = .ok e) ∧
      outer.name = "edmx:Edmx" ∧ outer.attributes = [] ∧
      first.name ≠ "m:A" ∧ (∃ n ≠ "m:n", first.attributes = [(n, "1"), ("x", "2")]) ∧
      second.name = "edmx:B" ∧ second.attributes = [("edmx:n", "3")] := by
  obtain ⟨_, root, hnode, htags, hroot, -⟩ := of_tags? (tags?_nested String.toList_ofList)
  obtain ⟨_, _, htag, hshown, hmetadata⟩ := parse_shows hroot
  obtain ⟨rfl, rfl⟩ := Node.element.inj (Except.ok.inj (htag.symm.trans hnode))
  rw [Node.tags, htags] at hshown
  obtain ⟨outer, _, houter, hinner, hall⟩ := List.forall₂_cons_left_iff.1 hshown
  obtain ⟨first, _, hfirst, hbehind, rfl⟩ := List.forall₂_cons_left_iff.1 hinner
  obtain ⟨second, _, hsecond, hnil, rfl⟩ := List.forall₂_cons_left_iff.1 hbehind
  obtain rfl := List.forall₂_nil_left_iff.1 hnil
  refine ⟨root, outer, first, second, hroot, hall, (hmetadata (by decide +kernel)).2 ?_, ?_, ?_, ?_,
    ?_, ?_, ?_⟩
  · decide +kernel
  · exact (houter.name.2 (by decide +kernel)).trans (by decide +kernel)
  · exact List.forall₂_nil_left_iff.1 houter.attributes
  · exact fun hname => absurd (hfirst.name.1 (hname.trans (by decide +kernel))) (by decide +kernel)
  · obtain ⟨⟨n, _⟩, _, hn, hbehind, hlist⟩ := List.forall₂_cons_left_iff.1 hfirst.attributes
    obtain ⟨⟨x, _⟩, _, hx, hnil, rfl⟩ := List.forall₂_cons_left_iff.1 hbehind
    obtain rfl := List.forall₂_nil_left_iff.1 hnil
    obtain rfl := hn.value
    obtain rfl := hx.value
    obtain rfl := hx.name.2 (by decide +kernel)
    refine ⟨n, fun hname => ?_, hlist⟩
    exact absurd (hn.name.1 (hname.trans (by decide +kernel))) (by decide +kernel)
  · exact (hsecond.name.2 (by decide +kernel)).trans (by decide +kernel)
  · obtain ⟨⟨n, _⟩, _, hn, hnil, hlist⟩ := List.forall₂_cons_left_iff.1 hsecond.attributes
    obtain rfl := List.forall₂_nil_left_iff.1 hnil
    obtain rfl := hn.value
    obtain rfl := hn.name.2 (by decide +kernel)
    exact hlist

/-- An element `edmx:Edmx` with a default declaration of the same namespace in front. -/
def defaulted : List Char := "<edmx:Edmx xmlns=\"u\" xmlns:edmx=\"u\"/>".toList

theorem tags?_defaulted {text : String} (h : text.toList = defaulted) :
    tags? text = .ok [⟨⟨"edmx", "Edmx"⟩, some "u", [⟨none, "u"⟩, ⟨some "edmx", "u"⟩], []⟩] := by
  unfold tags? parse
  rw [h]
  decide +kernel

/-- The element of that document is shown without its label, so the document is refused. -/
theorem parse_loses_label : ∃ tag children root,
    parse (String.ofList defaulted) = .ok (.element tag children) ∧
      tag.name.written = "edmx:Edmx" ∧
      Element.parse (String.ofList defaulted) = .ok root ∧ root.name = "Edmx" ∧
      ¬ ∃ e, Metadata.parse (String.ofList defaulted) = .ok e := by
  obtain ⟨children, root, hnode, -, hroot, hname⟩ :=
    of_tags? (tags?_defaulted String.toList_ofList)
  have hshown : root.name = "Edmx" := hname.trans (by decide +kernel)
  refine ⟨_, children, root, hnode, by decide +kernel, hroot, hshown, ?_⟩
  rw [metadata_iff hroot, hshown]
  decide

end EdmxGen.Xml
