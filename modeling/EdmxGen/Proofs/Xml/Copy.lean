import Mathlib.Data.List.Forall2
import Mathlib.Logic.Relation
import EdmxGen.Proofs.Text.Blank
import EdmxGen.Proofs.Xml.Reading

/-!
# The tree of a document is a copy of it

A copy of an element has its name, its attributes, copies of the elements directly inside it, and
the texts directly inside it as one, trimmed (`Element.Copies`). An element has one copy and no
other (`copies_iff`). A copy shows no comments or instructions, and not where one text ends and the
next begins (`Idle.keeps`). So all documents with the same content have the same tree
(`parse_copies`).
-/

namespace EdmxGen.Xml

open Text

/-! ## Texts -/

/-- The characters of the texts among nodes. -/
def letters (ns : List Node) : List Char :=
  ns.flatMap fun
    | .text s => s.toList
    | _ => []

theorem letters_append (ns ms : List Node) : letters (ns ++ ms) = letters ns ++ letters ms :=
  List.flatMap_append

theorem toList_directText (ns : List Node) : (directText ns).toList = letters ns := by
  unfold directText
  rw [String.toList_join]
  induction ns with
  | nil => rfl
  | cons n ns ih =>
    cases n with
    | text s => exact congrArg (s.toList ++ ·) ih
    | element tag children => exact ih
    | comment s => exact ih
    | instruction target content => exact ih

/-- A text is shown: trimmed, or not at all if it is blank. -/
structure Shows (cs : List Char) (text : Option String) : Prop where
  none_iff : text = none ↔ Blank cs
  trimmed : ∀ t ∈ text, Trimmed cs t.toList

theorem shows_shownText (s : String) : Shows s.toList (shownText s) := by
  have hempty : (Text.trimmed s).isEmpty = true ↔ Blank s.toList := by
    rw [← trim_eq_nil_iff]
    simp [Text.trimmed]
  unfold shownText
  dsimp only
  split
  · next h => exact ⟨⟨fun _ => hempty.1 h, fun _ => rfl⟩, by simp⟩
  · next h =>
    refine ⟨⟨by simp, fun hblank => absurd (hempty.2 hblank) h⟩, fun t ht => ?_⟩
    obtain rfl := Option.some.inj ht
    rw [Text.trimmed, String.toList_ofList]
    exact trimmed_trim _

theorem Shows.eq {s : String} {text : Option String} (h : Shows s.toList text) :
    text = shownText s := by
  have hshown := shows_shownText s
  cases text with
  | none => exact (hshown.none_iff.2 (h.none_iff.1 rfl)).symm
  | some t =>
    cases hs : shownText s with
    | none => cases h.none_iff.2 (hshown.none_iff.1 hs)
    | some t' =>
      have htrim := (h.trimmed t rfl).trim_eq
      rw [(hshown.trimmed t' hs).trim_eq] at htrim
      rw [String.toList_inj.1 htrim]

/-! ## Copies -/

/-- An attribute is copied, with the label that is shown for its namespace. -/
structure Attribute.Copied (scope : List Declaration) (x : String × String) (a : Attribute) :
    Prop where
  name : x.1 = qualify scope a.uri a.name.localName
  value : x.2 = a.value

/-- An element of a tree is a copy of an element of a document: it has all its attributes in their
order, one child for each element directly inside it in their order, and the texts directly inside
it as one. -/
inductive Element.Copies : Element → Node → Prop
  | mk {e : Element} {tag : Tag} {content : List Node} :
      e.name = qualify tag.scope tag.uri tag.name.localName →
      List.Forall₂ (Attribute.Copied tag.scope) e.attributes tag.attributes →
      List.Forall₂ Element.Copies e.children (content.filter Node.isElement) →
      Shows (letters content) e.text → Element.Copies e (.element tag content)

theorem ofNodes_eq (ns : List Node) :
    Element.ofNodes ns = (ns.filter Node.isElement).map Element.ofNode := by
  induction ns with
  | nil => rfl
  | cons n ns ih =>
    rw [Element.ofNodes, List.filter_cons]
    split <;> simp [ih]

theorem copied_iff {scope : List Declaration} {xs : List (String × String)} {as : List Attribute} :
    List.Forall₂ (Attribute.Copied scope) xs as ↔
      xs = as.map fun a => (qualify scope a.uri a.name.localName, a.value) := by
  have hpair : Attribute.Copied scope =
      fun x a => x = (qualify scope a.uri a.name.localName, a.value) := by
    funext x a
    exact propext ⟨fun h => Prod.ext h.name h.value, fun h => h ▸ ⟨rfl, rfl⟩⟩
  rw [hpair, ← List.forall₂_map_right_iff, List.forall₂_eq_eq_eq]

mutual

/-- An element of a document has one copy: the one that the tree has for it. -/
theorem copies_iff (n : Node) (e : Element) :
    e.Copies n ↔ n.isElement = true ∧ e = Element.ofNode n := by
  cases n with
  | element tag content =>
    have hchildren := copiesAmong_iff content e.children
    rw [Element.ofNode]
    constructor
    · obtain ⟨name, attributes, children, text⟩ := e
      rintro ⟨hname, hattributes, hcopies, htext⟩
      rw [← toList_directText] at htext
      have hattributes := copied_iff.1 hattributes
      have hchildren := hchildren.1 hcopies
      have htext := htext.eq
      dsimp only at hname hattributes hchildren htext
      exact ⟨rfl, by rw [hname, hattributes, hchildren, htext]⟩
    · rintro ⟨-, rfl⟩
      refine .mk rfl (copied_iff.2 rfl) (hchildren.2 rfl) ?_
      rw [← toList_directText]
      dsimp only
      exact shows_shownText _
  | text s => exact iff_of_false (fun h => by cases h) (fun h => by cases h.1)
  | comment s => exact iff_of_false (fun h => by cases h) (fun h => by cases h.1)
  | instruction target content => exact iff_of_false (fun h => by cases h) (fun h => by cases h.1)

/-- So have the elements among nodes, in their order. -/
theorem copiesAmong_iff (ns : List Node) (es : List Element) :
    List.Forall₂ Element.Copies es (ns.filter Node.isElement) ↔ es = Element.ofNodes ns := by
  cases ns with
  | nil =>
    rw [Element.ofNodes]
    exact List.forall₂_nil_right_iff
  | cons n ns =>
    have hrest := copiesAmong_iff ns
    have hfirst := copies_iff n
    rw [Element.ofNodes]
    by_cases helement : n.isElement = true
    · rw [List.filter_cons_of_pos helement, if_pos helement, List.forall₂_cons_right_iff]
      constructor
      · rintro ⟨e, es', he, hes, rfl⟩
        rw [((hfirst e).1 he).2, (hrest es').1 hes]
      · rintro rfl
        exact ⟨_, _, (hfirst _).2 ⟨helement, rfl⟩, (hrest _).2 rfl, rfl⟩
    · rw [List.filter_cons_of_neg helement, if_neg helement]
      exact hrest es

end

/-! ## Comparing trees -/

mutual

theorem alike_iff (e e' : Element) : e.alike e' = true ↔ e = e' := by
  obtain ⟨name, attributes, children, text⟩ := e
  obtain ⟨name', attributes', children', text'⟩ := e'
  have hchildren := allAlike_iff children children'
  simp [Element.alike, hchildren, and_assoc]

theorem allAlike_iff (es es' : List Element) : Element.allAlike es es' = true ↔ es = es' := by
  cases es with
  | nil => cases es' <;> simp [Element.allAlike]
  | cons e es =>
    cases es' with
    | nil => simp [Element.allAlike]
    | cons e' es' =>
      have hfirst := alike_iff e e'
      have hrest := allAlike_iff es es'
      simp [Element.allAlike, hfirst, hrest]

end

instance : DecidableEq Element := fun e e' => decidable_of_iff _ (alike_iff e e')

/-! ## Documents with the same content -/

/-- A change among nodes, or inside one of them, that has no effect on the tree of a document: a
comment or an instruction is added, or a text is split. -/
inductive Idle : List Node → List Node → Prop
  | comment {before after : List Node} {s : String} :
      Idle (before ++ after) (before ++ .comment s :: after)
  | instruction {before after : List Node} {target content : String} :
      Idle (before ++ after) (before ++ .instruction target content :: after)
  | split {before after : List Node} {parts : List String} :
      Idle (before ++ .text (String.join parts) :: after) (before ++ parts.map .text ++ after)
  | inside {before after content content' : List Node} {tag : Tag} : Idle content content' →
      Idle (before ++ .element tag content :: after) (before ++ .element tag content' :: after)

/-- Nodes with the same content: such changes lead from the ones to the others, made or undone. -/
def SameContent : List Node → List Node → Prop := Relation.EqvGen Idle

theorem ofNodes_append (ns ms : List Node) :
    Element.ofNodes (ns ++ ms) = Element.ofNodes ns ++ Element.ofNodes ms := by
  rw [ofNodes_eq, ofNodes_eq, ofNodes_eq, List.filter_append, List.map_append]

theorem letters_texts (parts : List String) :
    letters (parts.map .text) = (String.join parts).toList := by
  rw [String.toList_join]
  unfold letters
  rw [List.flatMap_map]

theorem ofNodes_texts (parts : List String) : Element.ofNodes (parts.map .text) = [] := by
  induction parts with
  | nil => rfl
  | cons s parts ih => exact ih

/-- A node that is neither an element nor a text adds nothing. -/
theorem keeps_added {before after : List Node} {n : Node} (helement : n.isElement = false)
    (hletters : letters [n] = []) :
    Element.ofNodes (before ++ after) = Element.ofNodes (before ++ n :: after) ∧
      letters (before ++ after) = letters (before ++ n :: after) := by
  constructor
  · rw [ofNodes_append, ofNodes_append, Element.ofNodes, if_neg (by simp [helement])]
  · rw [← List.singleton_append, letters_append, letters_append, letters_append, hletters,
      List.nil_append]

/-- Such a change keeps the elements among the nodes, and their text as a whole. -/
theorem Idle.keeps {ns ms : List Node} (h : Idle ns ms) :
    Element.ofNodes ns = Element.ofNodes ms ∧ letters ns = letters ms := by
  induction h with
  | comment => exact keeps_added rfl rfl
  | instruction => exact keeps_added rfl rfl
  | @split before after parts =>
    constructor
    · rw [ofNodes_append, ofNodes_append, ofNodes_append, ofNodes_texts, List.append_nil]
      rfl
    · rw [letters_append, letters_append, letters_append, letters_texts, List.append_assoc]
      rfl
  | @inside before after content content' tag _ ih =>
    obtain ⟨hchildren, hletters⟩ := ih
    have htext : directText content = directText content' := by
      rw [← String.toList_inj, toList_directText, toList_directText, hletters]
    have hnode : Element.ofNode (.element tag content) =
        Element.ofNode (.element tag content') := by
      rw [Element.ofNode, Element.ofNode, hchildren, htext]
    constructor
    · rw [ofNodes_append, ofNodes_append, Element.ofNodes, Element.ofNodes, hnode]
      rfl
    · rw [letters_append, letters_append]
      rfl

theorem SameContent.keeps {ns ms : List Node} (h : SameContent ns ms) :
    Element.ofNodes ns = Element.ofNodes ms := by
  induction h with
  | rel _ _ h => exact h.keeps.1
  | refl => rfl
  | symm _ _ _ ih => exact ih.symm
  | trans _ _ _ _ _ ih ih' => exact ih.trans ih'

/-! ## Trees of documents -/

/-- The tree of a document is a copy of its outermost element. It stays the same if comments or
instructions are added to the document or removed from it, or if a text is split, wherever that is
done, and so the tree of any other text of a document with the same content is the same one. -/
theorem parse_copies {text : String} {node : Node} (h : parse text = .ok node) :
    ∃ doc root, SpellsDocument doc text.toList ∧ doc.filter Node.isElement = [node] ∧
      Element.parse text = .ok root ∧ root.Copies node ∧
      ∀ doc', SameContent doc doc' → Element.ofNodes doc' = [root] ∧
        ∀ text', SpellsDocument doc' text'.toList → Element.parse text' = .ok root := by
  obtain ⟨doc, hspells, hdoc⟩ := parse_iff.1 h
  have helement : node.isElement = true := by
    obtain ⟨root, _, hroot, helement, -⟩ := hspells.exists_root
    rwa [← List.singleton_inj.1 (hroot.symm.trans hdoc)]
  refine ⟨doc, Element.ofNode node, hspells, hdoc, ?_, (copies_iff _ _).2 ⟨helement, rfl⟩, ?_⟩
  · unfold Element.parse
    rw [h]
    rfl
  intro doc' hsame
  have htree : Element.ofNodes doc' = [Element.ofNode node] := by
    rw [← hsame.keeps, ofNodes_eq, hdoc]
    rfl
  refine ⟨htree, fun text' hspells' => ?_⟩
  obtain ⟨node', _, hdoc', -, -⟩ := hspells'.exists_root
  rw [ofNodes_eq, hdoc'] at htree
  unfold Element.parse
  rw [parse_iff.2 ⟨doc', hspells', hdoc'⟩]
  exact congrArg Except.ok (List.singleton_inj.1 htree)

/-- An element with a text in two pieces, and with a comment and an element between them. -/
def mixed : List Char := "<a x=\"1\">p<!--c--><b/><![CDATA[q ]]></a>".toList

def mixedTree : Element := ⟨"a", [("x", "1")], [⟨"b", [], [], none⟩], some "pq"⟩

theorem parse_mixed {text : String} (h : text.toList = mixed) :
    Element.parse text = .ok mixedTree := by
  unfold Element.parse parse
  rw [h]
  decide +kernel

theorem parse_copies_mixed : ∃ doc node, SpellsDocument doc mixed ∧
    doc.filter Node.isElement = [node] ∧ mixedTree.Copies node ∧
    ∀ doc', SameContent doc doc' → Element.ofNodes doc' = [mixedTree] := by
  have hmixed : (String.ofList mixed).toList = mixed := String.toList_ofList
  have hroot := parse_mixed hmixed
  cases hnode : parse (String.ofList mixed) with
  | error fault =>
    rw [Element.parse, hnode] at hroot
    cases hroot
  | ok node =>
    obtain ⟨doc, root, hspells, hdoc, hparse, hcopies, hsame⟩ := parse_copies hnode
    rw [hmixed] at hspells
    obtain rfl : root = mixedTree := Except.ok.inj (hparse.symm.trans hroot)
    exact ⟨doc, node, hspells, hdoc, hcopies, fun doc' h => (hsame doc' h).1⟩

end EdmxGen.Xml
