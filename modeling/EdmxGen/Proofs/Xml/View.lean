import EdmxGen.Xml.Element
import Mathlib.Logic.Relation

/-!
# What is looked at in a tree

A reader of a tree sees some attributes of an element and visits some kinds of its children
(`View`). An edit that touches nothing of this does not change what is left of the tree when it is
pruned to the view (`prune_edited`).
-/

namespace EdmxGen.Xml

/-- What is looked at in an element: the attributes that are seen, and the kinds of children that
are visited, each with what is looked at in them. -/
inductive View
  | mk (sees : String → Bool) (kinds : List (String × View))

namespace View

/-- An attribute of this name is seen. -/
def sees : View → String → Bool
  | mk sees _ => sees

/-- What is looked at in the children of this name, if they are visited. -/
def child? : View → String → Option View
  | mk _ kinds, name => kinds.lookup name

end View

/-- The elements of this name. -/
def named (name : String) (cs : List Element) : List Element := cs.filter fun c => c.name == name

/-- The elements of other names. -/
def others (name : String) (cs : List Element) : List Element := cs.filter fun c => c.name != name

namespace View

mutual

/-- An element with nothing but what is looked at. -/
def prune : View → Element → Element
  | mk sees kinds, e =>
    { name := e.name
      attributes := e.attributes.filter fun a => sees a.1
      children := pruneKinds kinds e.children }

/-- The visited children, kind by kind. -/
def pruneKinds : List (String × View) → List Element → List Element
  | [], _ => []
  | (name, view) :: kinds, cs =>
    (named name cs).map (prune view) ++ pruneKinds kinds (others name cs)

end

end View

/-! ## Edits -/

/-- One text somewhere in a tree gives way to another, or to none. -/
inductive Retold : Element → Element → Prop
  | here {name attributes children text text'} :
    Retold ⟨name, attributes, children, text⟩ ⟨name, attributes, children, text'⟩
  | inside {name attributes before after text c c'} : Retold c c' →
    Retold ⟨name, attributes, before ++ c :: after, text⟩
      ⟨name, attributes, before ++ c' :: after, text⟩

/-- One edit of a tree where nobody looks. -/
inductive Edit : View → Element → Element → Prop
  /-- A child that is not visited is inserted. -/
  | insert {view name attributes before after text c} : view.child? c.name = none →
    Edit view ⟨name, attributes, before ++ after, text⟩
      ⟨name, attributes, before ++ c :: after, text⟩
  /-- The children are put in another order, but those of one visited kind stay in theirs. -/
  | order {view name attributes cs cs' text} : cs.Perm cs' →
    (∀ kind, (view.child? kind).isSome → named kind cs = named kind cs') →
    Edit view ⟨name, attributes, cs, text⟩ ⟨name, attributes, cs', text⟩
  /-- An attribute that is not seen is added. -/
  | add {view name before after children text key value} : view.sees key = false →
    Edit view ⟨name, before ++ after, children, text⟩
      ⟨name, before ++ (key, value) :: after, children, text⟩
  /-- An attribute that is not seen gets another value. -/
  | change {view name before after children text key value value'} : view.sees key = false →
    Edit view ⟨name, before ++ (key, value) :: after, children, text⟩
      ⟨name, before ++ (key, value') :: after, children, text⟩
  /-- A text changes, that of the element or one somewhere below it. -/
  | retell {view e e'} : Retold e e' → Edit view e e'
  /-- A visited child is edited where nobody looks. -/
  | inside {view name attributes before after text c c' inner} : view.child? c.name = some inner →
    Edit inner c c' →
    Edit view ⟨name, attributes, before ++ c :: after, text⟩
      ⟨name, attributes, before ++ c' :: after, text⟩

/-- One tree comes from another by edits where nobody looks, each made or taken back. -/
def Edited (view : View) : Element → Element → Prop := Relation.EqvGen (Edit view)

/-! ## Elements of one name -/

section

variable {name name' : String} {cs : List Element} {c : Element}

theorem mem_named : c ∈ named name cs ↔ c ∈ cs ∧ c.name = name := by
  rw [named, List.mem_filter, beq_iff_eq]

theorem mem_others : c ∈ others name cs ↔ c ∈ cs ∧ c.name ≠ name := by
  rw [others, List.mem_filter, bne_iff_ne]

theorem named_named : named name (named name cs) = named name cs :=
  List.filter_eq_self.2 fun _ hc => (List.mem_filter.1 hc).2

theorem named_eq_nil (h : ∀ c ∈ cs, c.name ≠ name) : named name cs = [] :=
  List.filter_eq_nil_iff.2 fun c hc => by simpa using h c hc

theorem named_others_self : named name (others name cs) = [] :=
  named_eq_nil fun _ hc => (mem_others.1 hc).2

theorem named_others (h : name ≠ name') : named name (others name' cs) = named name cs := by
  unfold named others
  rw [List.filter_filter]
  refine List.filter_congr fun c _ => ?_
  by_cases hc : c.name = name
  · simp [hc, h]
  · simp [hc]

theorem named_append (cs ds : List Element) :
    named name (cs ++ ds) = named name cs ++ named name ds := List.filter_append ..

theorem others_append (cs ds : List Element) :
    others name (cs ++ ds) = others name cs ++ others name ds := List.filter_append ..

theorem named_cons_of_eq (h : c.name = name) : named name (c :: cs) = c :: named name cs :=
  List.filter_cons_of_pos (by simpa using h)

theorem named_cons_of_ne (h : c.name ≠ name) : named name (c :: cs) = named name cs :=
  List.filter_cons_of_neg (by simpa using h)

theorem others_cons_of_eq (h : c.name = name) : others name (c :: cs) = others name cs :=
  List.filter_cons_of_neg (by simpa using h)

theorem others_cons_of_ne (h : c.name ≠ name) : others name (c :: cs) = c :: others name cs :=
  List.filter_cons_of_pos (by simpa using h)

/-- Neighbours of different names may change places. -/
theorem named_swap {d : Element} (h : c.name ≠ d.name) :
    named name (c :: d :: cs) = named name (d :: c :: cs) := by
  by_cases hc : c.name = name
  · have hd : d.name ≠ name := fun hd => h (hc.trans hd.symm)
    rw [named_cons_of_eq hc, named_cons_of_ne hd, named_cons_of_ne hd, named_cons_of_eq hc]
  · rw [named_cons_of_ne hc]
    by_cases hd : d.name = name
    · rw [named_cons_of_eq hd, named_cons_of_eq hd, named_cons_of_ne hc]
    · rw [named_cons_of_ne hd, named_cons_of_ne hd, named_cons_of_ne hc]

end

/-! ## What pruning leaves -/

namespace View

theorem name_prune (view : View) (e : Element) : (view.prune e).name = e.name := by
  cases view
  rfl

theorem attributes_prune (view : View) (e : Element) :
    (view.prune e).attributes = e.attributes.filter fun a => view.sees a.1 := by
  cases view
  rfl

theorem attribute?_prune {view : View} {name : String} (h : view.sees name = true) (e : Element) :
    (view.prune e).attribute? name = e.attribute? name := by
  unfold Element.attribute?
  rw [attributes_prune, List.find?_filter]
  congr 2
  funext a
  by_cases ha : a.1 = name
  · simp [ha, h]
  · simp [ha]

variable {kinds : List (String × View)} {cs cs' before after : List Element} {c c' : Element}

/-- Every child that is left bears the name of a child that was there. -/
theorem name_of_mem_pruneKinds (h : c ∈ pruneKinds kinds cs) : ∃ d ∈ cs, d.name = c.name := by
  induction kinds generalizing cs with
  | nil => nomatch h
  | cons kind kinds ih =>
    rcases List.mem_append.1 h with h | h
    · obtain ⟨d, hd, rfl⟩ := List.mem_map.1 h
      exact ⟨d, (mem_named.1 hd).1, (name_prune _ d).symm⟩
    · obtain ⟨d, hd, hname⟩ := ih h
      exact ⟨d, (mem_others.1 hd).1, hname⟩

theorem named_map_prune (view : View) (name : String) (cs : List Element) :
    named name (cs.map view.prune) = (named name cs).map view.prune := by
  unfold named
  rw [List.filter_map]
  congr 1
  exact List.filter_congr fun c _ => by simp [name_prune]

/-- Nothing of a name is left of children of other names. -/
theorem named_pruneKinds_others (name : String) :
    named name (pruneKinds kinds (others name cs)) = [] :=
  named_eq_nil fun c hc => by
    obtain ⟨d, hd, hdc⟩ := name_of_mem_pruneKinds hc
    rw [← hdc]
    exact (mem_others.1 hd).2

/-- The children of one kind are left, and each is pruned. -/
theorem named_pruneKinds {name : String} {view : View} (h : kinds.lookup name = some view)
    (cs : List Element) : named name (pruneKinds kinds cs) = (named name cs).map view.prune := by
  induction kinds generalizing cs with
  | nil => nomatch h
  | cons kind kinds ih =>
    obtain ⟨first, inner⟩ := kind
    rw [List.lookup_cons] at h
    rw [pruneKinds, named_append, named_map_prune]
    by_cases hname : name = first
    · subst hname
      rw [beq_self_eq_true] at h
      obtain rfl := Option.some.inj h
      rw [named_named, named_pruneKinds_others, List.append_nil]
    · rw [beq_false_of_ne hname] at h
      have hfirst : named name (named first cs) = [] := named_eq_nil fun c hc => by
        rw [(mem_named.1 hc).2]
        exact Ne.symm hname
      rw [hfirst, ih h, named_others hname, List.map_nil, List.nil_append]

/-- Only the order within each kind matters. -/
theorem pruneKinds_congr
    (h : ∀ name, (kinds.lookup name).isSome → named name cs = named name cs') :
    pruneKinds kinds cs = pruneKinds kinds cs' := by
  induction kinds generalizing cs cs' with
  | nil => rfl
  | cons kind kinds ih =>
    obtain ⟨first, inner⟩ := kind
    have hfirst : named first cs = named first cs' := h first (by rw [List.lookup_cons_self]; rfl)
    rw [pruneKinds, pruneKinds, hfirst, ih]
    intro name hname
    by_cases heq : name = first
    · subst heq
      rw [named_others_self, named_others_self]
    · rw [named_others heq, named_others heq]
      apply h name
      rwa [List.lookup_cons, beq_false_of_ne heq]

/-- A child may give way to one of its name that is pruned to the same. -/
theorem pruneKinds_replace (hname : c'.name = c.name)
    (h : ∀ view, kinds.lookup c.name = some view → view.prune c = view.prune c') :
    pruneKinds kinds (before ++ c :: after) = pruneKinds kinds (before ++ c' :: after) := by
  induction kinds generalizing before after with
  | nil => rfl
  | cons kind kinds ih =>
    obtain ⟨first, inner⟩ := kind
    rw [pruneKinds, pruneKinds, named_append, named_append, others_append, others_append]
    by_cases heq : c.name = first
    · have hinner : inner.prune c = inner.prune c' := h inner (by rw [heq, List.lookup_cons_self])
      have heq' : c'.name = first := hname.trans heq
      rw [named_cons_of_eq heq, named_cons_of_eq heq', others_cons_of_eq heq,
        others_cons_of_eq heq', List.map_append, List.map_append, List.map_cons, List.map_cons,
        hinner]
    · have heq' : c'.name ≠ first := fun hc => heq (hname.symm.trans hc)
      rw [named_cons_of_ne heq, named_cons_of_ne heq', others_cons_of_ne heq,
        others_cons_of_ne heq', ih]
      intro view hview
      exact h view (by rwa [List.lookup_cons, beq_false_of_ne heq])

variable {view : View} {name : String} {attributes attributes' : List (String × String)}
  {text : Option String}

theorem prune_of_named
    (h : ∀ kind, (view.child? kind).isSome → named kind cs = named kind cs') :
    view.prune ⟨name, attributes, cs, text⟩ = view.prune ⟨name, attributes, cs', text⟩ := by
  obtain ⟨sees, kinds⟩ := view
  rw [prune, prune, pruneKinds_congr h]

theorem prune_replace (hname : c'.name = c.name)
    (h : ∀ inner, view.child? c.name = some inner → inner.prune c = inner.prune c') :
    view.prune ⟨name, attributes, before ++ c :: after, text⟩ =
      view.prune ⟨name, attributes, before ++ c' :: after, text⟩ := by
  obtain ⟨sees, kinds⟩ := view
  rw [prune, prune, pruneKinds_replace hname h]

theorem prune_of_attributes
    (h : (attributes.filter fun a => view.sees a.1) = attributes'.filter fun a => view.sees a.1) :
    view.prune ⟨name, attributes, cs, text⟩ = view.prune ⟨name, attributes', cs, text⟩ := by
  obtain ⟨sees, kinds⟩ := view
  have h : (attributes.filter fun a => sees a.1) = attributes'.filter fun a => sees a.1 := h
  rw [prune, prune, h]

theorem filter_unseen {key : String} (h : view.sees key = false) (value : String)
    (before after : List (String × String)) :
    ((before ++ (key, value) :: after).filter fun a => view.sees a.1) =
      (before ++ after).filter fun a => view.sees a.1 := by
  rw [List.filter_append, List.filter_append, List.filter_cons_of_neg (by simp [h])]

end View

/-! ## Edits are pruned away -/

/-- Neighbours of different names may change places, whatever is looked at. -/
theorem Edit.swap {view : View} {name : String} {attributes : List (String × String)}
    {before after : List Element} {text : Option String} {c d : Element} (h : c.name ≠ d.name) :
    Edit view ⟨name, attributes, before ++ c :: d :: after, text⟩
      ⟨name, attributes, before ++ d :: c :: after, text⟩ := by
  refine Edit.order (List.Perm.append_left before (.swap d c after)) fun kind _ => ?_
  rw [named_append, named_append, named_swap h]

theorem Retold.name_eq {e e' : Element} (h : Retold e e') : e'.name = e.name := by
  cases h <;> rfl

theorem Retold.prune_eq {e e' : Element} (h : Retold e e') (view : View) :
    view.prune e = view.prune e' := by
  induction h generalizing view with
  | here =>
    cases view
    rfl
  | inside h ih => exact View.prune_replace h.name_eq fun inner _ => ih inner

theorem Edit.name_eq {view : View} {e e' : Element} (h : Edit view e e') : e'.name = e.name := by
  cases h with
  | retell h => exact h.name_eq
  | insert _ | order _ _ | add _ | change _ | inside _ _ => rfl

theorem Edit.prune_eq {view : View} {e e' : Element} (h : Edit view e e') :
    view.prune e = view.prune e' := by
  induction h with
  | insert hc =>
    refine View.prune_of_named fun kind hkind => ?_
    rw [named_append, named_append, named_cons_of_ne]
    rintro rfl
    rw [hc] at hkind
    nomatch hkind
  | order _ hkinds => exact View.prune_of_named hkinds
  | add hkey => exact View.prune_of_attributes (View.filter_unseen hkey _ _ _).symm
  | change hkey =>
    refine View.prune_of_attributes ?_
    rw [View.filter_unseen hkey, View.filter_unseen hkey]
  | retell h => exact h.prune_eq _
  | inside hinner h ih =>
    refine View.prune_replace h.name_eq fun view hview => ?_
    obtain rfl := Option.some.inj (hview.symm.trans hinner)
    exact ih

/-- Trees that come from each other by edits where nobody looks are pruned to the same. -/
theorem prune_edited {view : View} {e e' : Element} (h : Edited view e e') :
    view.prune e = view.prune e' := by
  induction h with
  | rel _ _ h => exact h.prune_eq
  | refl _ => rfl
  | symm _ _ _ ih => exact ih.symm
  | trans _ _ _ _ _ ih ih' => exact ih.trans ih'

end EdmxGen.Xml
