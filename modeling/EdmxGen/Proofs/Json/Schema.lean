import EdmxGen.Proofs.Json.Record
import Mathlib.Data.List.Perm.Basic
import Mathlib.Logic.Relation

/-!
# Values that read the same

Other writers put the members of an object in another order, or add members that no reader knows. A
schema says where such a revision may be made (`Revision`). No number of revisions changes what
stands under the names that are known (`keeps_of_revisions`), and a record is read from these alone
(`asRecord_kept`).
-/

namespace EdmxGen.Json

open Draft

/-- What a reader knows of a value: the value itself, a dictionary, the members of which are all
data, or a record of which only the members with these names matter. -/
inductive Schema
  | value
  | dictionary
  | record (names : List String) (inner : String → Schema)

/-- A change of a value that its reader should not notice. -/
inductive Revision : Schema → Json → Json → Prop
  /-- The entries of a dictionary stand in another order. -/
  | entries {ms ns : List (String × Json)} : ms.Perm ns → Revision .dictionary (.obj ms) (.obj ns)
  /-- The members of a record stand in another order. -/
  | order {names : List String} {inner : String → Schema} {ms ns : List (String × Json)} :
      ms.Perm ns → Revision (.record names inner) (.obj ms) (.obj ns)
  /-- A member that the reader of the record does not know is put somewhere. -/
  | insert {names : List String} {inner : String → Schema} {ms ns : List (String × Json)}
      {key : String} {v : Json} : key ∉ names →
      Revision (.record names inner) (.obj (ms ++ ns)) (.obj (ms ++ (key, v) :: ns))
  /-- The value of a known member is changed in such a way. -/
  | inside {names : List String} {inner : String → Schema} {ms ns : List (String × Json)}
      {key : String} {v w : Json} : key ∈ names → Revision (inner key) v w →
      Revision (.record names inner) (.obj (ms ++ (key, v) :: ns)) (.obj (ms ++ (key, w) :: ns))

/-- No two members have the same known name. -/
def Distinct (names : List String) (ms : List (String × Json)) : Prop :=
  ms.Pairwise fun m n => m.1 = n.1 → m.1 ∉ names

/-- The second value keeps what a reader knows of the first. -/
def Schema.Keeps : Schema → Json → Json → Prop
  | .value, v, w => v = w
  | .dictionary, v, w => ∃ ms ns, v = .obj ms ∧ w = .obj ns ∧ ms.Perm ns
  | .record names inner, v, w => ∃ ms ns, v = .obj ms ∧ w = .obj ns ∧ Distinct names ns ∧
      ∀ key ∈ names, Option.Rel (inner key).Keeps (member? key (.obj ms)) (member? key (.obj ns))

variable {names : List String} {inner : String → Schema} {ms ns : List (String × Json)}
  {key : String} {v w : Json}

/-! ## Members with different names -/

theorem Distinct.perm (h : Distinct names ms) (hp : ms.Perm ns) : Distinct names ns := by
  refine (hp.pairwise_iff ?_).1 h
  intro m n hmn heq
  rw [heq]
  exact hmn heq.symm

theorem Distinct.mono {names' : List String} (h : Distinct names ms)
    (hsub : ∀ key ∈ names', key ∈ names) : Distinct names' ms := by
  refine h.imp ?_
  intro m n hmn heq hmem
  exact hmn heq (hsub m.1 hmem)

theorem Distinct.insert (h : Distinct names (ms ++ ns)) (hkey : key ∉ names) :
    Distinct names (ms ++ (key, v) :: ns) := by
  have hp : (ms ++ (key, v) :: ns).Perm ((key, v) :: (ms ++ ns)) := List.perm_middle
  refine Distinct.perm ?_ hp.symm
  exact List.pairwise_cons.2 ⟨fun _ _ _ => hkey, h⟩

/-- Whether members are distinct depends on their keys only. -/
theorem distinct_iff : Distinct names ms ↔
    (ms.map Prod.fst).Pairwise fun k l => k = l → k ∉ names := by
  rw [List.pairwise_map]
  rfl

theorem Distinct.replace (h : Distinct names (ms ++ (key, v) :: ns)) :
    Distinct names (ms ++ (key, w) :: ns) := by
  rw [distinct_iff] at h ⊢
  simpa using h

/-- Members whose keys are some of several that differ are distinct. -/
theorem distinct_of_sublist {keys : List String} (h : (ms.map Prod.fst).Sublist keys)
    (hk : keys.Nodup) : Distinct names ms := by
  rw [distinct_iff]
  exact (h.nodup hk).imp fun hne heq => absurd heq hne

theorem member?_eq_some_iff (h : Distinct names ms) (hkey : key ∈ names) :
    member? key (.obj ms) = some v ↔ (key, v) ∈ ms := by
  induction ms with
  | nil => simp
  | cons m ms ih =>
    obtain ⟨hm, hms⟩ := List.pairwise_cons.1 h
    rw [member?_cons, List.mem_cons]
    by_cases hk : m.1 = key
    · rw [if_pos hk, Option.some.injEq]
      constructor
      · rintro rfl
        exact .inl (Prod.ext hk.symm rfl)
      · rintro (heq | hmem)
        · rw [← heq]
        · exact absurd (hk ▸ hkey) (hm _ hmem hk)
    · rw [if_neg hk, ih hms]
      constructor
      · exact .inr
      · rintro (heq | hmem)
        · exact absurd (by rw [← heq]) hk
        · exact hmem

theorem member?_perm (h : Distinct names ms) (hp : ms.Perm ns) (hkey : key ∈ names) :
    member? key (.obj ms) = member? key (.obj ns) := by
  ext v
  rw [member?_eq_some_iff h hkey, member?_eq_some_iff (h.perm hp) hkey]
  exact hp.mem_iff

/-! ## Revisions -/

/-- A revision keeps what was kept before it. -/
theorem Schema.Keeps.revise {s : Schema} {u : Json} (h : s.Keeps u v) (hr : Revision s v w) :
    s.Keeps u w := by
  induction hr generalizing u with
  | entries hp =>
    obtain ⟨ms, ns, rfl, hv, hms⟩ := h
    rw [Json.obj.inj hv] at hp
    exact ⟨ms, _, rfl, rfl, hms.trans hp⟩
  | order hp =>
    obtain ⟨ms, ns, rfl, hv, hns, hkept⟩ := h
    obtain rfl := Json.obj.inj hv
    refine ⟨ms, _, rfl, rfl, hns.perm hp, fun key hkey => ?_⟩
    rw [← member?_perm hns hp hkey]
    exact hkept key hkey
  | @insert names inner _ _ k _ hk =>
    obtain ⟨ms, ns, rfl, hv, hns, hkept⟩ := h
    obtain rfl := Json.obj.inj hv
    refine ⟨ms, _, rfl, rfl, hns.insert hk, fun key hkey => ?_⟩
    have hne : k ≠ key := fun heq => hk (heq ▸ hkey)
    have hsame := hkept key hkey
    rw [member?_append] at hsame ⊢
    rwa [member?_cons, if_neg hne]
  | @inside names inner as bs k v w hk hr ih =>
    obtain ⟨ms, ns, rfl, hv, hns, hkept⟩ := h
    obtain rfl := Json.obj.inj hv
    refine ⟨ms, _, rfl, rfl, hns.replace, fun key hkey => ?_⟩
    have hsame := hkept key hkey
    rw [member?_append, member?_cons] at hsame ⊢
    by_cases heq : k = key
    · subst heq
      rw [if_pos rfl] at hsame ⊢
      cases hfirst : member? k (.obj as) with
      | some x =>
        rw [hfirst] at hsame
        exact hsame
      | none =>
        rw [hfirst] at hsame
        revert hsame
        generalize member? k (.obj ms) = o
        intro hsame
        cases hsame with
        | some hold => exact .some (ih hold)
    · rw [if_neg heq] at hsame ⊢
      exact hsame

/-- No number of revisions changes what a reader knows. -/
theorem keeps_of_revisions {s : Schema} (h : s.Keeps v v)
    (hr : Relation.ReflTransGen (Revision s) v w) : s.Keeps v w := by
  induction hr with
  | refl => exact h
  | tail _ hstep ih => exact ih.revise hstep

theorem keeps_record (hms : Distinct names ms)
    (h : ∀ key ∈ names, ∀ v, member? key (.obj ms) = some v → (inner key).Keeps v v) :
    (Schema.record names inner).Keeps (.obj ms) (.obj ms) := by
  refine ⟨ms, ms, rfl, rfl, hms, fun key hkey => ?_⟩
  cases hm : member? key (.obj ms) with
  | none => exact .none
  | some v => exact .some (h key hkey v hm)

/-! ## Reading what was kept -/

/-- For a field a value was given that keeps this one, or none if there was none. -/
def Given.Holds (given : Given) (name : String) (s : Schema) (o : Option Json) : Prop :=
  ∃ o', given.get? name = o'.map ofJson ∧ Option.Rel s.Keeps o o'

/-- The members are gathered if every value that keeps a known one passes the test of its field. -/
theorem gather_kept {fields : List Field} (hfields : fields.map Field.name = names)
    (h : (Schema.record names inner).Keeps (.obj ms) (.obj ns))
    (hcheck : ∀ f ∈ fields, ∀ v, member? f.name (.obj ms) = some v →
      ∀ w, (inner f.name).Keeps v w → f.check (ofJson w) = .ok ()) :
    ∃ given, gather fields [] (ofMembers ns) = .ok given ∧
      ∀ key ∈ names, given.Holds key (inner key) (member? key (.obj ms)) := by
  obtain ⟨ms', ns', hms, hns, hdistinct, hkept⟩ := h
  obtain rfl := Json.obj.inj hms
  obtain rfl := Json.obj.inj hns
  have hname : ∀ f ∈ fields, f.name ∈ names := fun f hf =>
    hfields ▸ List.mem_map_of_mem hf
  have haccepts : Accepts fields ns := by
    intro m hm f hf hfm
    have hmember : member? f.name (.obj ns) = some m.2 :=
      (member?_eq_some_iff hdistinct (hname f hf)).2 (hfm ▸ hm)
    have hrel := hkept f.name (hname f hf)
    rw [hmember] at hrel
    generalize hold : member? f.name (.obj ms) = o at hrel
    cases hrel with
    | some hkeeps => exact hcheck f hf _ hold _ hkeeps
  have hapart : Apart fields ns := by
    refine hdistinct.imp ?_
    intro m n hmn heq f hf hfm
    exact hmn heq (hfm ▸ hname f hf)
  obtain ⟨given, hgiven, hget⟩ := gather_ofMembers haccepts hapart [] (by simp)
  refine ⟨given, hgiven, fun key hkey => ⟨_, ?_, hkept key hkey⟩⟩
  rw [← hfields] at hkey
  obtain ⟨f, hf, rfl⟩ := List.mem_map.1 hkey
  exact hget f hf

/-- A record is read from what is kept of its members. -/
theorem asRecord_kept (origin : Origin) (name : String) {fields : List Field}
    (hfields : fields.map Field.name = names)
    (h : (Schema.record names inner).Keeps (.obj ms) w)
    (hcheck : ∀ f ∈ fields, ∀ v, member? f.name (.obj ms) = some v →
      ∀ w, (inner f.name).Keeps v w → f.check (ofJson w) = .ok ()) :
    ∃ given, (ofJson w).asRecord origin name fields = .ok given ∧
      ∀ key ∈ names, given.Holds key (inner key) (member? key (.obj ms)) := by
  obtain ⟨_, ns, -, rfl, -⟩ := id h
  obtain ⟨given, hgiven, hholds⟩ := gather_kept hfields h hcheck
  refine ⟨given, ?_, hholds⟩
  rw [ofJson, asRecord, hgiven]
  rfl

namespace Given

variable {α : Type} {given : Given} {name : String} {s : Schema} {reader : Reader α} {a : α}

theorem Holds.required (h : given.Holds name s (some v))
    (hr : ∀ w, s.Keeps v w → reader (ofJson w) = .ok a) : given.required name reader = .ok a := by
  obtain ⟨o, hget, hrel⟩ := h
  cases hrel with
  | some hkeeps => exact required_some hget (hr _ hkeeps)

theorem Holds.defaulted_some (default : α) (h : given.Holds name s (some v))
    (hr : ∀ w, s.Keeps v w → reader (ofJson w) = .ok a) :
    given.defaulted name reader default = .ok a := by
  obtain ⟨o, hget, hrel⟩ := h
  cases hrel with
  | some hkeeps => exact Given.defaulted_some default hget (hr _ hkeeps)

theorem Holds.defaulted_none (default : α) (h : given.Holds name s none) :
    given.defaulted name reader default = .ok default := by
  obtain ⟨o, hget, hrel⟩ := h
  cases hrel with
  | none => exact Given.defaulted_none default hget

theorem Holds.defaulted_map {f : α → Json} {o : Option α} {reader : Reader (Option α)}
    (h : given.Holds name s (o.map f))
    (hr : ∀ a w, s.Keeps (f a) w → reader (ofJson w) = .ok (some a)) :
    given.defaulted name reader none = .ok o := by
  cases o with
  | none => exact h.defaulted_none none
  | some a => exact h.defaulted_some none (hr a)

end Given

/-- A value that is read passes the test of a field that reads so. -/
theorem check_defaulted {α : Type} {name : String} {reader : Reader α} {d : Draft} {a : α}
    (h : reader d = .ok a) : (Field.defaulted name reader).check d = .ok () := by
  show (reader d).map _ = _
  rw [h]
  rfl

theorem check_required {α : Type} {name : String} {reader : Reader α} {d : Draft} {a : α}
    (h : reader d = .ok a) : (Field.required name reader).check d = .ok () := by
  show (reader d).map _ = _
  rw [h]
  rfl

end EdmxGen.Json
