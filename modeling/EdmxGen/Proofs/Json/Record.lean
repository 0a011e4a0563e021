import EdmxGen.Json.Decode
import EdmxGen.Proofs.Json.Reading

/-!
# Records of values

A record is read from an object whose members stand in any order, whether or not members that name
no field stand among them: each field gets the value of the member with its name
(`asRecord_ofJson`).
-/

namespace EdmxGen.Json

open Draft

/-! ## Members -/

@[simp] theorem member?_nil (key : String) : member? key (.obj []) = none := rfl

@[simp] theorem member?_cons (key : String) (m : String × Json) (ms : List (String × Json)) :
    member? key (.obj (m :: ms)) = if m.1 = key then some m.2 else member? key (.obj ms) := by
  by_cases h : m.1 = key <;> simp [member?, h]

@[simp] theorem member?_append (key : String) (ms ns : List (String × Json)) :
    member? key (.obj (ms ++ ns)) = (member? key (.obj ms)).or (member? key (.obj ns)) := by
  induction ms with
  | nil => simp
  | cons m ms ih =>
    rw [List.cons_append, member?_cons, member?_cons, ih]
    split <;> rfl

section MemberOf

variable {α : Type} {k : String} {f : α → Json} {o : Option α}

@[simp] theorem member?_memberOf (key : String) :
    member? key (.obj (memberOf k f o)) = if k = key then o.map f else none := by
  cases o <;> simp [memberOf]

theorem keys_memberOf : ((memberOf k f o).map Prod.fst).Sublist [k] := by
  cases o <;> simp [memberOf]

theorem plainMembers_memberOf (h : ∀ a, Plain (f a)) : PlainMembers (memberOf k f o) := by
  cases o with
  | none => trivial
  | some a => exact ⟨h a, trivial⟩

theorem depthOfMembers_memberOf {n : Nat} (h : ∀ a, depth (f a) ≤ n) :
    depthOfMembers (memberOf k f o) ≤ n := by
  cases o with
  | none => exact Nat.zero_le n
  | some a => simpa [memberOf, depthOfMembers] using h a

end MemberOf

theorem depthOfMembers_append (ms ns : List (String × Json)) :
    depthOfMembers (ms ++ ns) = max (depthOfMembers ms) (depthOfMembers ns) := by
  induction ms with
  | nil => simp [depthOfMembers]
  | cons m ms ih => rw [List.cons_append, depthOfMembers, depthOfMembers, ih, Nat.max_assoc]

theorem depthOfMembers_map {α : Type} {f : α → String × Json} {n : Nat}
    (h : ∀ a, depth (f a).2 ≤ n) (as : List α) : depthOfMembers (as.map f) ≤ n := by
  induction as with
  | nil => exact Nat.zero_le n
  | cons a as ih => exact Nat.max_le.2 ⟨h a, ih⟩

namespace Draft

theorem ofMembers_append (ms ns : List (String × Json)) :
    ofMembers (ms ++ ns) = ofMembers ms ++ ofMembers ns := by
  induction ms with
  | nil => rfl
  | cons m ms ih => rw [List.cons_append, ofMembers, ofMembers, ih, List.cons_append]

mutual

/-- Every value can be passed over. -/
theorem pass_ofJson : ∀ v : Json, (ofJson v).pass = .ok ()
  | .null | .bool _ | .num _ | .str _ => by rw [ofJson, pass] <;> simp
  | .arr vs => by rw [ofJson, pass, passItems_ofItems vs]; rfl
  | .obj ms => by rw [ofJson, pass, passMembers_ofMembers ms]; rfl

theorem passItems_ofItems : ∀ vs : List Json, passItems (ofItems vs) = .ok ()
  | [] => by rw [ofItems, passItems]
  | v :: vs => by rw [ofItems, passItems, pass_ofJson v]; exact passItems_ofItems vs

theorem passMembers_ofMembers : ∀ ms : List (String × Json), passMembers (ofMembers ms) = .ok ()
  | [] => by rw [ofMembers, passMembers]
  | m :: ms => by rw [ofMembers, passMembers, pass_ofJson m.2]; exact passMembers_ofMembers ms

end

end Draft

/-! ## Fields -/

/-- Every member that names a field passes the test of that field. -/
def Accepts (fields : List Field) (ms : List (String × Json)) : Prop :=
  ∀ m ∈ ms, ∀ f ∈ fields, f.name = m.1 → f.check (ofJson m.2) = .ok ()

/-- No field is named by two members. -/
def Apart (fields : List Field) (ms : List (String × Json)) : Prop :=
  ms.Pairwise fun m n => m.1 = n.1 → ∀ f ∈ fields, f.name ≠ m.1

/-- Members whose keys are some of several that differ are apart. -/
theorem apart_of_sublist {keys : List String} {ms : List (String × Json)}
    (h : (ms.map Prod.fst).Sublist keys) (hk : keys.Nodup) (fields : List Field) :
    Apart fields ms :=
  (List.pairwise_map.1 (h.nodup hk)).imp fun hne heq => absurd heq hne

theorem apart_of_keys {fields : List Field} {ms : List (String × Json)}
    (h : ms.map Prod.fst = fields.map Field.name) (hk : (fields.map Field.name).Nodup) :
    Apart fields ms :=
  apart_of_sublist (h ▸ List.Sublist.refl _) hk fields

theorem Given.get?_cons (name : String) (g : String × Draft) (given : Given) :
    Given.get? (g :: given) name = if g.1 = name then some g.2 else given.get? name := by
  by_cases h : g.1 = name <;> simp [Given.get?, h]

theorem gather_ofMembers {fields : List Field} {ms : List (String × Json)}
    (ha : Accepts fields ms) (hms : Apart fields ms) (given : Given)
    (hg : ∀ m ∈ ms, ∀ f ∈ fields, f.name = m.1 → ∀ g ∈ given, g.1 ≠ m.1) :
    ∃ all, gather fields given (ofMembers ms) = .ok all ∧ ∀ f ∈ fields,
      all.get? f.name = (given.get? f.name).or (((Json.obj ms).member? f.name).map ofJson) := by
  induction ms generalizing given with
  | nil => exact ⟨given, rfl, fun f _ => by simp⟩
  | cons m ms ih =>
    obtain ⟨hm, hms⟩ := List.pairwise_cons.1 hms
    have ih := ih (fun n hn => ha n (List.mem_cons_of_mem _ hn)) hms
    rw [ofMembers, gather]
    cases hfind : fields.find? fun f => f.name == m.1 with
    | none =>
      obtain ⟨all, hall, hget⟩ := ih given fun n hn => hg n (List.mem_cons_of_mem _ hn)
      have hno : ∀ f ∈ fields, m.1 ≠ f.name := by
        intro f hf heq
        exact List.find?_eq_none.1 hfind f hf (by simp [heq])
      refine ⟨all, ?_, fun f hf => ?_⟩
      · simp only [bind, Except.bind, hfind, pass_ofJson, hall]
      · rw [hget f hf, member?_cons, if_neg (hno f hf)]
    | some field =>
      have hmem := List.mem_of_find?_eq_some hfind
      have hname : field.name = m.1 := by simpa using List.find?_some hfind
      have hnew : (given.any fun g => g.1 == m.1) = false := by
        simpa using hg m List.mem_cons_self field hmem hname
      have hcheck := ha m List.mem_cons_self field hmem hname
      obtain ⟨all, hall, hget⟩ := ih ((m.1, ofJson m.2) :: given) (by
        intro n hn f hf hfn g hgs
        rcases List.mem_cons.1 hgs with rfl | hgs
        · exact fun heq => hm n hn heq f hf (hfn.trans heq.symm)
        · exact hg n (List.mem_cons_of_mem _ hn) f hf hfn g hgs)
      refine ⟨all, ?_, fun f hf => ?_⟩
      · simp only [bind, Except.bind, hfind, hnew, hcheck, hall, Bool.false_eq_true, if_false]
      · rw [hget f hf, Given.get?_cons, member?_cons]
        by_cases h : m.1 = f.name
        · have hnone : given.get? f.name = none := by
            rw [Given.get?, Option.map_eq_none_iff, List.find?_eq_none]
            intro g hgs
            simpa [h] using hg m List.mem_cons_self f hf h.symm g hgs
          rw [if_pos h, if_pos h, hnone]
          rfl
        · rw [if_neg h, if_neg h]

/-- The fields of a record get the values of the members that name them. -/
theorem asRecord_ofJson (origin : Origin) (name : String) {fields : List Field}
    {ms : List (String × Json)} (ha : Accepts fields ms) (hms : Apart fields ms) :
    ∃ given, (ofJson (.obj ms)).asRecord origin name fields = .ok given ∧
      ∀ key ∈ fields.map Field.name, given.get? key = ((Json.obj ms).member? key).map ofJson := by
  obtain ⟨given, hgiven, hget⟩ := gather_ofMembers ha hms [] (by simp)
  refine ⟨given, ?_, fun key hkey => ?_⟩
  · rw [ofJson, asRecord, hgiven]
    rfl
  · obtain ⟨f, hf, rfl⟩ := List.mem_map.1 hkey
    rw [hget f hf]
    rfl

@[simp] theorem accepts_nil (fields : List Field) : Accepts fields [] := by
  intro m hm
  simp at hm

@[simp] theorem accepts_cons {fields : List Field} {m : String × Json}
    {ms : List (String × Json)} : Accepts fields (m :: ms) ↔
      (∀ f ∈ fields, f.name = m.1 → f.check (ofJson m.2) = .ok ()) ∧ Accepts fields ms := by
  simp [Accepts]

@[simp] theorem accepts_append {fields : List Field} {ms ns : List (String × Json)} :
    Accepts fields (ms ++ ns) ↔ Accepts fields ms ∧ Accepts fields ns := by
  simp only [Accepts, List.mem_append, or_imp, forall_and]

@[simp] theorem accepts_memberOf {α : Type} {fields : List Field} {k : String} {f : α → Json}
    {o : Option α} : Accepts fields (memberOf k f o) ↔
      ∀ a, o = some a → ∀ g ∈ fields, g.name = k → g.check (ofJson (f a)) = .ok () := by
  cases o <;> simp [memberOf]

/-! ## Readers -/

theorem optional_obj {α : Type} {reader : Reader α} {ms : List (String × Json)} {a : α}
    (h : reader (ofJson (.obj ms)) = .ok a) :
    optional reader (ofJson (.obj ms)) = .ok (some a) := by
  show (reader (ofJson (.obj ms))).map some = _
  rw [h]
  rfl

theorem asList_map {α : Type} {reader : Reader α} {f : α → Json}
    (h : ∀ a, reader (ofJson (f a)) = .ok a) (as : List α) :
    asList reader (ofJson (.arr (as.map f))) = .ok as := by
  have hitems : eachItem reader (ofItems (as.map f)) = .ok as := by
    induction as with
    | nil => rfl
    | cons a as ih =>
      rw [List.map_cons, ofItems, eachItem, h, ih]
      rfl
  rw [ofJson, asList, hitems]
  rfl

/-! ## Values of fields -/

namespace Given

variable {α : Type} {given : Given} {name : String} {reader : Reader α}

theorem required_some {v : Json} {a : α} (h : given.get? name = (some v).map ofJson)
    (hr : reader (ofJson v) = .ok a) : given.required name reader = .ok a := by
  rw [required, h]
  exact hr

theorem defaulted_some {v : Json} {a : α} (default : α)
    (h : given.get? name = (some v).map ofJson) (hr : reader (ofJson v) = .ok a) :
    given.defaulted name reader default = .ok a := by
  rw [defaulted, h]
  exact hr

theorem defaulted_none (default : α) (h : given.get? name = none) :
    given.defaulted name reader default = .ok default := by
  rw [defaulted, h]

/-- An optional value is read back, written or not. -/
theorem defaulted_map {f : α → Json} {o : Option α} {reader : Reader (Option α)}
    (h : given.get? name = (o.map f).map ofJson)
    (hr : ∀ a, o = some a → reader (ofJson (f a)) = .ok (some a)) :
    given.defaulted name reader none = .ok o := by
  cases o with
  | none => exact defaulted_none none h
  | some a => exact defaulted_some none h (hr a rfl)

end Given

end EdmxGen.Json
