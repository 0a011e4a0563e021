import EdmxGen.Proofs.Model.Key

/-!
# Looking entity types up

A name is compared with the simple and the full name of one entity type after the other, so a full
name finds an entity type of that full name unless one before it has the text as its simple name
(`fullName_of_entity?`). That takes a dot in a simple name: the full names of a model have dots
(`qualified_of_projectService`), and metadata may name an entity type as it likes.
-/

namespace EdmxGen

open Xml

/-- Before the first entity type of this full name stands one that has it as its simple name. -/
def ServiceModel.Shadows (m : ServiceModel) (full : String) : Prop :=
  ∃ t ∈ m.entityTypes.takeWhile fun t => t.fullName != full, t.name = full

/-- The full name is a namespace and the simple name. -/
def EntityType.Qualified (t : EntityType) : Prop := ∃ space, t.fullName = space ++ "." ++ t.name

/-! ## The first entity type of a name -/

theorem entity?_cons (t : EntityType) (ts : List EntityType) (name : String) :
    ServiceModel.entity? ⟨t :: ts⟩ name =
      if t.name = name ∨ t.fullName = name then some t else ServiceModel.entity? ⟨ts⟩ name := by
  unfold ServiceModel.entity?
  by_cases h : t.name = name ∨ t.fullName = name
  · rw [if_pos h, List.find?_cons_of_pos (by simpa using h)]
  · rw [if_neg h, List.find?_cons_of_neg (by simpa using h)]

theorem exists_entity? {m : ServiceModel} {t : EntityType} (ht : t ∈ m.entityTypes) :
    ∃ found, m.entity? t.fullName = some found := by
  rw [← Option.isSome_iff_exists]
  exact List.find?_isSome.2 ⟨t, ht, by simp⟩

/-- What a full name finds has this full name unless the full name is a simple name before. -/
theorem fullName_of_entity? {m : ServiceModel} {full : String} {found : EntityType}
    (h : m.entity? full = some found) : found.fullName = full ↔ ¬ m.Shadows full := by
  obtain ⟨types⟩ := m
  unfold ServiceModel.Shadows
  induction types with
  | nil => nomatch h
  | cons t ts ih =>
    rw [entity?_cons] at h
    by_cases hfull : t.fullName = full
    · -- the first one of the full name: nothing stands before it
      rw [if_pos (Or.inr hfull)] at h
      obtain rfl := Option.some.inj h
      simp [hfull]
    · rw [List.takeWhile_cons_of_pos (by simpa using hfull)]
      by_cases hname : t.name = full
      · rw [if_pos (Or.inl hname)] at h
        obtain rfl := Option.some.inj h
        simp [hfull, hname]
      · rw [if_neg (by simp [hname, hfull])] at h
        simpa [hname] using ih h

/-! ## Full names -/

theorem EntityType.Qualified.dot_mem {t : EntityType} (h : t.Qualified) :
    '.' ∈ t.fullName.toList := by
  obtain ⟨space, hspace⟩ := h
  rw [hspace]
  simp

theorem ShowsEntity.qualified {policy : KeyPolicy} {schema entity : Element} {t : EntityType}
    (h : ShowsEntity policy schema entity t) : t.Qualified := by
  obtain ⟨space, -, hspace⟩ := Option.map_eq_some_iff.1 h.fullName
  exact ⟨space, hspace.symm⟩

theorem qualified_of_projectService {policy : KeyPolicy} {edmx : Element} {m : ServiceModel}
    (h : projectService policy edmx = .ok m) : ∀ t ∈ m.entityTypes, t.Qualified := by
  have hshows := (follows_projectService policy edmx).good h
  have hall : List.Forall₂ (fun t (_ : Element) => t.Qualified ∧ True) m.entityTypes
      (entityElements edmx) :=
    (hshows.each fun _ _ _ ht => ⟨ht.qualified, trivial⟩).flip
  exact ((List.forall₂_and_left _ _).1 hall).1

/-- A simple name is no full name unless it has a dot. -/
theorem not_shadows_of_dotless {m : ServiceModel} {t : EntityType} (ht : t.Qualified)
    (hdot : ∀ u ∈ m.entityTypes, '.' ∉ u.name.toList) : ¬ m.Shadows t.fullName := by
  rintro ⟨u, hu, hname⟩
  refine hdot u ((List.takeWhile_prefix _).subset hu) ?_
  rw [hname]
  exact ht.dot_mem

/-- In the model of accepted metadata the full name of an entity type finds one. It is one of that
full name exactly if none before the first of these has it as its simple name, and so whenever
simple names have no dots. -/
theorem entity?_fullName {policy : KeyPolicy} {edmx : Element} {m : ServiceModel} {t : EntityType}
    (h : projectService policy edmx = .ok m) (ht : t ∈ m.entityTypes) :
    ∃ found, m.entity? t.fullName = some found ∧
      (found.fullName = t.fullName ↔ ¬ m.Shadows t.fullName) ∧
      ((∀ u ∈ m.entityTypes, '.' ∉ u.name.toList) → found.fullName = t.fullName) := by
  obtain ⟨found, hfound⟩ := exists_entity? ht
  have hiff := fullName_of_entity? hfound
  exact ⟨found, hfound, hiff, fun hdot =>
    hiff.2 (not_shadows_of_dotless (qualified_of_projectService h t ht) hdot)⟩

/-- An entity type of this name inside a schema of this namespace. -/
def schemaOf (space name : String) : Element :=
  { name := "Schema"
    attributes := [("Namespace", space)]
    children := [{ name := "EntityType", attributes := [("Name", name)] }] }

/-- Metadata with these schemas. -/
def edmxOf (schemas : List Element) : Element :=
  { name := "edmx:Edmx", children := [{ name := "edmx:DataServices", children := schemas }] }

/-- The entity type that is projected from such an element. -/
def plainType (space name : String) : EntityType :=
  ⟨name, space ++ "." ++ name, [], [], none, none, false, [], []⟩

/-- A simple name that is a full name does no harm behind the entity type of that full name. -/
theorem entity?_fullName_behind :
    let m : ServiceModel := ⟨[plainType "N" "E", plainType "A" "N.E"]⟩
    projectService .propertyRef (edmxOf [schemaOf "N" "E", schemaOf "A" "N.E"]) = .ok m ∧
      plainType "N" "E" ∈ m.entityTypes ∧
      ∃ found, m.entity? "N.E" = some found ∧ found.fullName = "N.E" := by
  intro m
  have hmodel : projectService .propertyRef
      (edmxOf [schemaOf "N" "E", schemaOf "A" "N.E"]) = .ok m := rfl
  have hmem : plainType "N" "E" ∈ m.entityTypes := List.mem_cons_self
  obtain ⟨found, hfound, hiff, -⟩ := entity?_fullName hmodel hmem
  exact ⟨hmodel, hmem, found, hfound, hiff.2 (by rintro ⟨t, ht, -⟩; nomatch ht)⟩

/-- The full name of the second entity type finds the first one, which has it as its simple name. -/
theorem entity?_shadowed :
    let m : ServiceModel := ⟨[plainType "A" "N.E", plainType "N" "E"]⟩
    (∀ policy, projectService policy (edmxOf [schemaOf "A" "N.E", schemaOf "N" "E"]) = .ok m) ∧
      plainType "N" "E" ∈ m.entityTypes ∧
      m.entity? (plainType "N" "E").fullName = some (plainType "A" "N.E") ∧
      (plainType "A" "N.E").fullName ≠ (plainType "N" "E").fullName :=
  ⟨fun policy => by cases policy <;> rfl, by decide, by decide, by decide⟩

end EdmxGen
