import EdmxGen.Model.Projection
import EdmxGen.Proofs.Run

/-!
# What the key policy decides

The key policy decides about the keys of entity types and about nothing else: metadata that can be
projected under one policy can be under any, and the models are the same but for keys
(`projectService_any`).
-/

namespace EdmxGen

open Xml

def EntityType.withoutKey (t : EntityType) : EntityType := { t with key := none }

def ServiceModel.withoutKeys (m : ServiceModel) : ServiceModel :=
  ⟨m.entityTypes.map EntityType.withoutKey⟩

/-- Where projections agree on elements they agree on a list of elements. -/
theorem projectEach_agree {α β : Type} {f f' : Element → Except Failure α} {g : α → β}
    (hf : ∀ e a, f e = .ok a → ∃ a', f' e = .ok a' ∧ g a' = g a) {es : List Element}
    {as : List α} (h : projectEach f es = .ok as) :
    ∃ as', projectEach f' es = .ok as' ∧ as'.map g = as.map g := by
  induction es generalizing as with
  | nil =>
    obtain rfl := Except.ok.inj h
    exact ⟨[], rfl, rfl⟩
  | cons e es ih =>
    obtain ⟨a, ha, h⟩ := ok_of_bind h
    obtain ⟨rest, hrest, h⟩ := ok_of_bind h
    obtain rfl := Except.ok.inj h
    obtain ⟨a', ha', hg⟩ := hf e a ha
    obtain ⟨rest', hrest', hmap⟩ := ih hrest
    refine ⟨a' :: rest', ?_, ?_⟩
    · rw [projectEach, ha', hrest']
      rfl
    · rw [List.map_cons, List.map_cons, hg, hmap]

variable {policy : KeyPolicy}

theorem projectEntityType_any {schema entity : Element} {t : EntityType}
    (h : projectEntityType policy schema entity = .ok t) (policy' : KeyPolicy) :
    ∃ t', projectEntityType policy' schema entity = .ok t' ∧ t'.withoutKey = t.withoutKey := by
  obtain ⟨name, hname, h⟩ := ok_of_bind h
  obtain ⟨space, hspace, h⟩ := ok_of_bind h
  obtain ⟨properties, hproperties, h⟩ := ok_of_bind h
  obtain ⟨navigation, hnavigation, h⟩ := ok_of_bind h
  obtain rfl := Except.ok.inj h
  unfold projectEntityType
  rw [hname, hspace, hproperties, hnavigation]
  exact ⟨_, rfl, rfl⟩

theorem projectSchemas_any {schemas : List Element} {types : List EntityType}
    (h : projectSchemas policy schemas = .ok types) (policy' : KeyPolicy) :
    ∃ types', projectSchemas policy' schemas = .ok types' ∧
      types'.map EntityType.withoutKey = types.map EntityType.withoutKey := by
  induction schemas generalizing types with
  | nil =>
    obtain rfl := Except.ok.inj h
    exact ⟨[], rfl, rfl⟩
  | cons schema schemas ih =>
    obtain ⟨first, hfirst, h⟩ := ok_of_bind h
    obtain ⟨others, hothers, h⟩ := ok_of_bind h
    obtain rfl := Except.ok.inj h
    obtain ⟨first', hfirst', hmap⟩ :=
      projectEach_agree (fun _ _ ht => projectEntityType_any ht policy') hfirst
    obtain ⟨others', hothers', hmaps⟩ := ih hothers
    refine ⟨first' ++ others', ?_, ?_⟩
    · unfold projectSchemas projectSchema
      rw [hfirst', hothers']
      rfl
    · rw [List.map_append, List.map_append, hmap, hmaps]

/-- Metadata that has a model under one key policy has the same one but for keys under any. -/
theorem projectService_any {edmx : Element} {model : ServiceModel}
    (h : projectService policy edmx = .ok model) (policy' : KeyPolicy) :
    ∃ model', projectService policy' edmx = .ok model' ∧
      model'.withoutKeys = model.withoutKeys := by
  unfold projectService at h ⊢
  split at h
  · simp at h
  · next services hservices =>
    obtain ⟨types, htypes, h⟩ := ok_of_bind h
    obtain rfl := Except.ok.inj h
    obtain ⟨types', htypes', hmap⟩ := projectSchemas_any htypes policy'
    refine ⟨⟨types'⟩, ?_, ?_⟩
    · rw [htypes']
      rfl
    · unfold ServiceModel.withoutKeys
      rw [hmap]

end EdmxGen
