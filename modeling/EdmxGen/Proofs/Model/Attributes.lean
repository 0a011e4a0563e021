import EdmxGen.Proofs.Model.Key

/-!
# Properties and the attributes of their elements

A property keeps the attributes of its element as they were written, those of one name included,
and what it says in its own fields is what they say (`Mirrors`). This holds of every property of a
model, and of every key, since a key is one of the properties (`projectService_mirrors`).
-/

namespace EdmxGen

open Xml

/-- A property has the attributes of an element, and its fields say what these say. -/
structure Mirrors (e : Element) (p : Property) : Prop where
  attributes : p.attributes = e.attributes
  attribute? : ∀ name, p.attribute? name = e.attribute? name
  name : p.attribute? "Name" = some p.name
  type : (p.attribute? "Type").map TypeRef.classify = some p.type
  nullable : p.nullable = false ↔ p.attribute? "Nullable" = some "false"

/-- The properties of an entity type mirror its `Property` elements one by one, and its key mirrors
the element of the property that it is. -/
structure MirrorsAll (entity : Element) (t : EntityType) : Prop where
  properties : List.Forall₂ Mirrors (entity.childrenNamed "Property") t.properties
  key : ∀ p, t.key = some p → ∃ (i : Nat) (e : Element),
    (entity.childrenNamed "Property")[i]? = some e ∧ t.properties[i]? = some p ∧ Mirrors e p

theorem ShowsProperty.mirrors {e : Element} {p : Property} (h : ShowsProperty e p) :
    Mirrors e p := by
  have hattribute : ∀ name, p.attribute? name = e.attribute? name := by
    intro name
    unfold Property.attribute? Element.attribute?
    rw [h.attributes]
  refine ⟨h.attributes, hattribute, ?_, ?_, ?_⟩
  · rw [hattribute, h.name]
  · rw [hattribute, h.type]
  · rw [hattribute, ← Bool.not_eq_true, h.nullable, ne_eq, not_not]

/-- What stands in the second of two lists at a place is related to what the first has there. -/
theorem exists_of_getElem? {α β : Type} {R : α → β → Prop} {as : List α} {bs : List β}
    (h : List.Forall₂ R as bs) {i : Nat} {b : β} (hb : bs[i]? = some b) :
    ∃ a, as[i]? = some a ∧ R a b := by
  obtain ⟨hi, rfl⟩ := List.getElem?_eq_some_iff.1 hb
  have hi' : i < as.length := h.length_eq ▸ hi
  exact ⟨as[i], List.getElem?_eq_getElem hi', h.get hi' hi⟩

theorem ShowsEntity.mirrors {policy : KeyPolicy} {schema entity : Element} {t : EntityType}
    (h : ShowsEntity policy schema entity t) : MirrorsAll entity t := by
  have hproperties : List.Forall₂ Mirrors (entity.childrenNamed "Property") t.properties :=
    h.properties.imp fun _ _ hp => hp.mirrors
  refine ⟨hproperties, fun p hp => ?_⟩
  obtain ⟨i, hi⟩ := List.mem_iff_getElem?.1 (h.keyed.own p hp)
  obtain ⟨e, he, hmirrors⟩ := exists_of_getElem? hproperties hi
  exact ⟨i, e, he, hi, hmirrors⟩

/-- In the model of accepted metadata the properties and keys of every entity type have the
attributes of their elements, unchanged and in order, and their fields say nothing else. -/
theorem projectService_mirrors {policy : KeyPolicy} {edmx : Element} {m : ServiceModel}
    (h : projectService policy edmx = .ok m) :
    List.Forall₂ MirrorsAll (entityElements edmx) m.entityTypes :=
  ((follows_projectService policy edmx).good h).each fun _ _ _ ht => ht.mirrors

/-- The attributes of a property, two of one name among them. -/
def twiceNamed : List (String × String) :=
  [("Nullable", "false"), ("Name", "A"), ("Name", "B"), ("Type", "Collection(Edm.Int32)")]

def twiceNamedEntity : Element :=
  { name := "EntityType"
    attributes := [("Name", "E")]
    children := [{ name := "Key" }, { name := "Property", attributes := twiceNamed }] }

def twiceNamedMetadata : Element :=
  { name := "edmx:Edmx"
    children := [{
      name := "edmx:DataServices"
      children := [{
        name := "Schema"
        attributes := [("Namespace", "N")]
        children := [twiceNamedEntity] }] }] }

/-- The first attribute of a name counts, in the fields of a property and in its look-ups, and all
are kept. -/
theorem projectService_mirrors_twiceNamed :
    ∃ t p, projectService .firstProperty twiceNamedMetadata = .ok ⟨[t]⟩ ∧ t.properties = [p] ∧
      t.key = some p ∧ p = ⟨"A", ⟨"Edm.Int32", true, false⟩, false, twiceNamed⟩ ∧
      MirrorsAll twiceNamedEntity t := by
  have hmodel : ∃ t p, projectService .firstProperty twiceNamedMetadata = .ok ⟨[t]⟩ ∧
      t.properties = [p] ∧ t.key = some p ∧
      p = ⟨"A", ⟨"Edm.Int32", true, false⟩, false, twiceNamed⟩ :=
    ⟨_, _, rfl, rfl, rfl, by decide +kernel⟩
  obtain ⟨t, p, hmodel, hproperties, hkey, hp⟩ := hmodel
  have hmirrors := projectService_mirrors hmodel
  have helements : entityElements twiceNamedMetadata = [twiceNamedEntity] := rfl
  rw [helements, List.forall₂_cons] at hmirrors
  exact ⟨t, p, hmodel, hproperties, hkey, hp, hmirrors.1⟩

end EdmxGen
