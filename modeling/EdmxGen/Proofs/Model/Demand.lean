import Mathlib.Data.List.Forall2
import EdmxGen.Model.Projection

/-!
# What metadata must have

A projection demands things of the metadata one after the other. It fails with the first demand that
is not met, and if all are it shows the metadata completely (`projectService_shows`). What a
projection demands and what it gives then is said once for each of its steps and put together along
the sequence of steps (`Follows.bind`, `Follows.each`).
-/

namespace EdmxGen

open Xml

/-! ## Demands -/

/-- Something that a projection demands of the metadata. -/
inductive Demand
  /-- There is an element with the services inside the outermost one. -/
  | services (edmx : Element)
  /-- An element has an attribute. -/
  | has (e : Element) (name : String)

namespace Demand

def isMet : Demand → Bool
  | services edmx => edmx.hasChild "edmx:DataServices"
  | has e name => (e.attribute? name).isSome

/-- The failure that tells that the demand is not met. -/
def failure : Demand → Failure
  | services _ => .missingServices
  | has e name => .missingAttribute e.name name

end Demand

def firstUnmet? (ds : List Demand) : Option Demand := ds.find? fun d => !d.isMet

theorem firstUnmet?_append (ds es : List Demand) :
    firstUnmet? (ds ++ es) = (firstUnmet? ds).or (firstUnmet? es) := List.find?_append

theorem firstUnmet?_eq_none {ds : List Demand} :
    firstUnmet? ds = none ↔ ∀ d ∈ ds, d.isMet = true := by
  unfold firstUnmet?
  simp [List.find?_eq_none]

/-! ## Results that follow demands -/

/-- A result fails with the first demand that is not met; otherwise it is a success, and what it
gives is as it should be. -/
def Follows {α : Type} (ds : List Demand) (r : Except Failure α) (Good : α → Prop) : Prop :=
  match firstUnmet? ds with
  | some d => r = .error d.failure
  | none => ∃ a, r = .ok a ∧ Good a

section

variable {α β : Type} {ds es : List Demand} {r : Except Failure α} {f : α → Except Failure β}
  {Good : α → Prop} {Better : β → Prop}

theorem Follows.pure {a : α} (h : Good a) : Follows [] (.ok a) Good := ⟨a, rfl, h⟩

theorem Follows.unmet {d : Demand} (h : Follows ds r Good) (hd : firstUnmet? ds = some d) :
    r = .error d.failure := by
  unfold Follows at h
  rw [hd] at h
  exact h

theorem Follows.met (h : Follows ds r Good) (hd : firstUnmet? ds = none) :
    ∃ a, r = .ok a ∧ Good a := by
  unfold Follows at h
  rw [hd] at h
  exact h

/-- One result after the other follows the demands of both. -/
theorem Follows.bind (h : Follows ds r Good) (hf : ∀ a, Good a → Follows es (f a) Better) :
    Follows (ds ++ es) (r >>= f) Better := by
  unfold Follows
  rw [firstUnmet?_append]
  cases hds : firstUnmet? ds with
  | some d =>
    rw [h.unmet hds]
    rfl
  | none =>
    obtain ⟨a, rfl, ha⟩ := h.met hds
    exact hf a ha

/-- A projection of a list follows the demands of its elements. -/
theorem Follows.each {g : Element → Except Failure α} {demands : Element → List Demand}
    {Shows : Element → α → Prop} (hg : ∀ e, Follows (demands e) (g e) (Shows e))
    (elements : List Element) :
    Follows (elements.flatMap demands) (projectEach g elements) (List.Forall₂ Shows elements) := by
  induction elements with
  | nil => exact Follows.pure .nil
  | cons e elements ih =>
    refine (hg e).bind fun a ha => ?_
    have hrest : Follows (elements.flatMap demands ++ [])
        (projectEach g elements >>= fun as => .ok (a :: as)) (List.Forall₂ Shows (e :: elements)) :=
      ih.bind fun as has => Follows.pure (.cons ha has)
    rw [List.append_nil] at hrest
    exact hrest

theorem Follows.of_unmet {d : Demand} (hd : d.isMet = false) (hr : r = .error d.failure) :
    Follows (d :: ds) r Good := by
  unfold Follows firstUnmet?
  simpa [hd] using hr

theorem Follows.of_met {d : Demand} (hd : d.isMet = true) (h : Follows ds r Good) :
    Follows (d :: ds) r Good := by
  unfold Follows firstUnmet? at h ⊢
  rw [List.find?_cons_of_neg (by simp [hd])]
  exact h

theorem Follows.isOk_iff (h : Follows ds r Good) :
    (∃ a, r = .ok a) ↔ ∀ d ∈ ds, d.isMet = true := by
  rw [← firstUnmet?_eq_none]
  cases hds : firstUnmet? ds with
  | some d => simp [h.unmet hds]
  | none =>
    obtain ⟨a, rfl, _⟩ := h.met hds
    simp

theorem Follows.good {a : α} (h : Follows ds r Good) (hr : r = .ok a) : Good a := by
  cases hds : firstUnmet? ds with
  | some d =>
    rw [h.unmet hds] at hr
    nomatch hr
  | none =>
    obtain ⟨b, hb, hgood⟩ := h.met hds
    obtain rfl := Except.ok.inj (hb.symm.trans hr)
    exact hgood

theorem Follows.error_iff {failure : Failure} (h : Follows ds r Good) :
    r = .error failure ↔ (firstUnmet? ds).map Demand.failure = some failure := by
  cases hds : firstUnmet? ds with
  | some d => simp [h.unmet hds]
  | none =>
    obtain ⟨a, rfl, _⟩ := h.met hds
    simp

end

/-! ## Properties -/

theorem follows_requiredAttribute (e : Element) (name : String) :
    Follows [.has e name] (requiredAttribute e name) fun value =>
      e.attribute? name = some value := by
  have hmet : (Demand.has e name).isMet = (e.attribute? name).isSome := rfl
  unfold requiredAttribute
  cases h : e.attribute? name with
  | some value => exact Follows.of_met (by rw [hmet, h]; rfl) (Follows.pure rfl)
  | none => exact Follows.of_unmet (by rw [hmet, h]; rfl) rfl

/-- What is demanded of the element of a property, of either kind. -/
def propertyDemands (e : Element) : List Demand := [.has e "Name", .has e "Type"]

/-- A property shows its element. -/
structure ShowsProperty (e : Element) (p : Property) : Prop where
  name : e.attribute? "Name" = some p.name
  type : (e.attribute? "Type").map TypeRef.classify = some p.type
  nullable : p.nullable = true ↔ e.attribute? "Nullable" ≠ some "false"
  attributes : p.attributes = e.attributes

/-- A navigation property shows its element. -/
structure ShowsNavigation (e : Element) (p : NavigationProperty) : Prop where
  name : e.attribute? "Name" = some p.name
  type : (e.attribute? "Type").map TypeRef.classify = some p.type
  nullable : p.nullable = true

theorem follows_projectProperty (e : Element) :
    Follows (propertyDemands e) (projectProperty e) (ShowsProperty e) := by
  refine (follows_requiredAttribute e "Name").bind fun name hname => ?_
  refine (follows_requiredAttribute e "Type").bind fun type htype => Follows.pure ?_
  exact ⟨hname, by rw [htype]; rfl, by simp, rfl⟩

theorem follows_projectNavigation (e : Element) :
    Follows (propertyDemands e) (projectNavigation e) (ShowsNavigation e) := by
  refine (follows_requiredAttribute e "Name").bind fun name hname => ?_
  refine (follows_requiredAttribute e "Type").bind fun type htype => Follows.pure ?_
  exact ⟨hname, by rw [htype]; rfl, rfl⟩

/-! ## Entity types -/

/-- What is demanded of the element of an entity type inside a schema. -/
def entityDemands (schema entity : Element) : List Demand :=
  [.has entity "Name"] ++ ([.has schema "Namespace"] ++
    ((entity.childrenNamed "Property").flatMap propertyDemands ++
      (entity.childrenNamed "NavigationProperty").flatMap propertyDemands))

/-- An entity type shows its element inside a schema. -/
structure ShowsEntity (policy : KeyPolicy) (schema entity : Element) (t : EntityType) : Prop where
  name : entity.attribute? "Name" = some t.name
  fullName : (schema.attribute? "Namespace").map (· ++ "." ++ t.name) = some t.fullName
  properties : List.Forall₂ ShowsProperty (entity.childrenNamed "Property") t.properties
  navigation : List.Forall₂ ShowsNavigation (entity.childrenNamed "NavigationProperty")
    t.navigationProperties
  key : t.key = (entity.child? "Key").bind fun key => selectKey policy key t.properties
  baseType : t.baseType = entity.attribute? "BaseType"
  isOpen : t.isOpen = true ↔ entity.attribute? "OpenType" ∈ [some "true", some "1"]
  actions : t.actions = []
  functions : t.functions = []

theorem isTrue_getD_iff (value : Option String) :
    (value.map isTrue).getD false = true ↔ value ∈ [some "true", some "1"] := by
  cases value with
  | none => simp
  | some text => simp [isTrue]

theorem follows_projectEntityType (policy : KeyPolicy) (schema entity : Element) :
    Follows (entityDemands schema entity) (projectEntityType policy schema entity)
      (ShowsEntity policy schema entity) := by
  refine (follows_requiredAttribute entity "Name").bind fun name hname => ?_
  refine (follows_requiredAttribute schema "Namespace").bind fun space hspace => ?_
  refine (Follows.each follows_projectProperty _).bind fun properties hproperties => ?_
  rw [← List.append_nil (List.flatMap _ _)]
  refine (Follows.each follows_projectNavigation _).bind fun navigation hnavigation => ?_
  refine Follows.pure ⟨hname, ?_, hproperties, hnavigation, rfl, rfl, isTrue_getD_iff _, rfl, rfl⟩
  rw [hspace]
  rfl

/-! ## The whole metadata -/

/-- The elements of entity types with their schemas, in document order. -/
def entitiesIn (schemas : List Element) : List (Element × Element) :=
  schemas.flatMap fun schema => (schema.childrenNamed "EntityType").map (schema, ·)

theorem mem_entitiesIn {schemas : List Element} {schema entity : Element} :
    (schema, entity) ∈ entitiesIn schemas ↔
      schema ∈ schemas ∧ entity ∈ schema.childrenNamed "EntityType" := by
  simp only [entitiesIn, List.mem_flatMap, List.mem_map, Prod.mk.injEq]
  constructor
  · rintro ⟨_, hschema, _, hentity, rfl, rfl⟩
    exact ⟨hschema, hentity⟩
  · rintro ⟨hschema, hentity⟩
    exact ⟨schema, hschema, entity, hentity, rfl, rfl⟩

/-- What is demanded of metadata, in the order in which it is looked for. -/
def demands (edmx : Element) : List Demand :=
  .services edmx ::
    match edmx.child? "edmx:DataServices" with
    | none => []
    | some services =>
      (entitiesIn (services.childrenNamed "Schema")).flatMap fun x => entityDemands x.1 x.2

/-- Entity types show the elements inside schemas one by one. -/
abbrev ShowsEntities (policy : KeyPolicy) (schemas : List Element) (types : List EntityType) :
    Prop :=
  List.Forall₂ (fun x t => ShowsEntity policy x.1 x.2 t) (entitiesIn schemas) types

theorem follows_projectSchemas (policy : KeyPolicy) (schemas : List Element) :
    Follows ((entitiesIn schemas).flatMap fun x => entityDemands x.1 x.2)
      (projectSchemas policy schemas) (ShowsEntities policy schemas) := by
  induction schemas with
  | nil => exact Follows.pure .nil
  | cons schema schemas ih =>
    have hsplit : (entitiesIn (schema :: schemas)).flatMap (fun x => entityDemands x.1 x.2)
        = (schema.childrenNamed "EntityType").flatMap (entityDemands schema) ++
          ((entitiesIn schemas).flatMap (fun x => entityDemands x.1 x.2) ++ []) := by
      simp [entitiesIn, List.flatMap_append, List.flatMap_map]
    rw [hsplit]
    refine (Follows.each (follows_projectEntityType policy schema) _).bind fun types htypes => ?_
    refine ih.bind fun others hothers => Follows.pure ?_
    have hfirst : List.Forall₂ (fun x t => ShowsEntity policy x.1 x.2 t)
        ((schema.childrenNamed "EntityType").map (schema, ·)) types :=
      List.forall₂_map_left_iff.2 htypes
    exact List.rel_append hfirst hothers

/-- A model shows metadata. -/
def ShowsService (policy : KeyPolicy) (edmx : Element) (m : ServiceModel) : Prop :=
  ∃ services, edmx.child? "edmx:DataServices" = some services ∧
    ShowsEntities policy (services.childrenNamed "Schema") m.entityTypes

theorem follows_projectService (policy : KeyPolicy) (edmx : Element) :
    Follows (demands edmx) (projectService policy edmx) (ShowsService policy edmx) := by
  have hmet : (Demand.services edmx).isMet = (edmx.child? "edmx:DataServices").isSome := rfl
  unfold demands projectService
  cases hservices : edmx.child? "edmx:DataServices" with
  | none => exact Follows.of_unmet (by rw [hmet, hservices]; rfl) rfl
  | some services =>
    refine Follows.of_met (by rw [hmet, hservices]; rfl) ?_
    have hshows : ∀ types, ShowsEntities policy (services.childrenNamed "Schema") types →
        Follows [] (.ok ⟨types⟩) (ShowsService policy edmx) :=
      fun types htypes => Follows.pure ⟨services, hservices, htypes⟩
    have hmodel := (follows_projectSchemas policy _).bind hshows
    rw [List.append_nil] at hmodel
    exact hmodel

/-- An element has a name and a type. -/
structure Typed (e : Element) : Prop where
  name : (e.attribute? "Name").isSome
  type : (e.attribute? "Type").isSome

/-- The element of an entity type inside a schema has all that it must have. -/
structure Complete (schema entity : Element) : Prop where
  name : (entity.attribute? "Name").isSome
  space : (schema.attribute? "Namespace").isSome
  properties : ∀ p ∈ entity.childrenNamed "Property", Typed p
  navigation : ∀ p ∈ entity.childrenNamed "NavigationProperty", Typed p

/-- There are services, and all entity types in their schemas are complete. -/
def WellStructured (edmx : Element) : Prop :=
  ∃ services, edmx.child? "edmx:DataServices" = some services ∧
    ∀ schema ∈ services.childrenNamed "Schema", ∀ entity ∈ schema.childrenNamed "EntityType",
      Complete schema entity

theorem propertyDemands_met (e : Element) :
    (∀ d ∈ propertyDemands e, d.isMet = true) ↔ Typed e := by
  rw [propertyDemands, List.forall_mem_cons, List.forall_mem_singleton]
  exact ⟨fun h => ⟨h.1, h.2⟩, fun h => ⟨h.name, h.type⟩⟩

theorem flatMap_met {α : Type} {demandsOf : α → List Demand} {Has : α → Prop}
    (h : ∀ a, (∀ d ∈ demandsOf a, d.isMet = true) ↔ Has a) (as : List α) :
    (∀ d ∈ as.flatMap demandsOf, d.isMet = true) ↔ ∀ a ∈ as, Has a := by
  simp only [List.mem_flatMap, forall_exists_index, and_imp]
  exact ⟨fun hall a ha => (h a).1 fun d hd => hall d a ha hd,
    fun hall d a ha hd => (h a).2 (hall a ha) d hd⟩

theorem entityDemands_met (schema entity : Element) :
    (∀ d ∈ entityDemands schema entity, d.isMet = true) ↔ Complete schema entity := by
  rw [entityDemands, List.forall_mem_append, List.forall_mem_append, List.forall_mem_append,
    List.forall_mem_singleton, List.forall_mem_singleton, flatMap_met propertyDemands_met,
    flatMap_met propertyDemands_met]
  exact ⟨fun ⟨h₁, h₂, h₃, h₄⟩ => ⟨h₁, h₂, h₃, h₄⟩,
    fun h => ⟨h.name, h.space, h.properties, h.navigation⟩⟩

theorem demands_met (edmx : Element) :
    (∀ d ∈ demands edmx, d.isMet = true) ↔ WellStructured edmx := by
  have hservices : (Demand.services edmx).isMet = (edmx.child? "edmx:DataServices").isSome := rfl
  unfold demands WellStructured
  rw [List.forall_mem_cons, hservices]
  cases edmx.child? "edmx:DataServices" with
  | none => simp
  | some services =>
    dsimp only
    rw [flatMap_met fun x : Element × Element => entityDemands_met x.1 x.2]
    simp only [Option.isSome_some, true_and, Option.some.injEq, exists_eq_left', Prod.forall,
      mem_entitiesIn, and_imp]
    exact ⟨fun h schema hschema entity hentity => h schema entity hschema hentity,
      fun h schema entity hschema hentity => h schema hschema entity hentity⟩

/-- Metadata is accepted if it is well structured, and its model then shows it completely. Otherwise
the failure tells the first demand that is not met. -/
theorem projectService_shows (policy : KeyPolicy) (edmx : Element) :
    ((∃ m, projectService policy edmx = .ok m) ↔ WellStructured edmx) ∧
      (∀ m, projectService policy edmx = .ok m → ShowsService policy edmx m) ∧
      ∀ failure, projectService policy edmx = .error failure ↔
        (firstUnmet? (demands edmx)).map Demand.failure = some failure := by
  have h := follows_projectService policy edmx
  exact ⟨h.isOk_iff.trans (demands_met edmx), fun m => h.good, fun failure => h.error_iff⟩

end EdmxGen
