import EdmxGen.Proofs.Model.Demand
import EdmxGen.Proofs.Model.Projection

/-!
# The keys of entity types

The key of an entity type is one of its own properties, and there is none without a `Key` element or
without properties. One policy takes the first property, the other the first one of the name that
the `Key` element refers to. Whether metadata is accepted, with what failure it is not, and all of
the model but the keys are the same under both (`projectService_keys`).
-/

namespace EdmxGen

open Xml

/-- The name that the first reference of the first `Key` element gives. -/
def referredName? (entity : Element) : Option String :=
  (entity.child? "Key").bind fun key =>
    (key.child? "PropertyRef").bind fun reference => reference.attribute? "Name"

/-- The property is the first one of this name. -/
def IsFirstNamed (name : String) (properties : List Property) (p : Property) : Prop :=
  ∃ before after, properties = before ++ p :: after ∧ p.name = name ∧ ∀ q ∈ before, q.name ≠ name

/-- The key of an entity type is the one that a policy makes of its element. -/
structure Keyed (policy : KeyPolicy) (entity : Element) (t : EntityType) : Prop where
  own : ∀ p, t.key = some p → p ∈ t.properties
  keyless : entity.hasChild "Key" = false → t.key = none
  bare : t.properties = [] → t.key = none
  first : policy = .firstProperty → entity.hasChild "Key" = true → t.key = t.properties.head?
  referred : policy = .propertyRef → ∀ p, t.key = some p ↔
    ∃ name, referredName? entity = some name ∧ IsFirstNamed name t.properties p

/-! ## One entity type -/

theorem isFirstNamed_iff {name : String} {properties : List Property} {p : Property} :
    IsFirstNamed name properties p ↔ properties.find? (fun q => q.name == name) = some p := by
  rw [List.find?_eq_some_iff_append]
  constructor
  · rintro ⟨before, after, hsplit, hname, hbefore⟩
    exact ⟨by simpa using hname, before, after, hsplit, fun q hq => by simpa using hbefore q hq⟩
  · rintro ⟨hname, before, after, hsplit, hbefore⟩
    exact ⟨before, after, hsplit, by simpa using hname, fun q hq => by simpa using hbefore q hq⟩

theorem mem_of_selectKey {policy : KeyPolicy} {key : Element} {properties : List Property}
    {p : Property} (h : selectKey policy key properties = some p) : p ∈ properties := by
  cases policy with
  | firstProperty => exact List.mem_of_head? h
  | propertyRef =>
    obtain ⟨name, _, hfind⟩ := Option.bind_eq_some_iff.1 h
    exact List.mem_of_find?_eq_some hfind

theorem hasChild_eq_isSome (e : Element) (name : String) :
    e.hasChild name = (e.child? name).isSome := rfl

/-- Under the policy of references the key is the property that is referred to. -/
theorem key_of_reference {schema entity : Element} {t : EntityType}
    (h : ShowsEntity .propertyRef schema entity t) :
    t.key = (referredName? entity).bind fun name => t.properties.find? fun q => q.name == name := by
  rw [h.key, referredName?, Option.bind_assoc]
  rfl

theorem ShowsEntity.keyed {policy : KeyPolicy} {schema entity : Element} {t : EntityType}
    (h : ShowsEntity policy schema entity t) : Keyed policy entity t := by
  have hown : ∀ p, t.key = some p → p ∈ t.properties := by
    intro p hp
    rw [h.key] at hp
    obtain ⟨key, _, hselect⟩ := Option.bind_eq_some_iff.1 hp
    exact mem_of_selectKey hselect
  refine ⟨hown, fun hkey => ?_, fun hnil => ?_, ?_, ?_⟩
  · rw [hasChild_eq_isSome, Option.isSome_eq_false_iff, Option.isNone_iff_eq_none] at hkey
    rw [h.key, hkey]
    rfl
  · cases hkey : t.key with
    | none => rfl
    | some p =>
      have hmem := hown p hkey
      rw [hnil] at hmem
      nomatch hmem
  · rintro rfl hkey
    rw [hasChild_eq_isSome, Option.isSome_iff_exists] at hkey
    obtain ⟨key, hkey⟩ := hkey
    rw [h.key, hkey]
    rfl
  · rintro rfl p
    rw [key_of_reference h, Option.bind_eq_some_iff]
    exact exists_congr fun name => and_congr_right fun _ => isFirstNamed_iff.symm

/-- Where the reference names the first property both policies give the same entity type. -/
theorem eq_of_referred_first {schema entity : Element} {t t' : EntityType} {first : Property}
    (h : ShowsEntity .firstProperty schema entity t)
    (h' : ShowsEntity .propertyRef schema entity t') (hsame : t.withoutKey = t'.withoutKey)
    (hfirst : t.properties.head? = some first) (hname : referredName? entity = some first.name) :
    t = t' := by
  have hproperties : t'.properties = t.properties :=
    (congrArg EntityType.properties hsame).symm
  have hhas : entity.hasChild "Key" = true := by
    obtain ⟨key, hkey, _⟩ := Option.bind_eq_some_iff.1 hname
    rw [hasChild_eq_isSome, hkey]
    rfl
  have hkey : t.key = some first := (h.keyed.first rfl hhas).trans hfirst
  have hkey' : t'.key = some first := by
    obtain ⟨rest, hrest⟩ := List.head?_eq_some_iff.1 hfirst
    rw [key_of_reference h', hname, hproperties, hrest, Option.bind_some,
      List.find?_cons_of_pos (by simp)]
  calc t = { t.withoutKey with key := t.key } := rfl
    _ = { t'.withoutKey with key := t'.key } := by rw [hsame, hkey, hkey']
    _ = t' := rfl

/-! ## Whole models -/

/-- The elements of entity types, in document order. -/
def entityElements (edmx : Element) : List Element :=
  match edmx.child? "edmx:DataServices" with
  | none => []
  | some services => (entitiesIn (services.childrenNamed "Schema")).map Prod.snd

/-- What an entity type has for showing its element every one has. -/
theorem ShowsService.each {policy : KeyPolicy} {edmx : Element} {m : ServiceModel}
    {Has : Element → EntityType → Prop} (h : ShowsService policy edmx m)
    (hhas : ∀ schema entity t, ShowsEntity policy schema entity t → Has entity t) :
    List.Forall₂ Has (entityElements edmx) m.entityTypes := by
  obtain ⟨services, hservices, htypes⟩ := h
  unfold entityElements
  rw [hservices]
  exact List.forall₂_map_left_iff.2 (htypes.imp fun x t ht => hhas x.1 x.2 t ht)

theorem ShowsService.keyed {policy : KeyPolicy} {edmx : Element} {m : ServiceModel}
    (h : ShowsService policy edmx m) :
    List.Forall₂ (Keyed policy) (entityElements edmx) m.entityTypes :=
  h.each fun _ _ _ ht => ht.keyed

/-- Entity types at one position show the same element. -/
theorem ShowsService.at {policy policy' : KeyPolicy} {edmx entity : Element} {m m' : ServiceModel}
    {i : Nat} {t t' : EntityType} (h : ShowsService policy edmx m)
    (h' : ShowsService policy' edmx m') (hentity : (entityElements edmx)[i]? = some entity)
    (ht : m.entityTypes[i]? = some t) (ht' : m'.entityTypes[i]? = some t') :
    ∃ schema, ShowsEntity policy schema entity t ∧ ShowsEntity policy' schema entity t' := by
  obtain ⟨services, hservices, htypes⟩ := h
  obtain ⟨services', hservices', htypes'⟩ := h'
  obtain rfl := Option.some.inj (hservices'.symm.trans hservices)
  unfold entityElements at hentity
  rw [hservices] at hentity
  rw [List.getElem?_map] at hentity
  obtain ⟨⟨schema, _⟩, hpair, rfl⟩ := Option.map_eq_some_iff.1 hentity
  obtain ⟨hi, hpair⟩ := List.getElem?_eq_some_iff.1 hpair
  obtain ⟨hit, rfl⟩ := List.getElem?_eq_some_iff.1 ht
  obtain ⟨hit', rfl⟩ := List.getElem?_eq_some_iff.1 ht'
  have hshows := htypes.get hi hit
  have hshows' := htypes'.get hi hit'
  simp only [List.get_eq_getElem, hpair] at hshows hshows'
  exact ⟨schema, hshows, hshows'⟩

/-- The key policy decides the keys and nothing else: under both policies the same failure, or the
same model but for keys, each key as its policy says. -/
theorem projectService_keys (edmx : Element) :
    (∃ failure, ∀ policy, projectService policy edmx = .error failure) ∨
    ∃ m m', projectService .firstProperty edmx = .ok m ∧
      projectService .propertyRef edmx = .ok m' ∧ m.withoutKeys = m'.withoutKeys ∧
      List.Forall₂ (Keyed .firstProperty) (entityElements edmx) m.entityTypes ∧
      List.Forall₂ (Keyed .propertyRef) (entityElements edmx) m'.entityTypes ∧
      ∀ (i : Nat) (entity : Element) (t t' : EntityType) (first : Property),
        (entityElements edmx)[i]? = some entity → m.entityTypes[i]? = some t →
        m'.entityTypes[i]? = some t' → t.properties.head? = some first →
        referredName? entity = some first.name → t = t' := by
  cases hunmet : firstUnmet? (demands edmx) with
  | some d =>
    exact Or.inl ⟨d.failure, fun policy => (follows_projectService policy edmx).unmet hunmet⟩
  | none =>
    obtain ⟨m, hm, hshows⟩ := (follows_projectService .firstProperty edmx).met hunmet
    obtain ⟨m', hm', hsame⟩ := projectService_any hm .propertyRef
    have hshows' := (follows_projectService .propertyRef edmx).good hm'
    refine Or.inr ⟨m, m', hm, hm', hsame.symm, hshows.keyed, hshows'.keyed, ?_⟩
    intro i entity t t' first hentity ht ht' hfirst hname
    obtain ⟨schema, hentity, hentity'⟩ := hshows.at hshows' hentity ht ht'
    refine eq_of_referred_first hentity hentity' ?_ hfirst hname
    -- The models agree but for keys, so their entity types do at every position.
    have hlists := congrArg (fun s : ServiceModel => s.entityTypes[i]?) hsame
    simp only [ServiceModel.withoutKeys, List.getElem?_map, ht, ht', Option.map_some,
      Option.some.injEq] at hlists
    exact hlists.symm

end EdmxGen
