import EdmxGen.Model.Projection
import EdmxGen.Proofs.Xml.View

/-!
# What the projection sees

The projection looks at a few attributes and a few kinds of children, and at no text. Each of its
steps gives the same for an element and for what is left of the element when it is pruned to the
view of that step. So edits where it does not look change neither the model nor the failure
(`projection_edited`).
-/

namespace EdmxGen

open Xml

/-! ## Views -/

/-- Every attribute of a property is seen. -/
def propertyView : View := .mk (fun _ => true) []

/-- A navigation property has a name and a type. -/
def navigationView : View := .mk (fun name => ["Name", "Type"].contains name) []

/-- A reference names a property. -/
def referenceView : View := .mk (fun name => name == "Name") []

/-- A key refers to properties. -/
def keyView : View := .mk (fun _ => false) [("PropertyRef", referenceView)]

/-- An entity type has a name, a base type and a mark, keys and properties of both kinds. -/
def entityView : View :=
  .mk (fun name => ["Name", "BaseType", "OpenType"].contains name)
    [("Key", keyView), ("Property", propertyView), ("NavigationProperty", navigationView)]

/-- Of its schema an entity type needs the namespace. -/
def spaceView : View := .mk (fun name => name == "Namespace") []

/-- A schema has a namespace and entity types. -/
def schemaView : View := .mk (fun name => name == "Namespace") [("EntityType", entityView)]

/-- The services have schemas. -/
def servicesView : View := .mk (fun _ => false) [("Schema", schemaView)]

/-- Metadata has services. -/
def metadataView : View := .mk (fun _ => false) [("edmx:DataServices", servicesView)]

/-! ## Elements -/

theorem childrenNamed_prune {view inner : View} {name : String}
    (h : view.child? name = some inner) (e : Element) :
    (view.prune e).childrenNamed name = (e.childrenNamed name).map inner.prune := by
  obtain ⟨sees, kinds⟩ := view
  exact View.named_pruneKinds h e.children

theorem child?_eq_head? (e : Element) (name : String) :
    e.child? name = (e.childrenNamed name).head? := List.head?_filter.symm

theorem child?_prune {view inner : View} {name : String} (h : view.child? name = some inner)
    (e : Element) : (view.prune e).child? name = (e.child? name).map inner.prune := by
  rw [child?_eq_head?, child?_eq_head?, childrenNamed_prune h, List.head?_map]

theorem requiredAttribute_prune {view : View} {name : String} (h : view.sees name = true)
    (e : Element) : requiredAttribute (view.prune e) name = requiredAttribute e name := by
  unfold requiredAttribute
  rw [View.attribute?_prune h, View.name_prune]

/-! ## The steps of the projection -/

theorem projectProperty_prune (e : Element) :
    projectProperty (propertyView.prune e) = projectProperty e := by
  have hall : (propertyView.prune e).attributes = e.attributes := by
    rw [View.attributes_prune]
    exact List.filter_eq_self.2 fun _ _ => rfl
  unfold projectProperty
  rw [requiredAttribute_prune rfl, requiredAttribute_prune rfl, View.attribute?_prune rfl, hall]

theorem projectNavigation_prune (e : Element) :
    projectNavigation (navigationView.prune e) = projectNavigation e := by
  unfold projectNavigation
  rw [requiredAttribute_prune (by decide), requiredAttribute_prune (by decide)]

theorem projectEach_map {α : Type} {f f' : Element → Except Failure α} {g : Element → Element}
    (h : ∀ e, f' (g e) = f e) (es : List Element) :
    projectEach f' (es.map g) = projectEach f es := by
  induction es with
  | nil => rfl
  | cons e es ih => rw [List.map_cons, projectEach, projectEach, h, ih]

theorem selectKey_prune (policy : KeyPolicy) (key : Element) (properties : List Property) :
    selectKey policy (keyView.prune key) properties = selectKey policy key properties := by
  cases policy with
  | firstProperty => rfl
  | propertyRef =>
    have hname : ((keyView.prune key).child? "PropertyRef").bind (·.attribute? "Name") =
        (key.child? "PropertyRef").bind (·.attribute? "Name") := by
      rw [child?_prune (by rfl : keyView.child? "PropertyRef" = some referenceView),
        Option.bind_map]
      congr 1
      funext reference
      exact View.attribute?_prune rfl reference
    unfold selectKey
    dsimp only
    rw [hname]

/-- An entity type is projected from what its view leaves of it, and of its schema the namespace
is enough. -/
theorem projectEntityType_prune (policy : KeyPolicy) {view : View}
    (hspace : view.sees "Namespace" = true) (schema entity : Element) :
    projectEntityType policy (view.prune schema) (entityView.prune entity) =
      projectEntityType policy schema entity := by
  have hkey : ∀ properties, ((entityView.prune entity).child? "Key").bind
        (fun key => selectKey policy key properties) =
      (entity.child? "Key").bind fun key => selectKey policy key properties := by
    intro properties
    rw [child?_prune (by rfl : entityView.child? "Key" = some keyView), Option.bind_map]
    congr 1
    funext key
    exact selectKey_prune policy key properties
  unfold projectEntityType
  simp only [requiredAttribute_prune hspace, hkey,
    requiredAttribute_prune (by decide : entityView.sees "Name" = true),
    View.attribute?_prune (by decide : entityView.sees "BaseType" = true),
    View.attribute?_prune (by decide : entityView.sees "OpenType" = true),
    childrenNamed_prune (by rfl : entityView.child? "Property" = some propertyView),
    childrenNamed_prune (by rfl : entityView.child? "NavigationProperty" = some navigationView),
    projectEach_map projectProperty_prune, projectEach_map projectNavigation_prune]

theorem projectSchema_prune (policy : KeyPolicy) (schema : Element) :
    projectSchema policy (schemaView.prune schema) = projectSchema policy schema := by
  unfold projectSchema
  rw [childrenNamed_prune (by rfl : schemaView.child? "EntityType" = some entityView)]
  exact projectEach_map (projectEntityType_prune policy rfl schema) _

theorem projectSchemas_map (policy : KeyPolicy) (schemas : List Element) :
    projectSchemas policy (schemas.map schemaView.prune) = projectSchemas policy schemas := by
  induction schemas with
  | nil => rfl
  | cons schema schemas ih =>
    rw [List.map_cons, projectSchemas, projectSchemas, projectSchema_prune, ih]

theorem projectService_prune (policy : KeyPolicy) (edmx : Element) :
    projectService policy (metadataView.prune edmx) = projectService policy edmx := by
  unfold projectService
  rw [child?_prune (by rfl : metadataView.child? "edmx:DataServices" = some servicesView)]
  cases edmx.child? "edmx:DataServices" with
  | none => rfl
  | some services =>
    dsimp only [Option.map_some]
    rw [childrenNamed_prune (by rfl : servicesView.child? "Schema" = some schemaView),
      projectSchemas_map]

/-! ## Edits -/

/-- The projection depends only on what it names: it gives the same entity type or the same failure
after any edits of an entity type and its schema where it does not look, and the same model or the
same failure after any such edits of metadata. -/
theorem projection_edited (policy : KeyPolicy) :
    (∀ schema schema' entity entity', Edited spaceView schema schema' →
        Edited entityView entity entity' →
        projectEntityType policy schema entity = projectEntityType policy schema' entity') ∧
      ∀ edmx edmx', Edited metadataView edmx edmx' →
        projectService policy edmx = projectService policy edmx' := by
  constructor
  · intro schema schema' entity entity' hschema hentity
    calc projectEntityType policy schema entity
        = projectEntityType policy (spaceView.prune schema) (entityView.prune entity) :=
          (projectEntityType_prune policy rfl schema entity).symm
      _ = projectEntityType policy (spaceView.prune schema') (entityView.prune entity') := by
          rw [prune_edited hschema, prune_edited hentity]
      _ = projectEntityType policy schema' entity' :=
          projectEntityType_prune policy rfl schema' entity'
  · intro edmx edmx' h
    rw [← projectService_prune, prune_edited h, projectService_prune]

/-- A key that refers to a property. -/
def idKey : Element :=
  { name := "Key", children := [{ name := "PropertyRef", attributes := [("Name", "Id")] }] }

def idProperty : Element :=
  { name := "Property", attributes := [("Name", "Id"), ("Type", "Edm.Int32")] }

def schemaWith (children : List Element) : Element :=
  { name := "Schema", attributes := [("Namespace", "N")], children }

def metadataWith (schema : Element) : Element :=
  { name := "edmx:Edmx", children := [{ name := "edmx:DataServices", children := [schema] }] }

theorem edited_annotated : Edited entityView
    ⟨"EntityType", [("Name", "E")], [idKey, idProperty], none⟩
    ⟨"EntityType", [("Name", "E"), ("Abstract", "true")],
      [idProperty, { name := "Documentation" }, idKey], some "text"⟩ := by
  have hattribute := @Edit.add entityView "EntityType" [("Name", "E")] [] [idKey, idProperty] none
    "Abstract" "true" rfl
  have horder := @Edit.swap entityView "EntityType" [("Name", "E"), ("Abstract", "true")] [] [] none
    idKey idProperty (by decide)
  have hchild := @Edit.insert entityView "EntityType" [("Name", "E"), ("Abstract", "true")]
    [idProperty] [idKey] none { name := "Documentation" } rfl
  exact .trans _ _ _ (.rel _ _ hattribute) (.trans _ _ _ (.rel _ _ horder)
    (.trans _ _ _ (.rel _ _ hchild) (.rel _ _ (.retell .here))))

theorem edited_schema : Edited metadataView (metadataWith (schemaWith []))
    (metadataWith (schemaWith [{ name := "Annotations" }])) := by
  have hchild := @Edit.insert schemaView "Schema" [("Namespace", "N")] [] [] none
    { name := "Annotations" } rfl
  have hschema := @Edit.inside servicesView "edmx:DataServices" [] [] [] none _ _ schemaView rfl
    hchild
  exact .rel _ _ (@Edit.inside metadataView "edmx:Edmx" [] [] [] none _ _ servicesView rfl hschema)

/-- An entity type may be annotated, and its key may follow its property. A schema may hold other
things than entity types. -/
theorem projection_edited_annotated :
    projectEntityType .propertyRef (schemaWith [])
        ⟨"EntityType", [("Name", "E")], [idKey, idProperty], none⟩ =
      projectEntityType .propertyRef (schemaWith [])
        ⟨"EntityType", [("Name", "E"), ("Abstract", "true")],
          [idProperty, { name := "Documentation" }, idKey], some "text"⟩ ∧
    projectService .propertyRef (metadataWith (schemaWith [])) =
      projectService .propertyRef (metadataWith (schemaWith [{ name := "Annotations" }])) := by
  have h := projection_edited .propertyRef
  exact ⟨h.1 _ _ _ _ (.refl _) edited_annotated, h.2 _ _ edited_schema⟩

end EdmxGen
