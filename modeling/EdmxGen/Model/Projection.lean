import EdmxGen.Failure
import EdmxGen.Model.Basic
import EdmxGen.Xml.Element

/-!
# From metadata to the model

The entity types of every schema inside the first `edmx:DataServices`, in document order. The first
attribute that is missing decides the failure. A key policy says which property is the key of an
entity type that has a `Key` element; it decides nothing else.
-/

namespace EdmxGen

open Xml

/-- Which property is the key of an entity type. -/
inductive KeyPolicy
  /-- The first property. -/
  | firstProperty
  /-- The property that the first reference of the `Key` element names. -/
  | propertyRef
  deriving DecidableEq, Repr

namespace KeyPolicy

instance : Inhabited KeyPolicy := ⟨firstProperty⟩

def name : KeyPolicy → String
  | firstProperty => "first-property"
  | propertyRef => "property-ref"

end KeyPolicy

/-- The value of an attribute that an element must have. -/
def requiredAttribute (e : Element) (name : String) : Except Failure String :=
  match e.attribute? name with
  | some value => .ok value
  | none => .error (.missingAttribute e.name name)

/-- The property of a `Property` element; only the text `false` denies it a null value. -/
def projectProperty (e : Element) : Except Failure Property := do
  let name ← requiredAttribute e "Name"
  let type ← requiredAttribute e "Type"
  pure ⟨name, .classify type, e.attribute? "Nullable" != some "false", e.attributes⟩

/-- The property of a `NavigationProperty` element, which is always nullable. -/
def projectNavigation (e : Element) : Except Failure NavigationProperty := do
  let name ← requiredAttribute e "Name"
  let type ← requiredAttribute e "Type"
  pure ⟨name, .classify type, true⟩

/-- Applies a projection to each element, up to the first failure. -/
def projectEach {α : Type} (f : Element → Except Failure α) : List Element → Except Failure (List α)
  | [] => .ok []
  | e :: es => do
    let a ← f e
    let as ← projectEach f es
    pure (a :: as)

/-- The key among properties, for a `Key` element. -/
def selectKey (policy : KeyPolicy) (key : Element) (properties : List Property) : Option Property :=
  match policy with
  | .firstProperty => properties.head?
  | .propertyRef =>
    ((key.child? "PropertyRef").bind fun r => r.attribute? "Name").bind fun name =>
      properties.find? fun p => p.name == name

def isTrue (value : String) : Bool := value == "true" || value == "1"

/-- The entity type of an `EntityType` element inside a schema. -/
def projectEntityType (policy : KeyPolicy) (schema entity : Element) :
    Except Failure EntityType := do
  let name ← requiredAttribute entity "Name"
  let space ← requiredAttribute schema "Namespace"
  let properties ← projectEach projectProperty (entity.childrenNamed "Property")
  let navigation ← projectEach projectNavigation (entity.childrenNamed "NavigationProperty")
  pure {
    name
    fullName := space ++ "." ++ name
    properties
    navigationProperties := navigation
    key := (entity.child? "Key").bind fun key => selectKey policy key properties
    baseType := entity.attribute? "BaseType"
    isOpen := ((entity.attribute? "OpenType").map isTrue).getD false
    actions := []
    functions := [] }

def projectSchema (policy : KeyPolicy) (schema : Element) : Except Failure (List EntityType) :=
  projectEach (projectEntityType policy schema) (schema.childrenNamed "EntityType")

def projectSchemas (policy : KeyPolicy) : List Element → Except Failure (List EntityType)
  | [] => .ok []
  | schema :: schemas => do
    let types ← projectSchema policy schema
    let others ← projectSchemas policy schemas
    pure (types ++ others)

/-- The model of metadata, given its outermost element. -/
def projectService (policy : KeyPolicy) (edmx : Element) : Except Failure ServiceModel :=
  match edmx.child? "edmx:DataServices" with
  | none => .error .missingServices
  | some services => do
    let types ← projectSchemas policy (services.childrenNamed "Schema")
    pure ⟨types⟩

end EdmxGen
