import EdmxGen.Json.Decode
import EdmxGen.Json.Printer
import EdmxGen.Model.Basic

/-!
# The model in JSON

The form in which a model is dumped and read back. A key and a base type are written only if there
are any, a return type is written as null if there is none.
-/

namespace EdmxGen

open Json

def listToJson {α : Type} (f : α → Json) (xs : List α) : Json := .arr (xs.map f)

namespace TypeRef

def toJson (t : TypeRef) : Json :=
  .obj [("Name", .str t.name), ("IsCollection", .bool t.isCollection), ("IsVoid", .bool t.isVoid)]

def fields : List Field :=
  [.required "Name" Draft.asString, .required "IsCollection" Draft.asBool,
    .required "IsVoid" Draft.asBool]

def read : Reader TypeRef := fun d => do
  let given ← d.asRecord .text "SimpleType" fields
  let name ← given.required "Name" Draft.asString
  let isCollection ← given.required "IsCollection" Draft.asBool
  let isVoid ← given.required "IsVoid" Draft.asBool
  pure ⟨name, isCollection, isVoid⟩

end TypeRef

namespace Property

def attributeToJson (a : String × String) : Json := .obj [("Key", .str a.1), ("Value", .str a.2)]

def attributeFields : List Field :=
  [.required "Key" Draft.asString, .required "Value" Draft.asString]

def readAttribute : Reader (String × String) := fun d => do
  let given ← d.asRecord .text "Attribute" attributeFields
  let key ← given.required "Key" Draft.asString
  let value ← given.required "Value" Draft.asString
  pure (key, value)

def toJson (p : Property) : Json :=
  .obj [("Name", .str p.name), ("Type", p.type.toJson), ("Nullable", .bool p.nullable),
    ("All", listToJson attributeToJson p.attributes)]

def fields : List Field :=
  [.required "Name" Draft.asString, .required "Type" TypeRef.read,
    .required "Nullable" Draft.asBool, .required "All" (Draft.asList readAttribute)]

def read : Reader Property := fun d => do
  let given ← d.asRecord .text "Property" fields
  let name ← given.required "Name" Draft.asString
  let type ← given.required "Type" TypeRef.read
  let nullable ← given.required "Nullable" Draft.asBool
  let attributes ← given.required "All" (Draft.asList readAttribute)
  pure ⟨name, type, nullable, attributes⟩

end Property

namespace NavigationProperty

def toJson (p : NavigationProperty) : Json :=
  .obj [("Name", .str p.name), ("Type", p.type.toJson), ("Nullable", .bool p.nullable)]

def fields : List Field :=
  [.required "Name" Draft.asString, .required "Type" TypeRef.read,
    .required "Nullable" Draft.asBool]

def read : Reader NavigationProperty := fun d => do
  let given ← d.asRecord .text "NavigationProperty" fields
  let name ← given.required "Name" Draft.asString
  let type ← given.required "Type" TypeRef.read
  let nullable ← given.required "Nullable" Draft.asBool
  pure ⟨name, type, nullable⟩

end NavigationProperty

namespace Operation

def toJson (o : Operation) : Json :=
  .obj [("Name", .str o.name),
    ("ReturnType", match o.returnType with | some t => t.toJson | none => .null)]

/-- A required field that is null or absent where there is no value: only an array must list it. -/
def nullableField {α : Type} (name : String) (reader : Reader α) : Field :=
  .required name (Draft.optional reader)

def fields : List Field :=
  [.required "Name" Draft.asString, nullableField "ReturnType" TypeRef.read]

def read : Reader Operation := fun d => do
  let given ← d.asRecord .text "Operation" fields
  let name ← given.required "Name" Draft.asString
  let returnType ← given.defaulted "ReturnType" (Draft.optional TypeRef.read) none
  pure ⟨name, returnType⟩

end Operation

namespace EntityType

def toJson (e : EntityType) : Json :=
  .obj ([("Name", .str e.name), ("Fullname", .str e.fullName),
      ("Properties", listToJson Property.toJson e.properties),
      ("NavigationProperties", listToJson NavigationProperty.toJson e.navigationProperties)] ++
    memberOf "Key" Property.toJson e.key ++ memberOf "BaseTypeFullName" .str e.baseType ++
    [("OpenType", .bool e.isOpen), ("Actions", listToJson Operation.toJson e.actions),
      ("Functions", listToJson Operation.toJson e.functions)])

def fields : List Field :=
  [.required "Name" Draft.asString, .required "Fullname" Draft.asString,
    .required "Properties" (Draft.asList Property.read),
    .required "NavigationProperties" (Draft.asList NavigationProperty.read),
    Operation.nullableField "Key" Property.read,
    Operation.nullableField "BaseTypeFullName" Draft.asString,
    .required "OpenType" Draft.asBool,
    .required "Actions" (Draft.asList Operation.read),
    .required "Functions" (Draft.asList Operation.read)]

def read : Reader EntityType := fun d => do
  let given ← d.asRecord .text "EntityType" fields
  let name ← given.required "Name" Draft.asString
  let fullName ← given.required "Fullname" Draft.asString
  let properties ← given.required "Properties" (Draft.asList Property.read)
  let navigation ← given.required "NavigationProperties" (Draft.asList NavigationProperty.read)
  let key ← given.defaulted "Key" (Draft.optional Property.read) none
  let baseType ← given.defaulted "BaseTypeFullName" (Draft.optional Draft.asString) none
  let isOpen ← given.required "OpenType" Draft.asBool
  let actions ← given.required "Actions" (Draft.asList Operation.read)
  let functions ← given.required "Functions" (Draft.asList Operation.read)
  pure ⟨name, fullName, properties, navigation, key, baseType, isOpen, actions, functions⟩

end EntityType

namespace ServiceModel

def toJson (m : ServiceModel) : Json :=
  .obj [("EntityTypes", listToJson EntityType.toJson m.entityTypes)]

def fields : List Field := [.required "EntityTypes" (Draft.asList EntityType.read)]

def read : Reader ServiceModel := fun d => do
  let given ← d.asRecord .text "ServiceModel" fields
  let entityTypes ← given.required "EntityTypes" (Draft.asList EntityType.read)
  pure ⟨entityTypes⟩

def ofText (text : String) : Except Fault ServiceModel := readWith read text.toList

/-- The text of a model, indented by two blanks and ended by a line break. -/
def dump (m : ServiceModel) : List Char := pretty "  " m.toJson ++ ['\n']

end ServiceModel

end EdmxGen
