import EdmxGen.Model.Json
import EdmxGen.Proofs.Json.Record

/-!
# A model is read back

The dump of a model is a text of it (`ofText_dump`): every part of a model is read back from its
written form.
-/

namespace EdmxGen

open Json

/-! ## Type references -/

theorem asString_ofJson (s : String) : Draft.asString (Draft.ofJson (.str s)) = .ok s := rfl

theorem asBool_ofJson (b : Bool) : Draft.asBool (Draft.ofJson (.bool b)) = .ok b := rfl

theorem TypeRef.read_ofJson (t : TypeRef) : read (Draft.ofJson t.toJson) = .ok t := by
  have haccepts : Accepts fields [("Name", .str t.name), ("IsCollection", .bool t.isCollection),
      ("IsVoid", .bool t.isVoid)] := by
    simp [fields, Field.required, asString_ofJson, asBool_ofJson, Except.map]
  obtain ⟨given, hgiven, hget⟩ :=
    asRecord_ofJson .text "SimpleType" haccepts (apart_of_keys rfl (by decide))
  have hname : given.required "Name" Draft.asString = .ok t.name :=
    Given.required_some (hget "Name" (by decide)) (asString_ofJson _)
  have hcollection : given.required "IsCollection" Draft.asBool = .ok t.isCollection :=
    Given.required_some (hget "IsCollection" (by decide)) (asBool_ofJson _)
  have hvoid : given.required "IsVoid" Draft.asBool = .ok t.isVoid :=
    Given.required_some (hget "IsVoid" (by decide)) (asBool_ofJson _)
  simp only [read, toJson, hgiven, hname, hcollection, hvoid, bind, Except.bind, pure, Except.pure]

theorem TypeRef.optional_ofJson (t : TypeRef) :
    Draft.optional read (Draft.ofJson t.toJson) = .ok (some t) := optional_obj t.read_ofJson

/-! ## Properties -/

namespace Property

theorem readAttribute_ofJson (a : String × String) :
    readAttribute (Draft.ofJson (attributeToJson a)) = .ok a := by
  have haccepts : Accepts attributeFields [("Key", .str a.1), ("Value", .str a.2)] := by
    simp [attributeFields, Field.required, asString_ofJson, Except.map]
  obtain ⟨given, hgiven, hget⟩ :=
    asRecord_ofJson .text "Attribute" haccepts (apart_of_keys rfl (by decide))
  have hkey : given.required "Key" Draft.asString = .ok a.1 :=
    Given.required_some (hget "Key" (by decide)) (asString_ofJson _)
  have hvalue : given.required "Value" Draft.asString = .ok a.2 :=
    Given.required_some (hget "Value" (by decide)) (asString_ofJson _)
  simp only [readAttribute, attributeToJson, hgiven, hkey, hvalue, bind, Except.bind, pure,
    Except.pure]

theorem readAttributes_ofJson (as : List (String × String)) :
    Draft.asList readAttribute (Draft.ofJson (listToJson attributeToJson as)) = .ok as :=
  asList_map readAttribute_ofJson as

theorem read_ofJson (p : Property) : read (Draft.ofJson p.toJson) = .ok p := by
  have haccepts : Accepts fields [("Name", .str p.name), ("Type", p.type.toJson),
      ("Nullable", .bool p.nullable), ("All", listToJson attributeToJson p.attributes)] := by
    simp [fields, Field.required, asString_ofJson, asBool_ofJson, TypeRef.read_ofJson,
      readAttributes_ofJson, Except.map]
  obtain ⟨given, hgiven, hget⟩ :=
    asRecord_ofJson .text "Property" haccepts (apart_of_keys rfl (by decide))
  have hname : given.required "Name" Draft.asString = .ok p.name :=
    Given.required_some (hget "Name" (by decide)) (asString_ofJson _)
  have htype : given.required "Type" TypeRef.read = .ok p.type :=
    Given.required_some (hget "Type" (by decide)) p.type.read_ofJson
  have hnullable : given.required "Nullable" Draft.asBool = .ok p.nullable :=
    Given.required_some (hget "Nullable" (by decide)) (asBool_ofJson _)
  have hall : given.required "All" (Draft.asList readAttribute) = .ok p.attributes :=
    Given.required_some (hget "All" (by decide)) (readAttributes_ofJson _)
  simp only [read, toJson, hgiven, hname, htype, hnullable, hall, bind, Except.bind, pure,
    Except.pure]

theorem optional_ofJson (p : Property) :
    Draft.optional read (Draft.ofJson p.toJson) = .ok (some p) := optional_obj p.read_ofJson

end Property

theorem NavigationProperty.read_ofJson (p : NavigationProperty) :
    read (Draft.ofJson p.toJson) = .ok p := by
  have haccepts : Accepts fields [("Name", .str p.name), ("Type", p.type.toJson),
      ("Nullable", .bool p.nullable)] := by
    simp [fields, Field.required, asString_ofJson, asBool_ofJson, TypeRef.read_ofJson, Except.map]
  obtain ⟨given, hgiven, hget⟩ :=
    asRecord_ofJson .text "NavigationProperty" haccepts (apart_of_keys rfl (by decide))
  have hname : given.required "Name" Draft.asString = .ok p.name :=
    Given.required_some (hget "Name" (by decide)) (asString_ofJson _)
  have htype : given.required "Type" TypeRef.read = .ok p.type :=
    Given.required_some (hget "Type" (by decide)) p.type.read_ofJson
  have hnullable : given.required "Nullable" Draft.asBool = .ok p.nullable :=
    Given.required_some (hget "Nullable" (by decide)) (asBool_ofJson _)
  simp only [read, toJson, hgiven, hname, htype, hnullable, bind, Except.bind, pure, Except.pure]

/-! ## Operations -/

namespace Operation

def returnTypeToJson (o : Operation) : Json :=
  match o.returnType with
  | some t => t.toJson
  | none => .null

theorem returnType_ofJson (o : Operation) :
    Draft.optional TypeRef.read (Draft.ofJson o.returnTypeToJson) = .ok o.returnType := by
  rw [returnTypeToJson]
  cases o.returnType with
  | none => rfl
  | some t => exact t.optional_ofJson

theorem read_ofJson (o : Operation) : read (Draft.ofJson o.toJson) = .ok o := by
  have haccepts : Accepts fields [("Name", .str o.name), ("ReturnType", o.returnTypeToJson)] := by
    simp [fields, nullableField, Field.required, asString_ofJson, returnType_ofJson, Except.map]
  obtain ⟨given, hgiven, hget⟩ :=
    asRecord_ofJson .text "Operation" haccepts (apart_of_keys rfl (by decide))
  have hname : given.required "Name" Draft.asString = .ok o.name :=
    Given.required_some (hget "Name" (by decide)) (asString_ofJson _)
  have htype : given.defaulted "ReturnType" (Draft.optional TypeRef.read) none =
      .ok o.returnType :=
    Given.defaulted_some none (hget "ReturnType" (by decide)) o.returnType_ofJson
  have hjson : o.toJson = .obj [("Name", .str o.name), ("ReturnType", o.returnTypeToJson)] := rfl
  simp only [read, hjson, hgiven, hname, htype, bind, Except.bind, pure, Except.pure]

end Operation

/-! ## Entity types -/

namespace EntityType

variable (e : EntityType)

def members : List (String × Json) :=
  [("Name", .str e.name), ("Fullname", .str e.fullName),
      ("Properties", listToJson Property.toJson e.properties),
      ("NavigationProperties", listToJson NavigationProperty.toJson e.navigationProperties)] ++
    memberOf "Key" Property.toJson e.key ++ memberOf "BaseTypeFullName" .str e.baseType ++
    [("OpenType", .bool e.isOpen), ("Actions", listToJson Operation.toJson e.actions),
      ("Functions", listToJson Operation.toJson e.functions)]

theorem readProperties_ofJson (ps : List Property) :
    Draft.asList Property.read (Draft.ofJson (listToJson Property.toJson ps)) = .ok ps :=
  asList_map Property.read_ofJson ps

theorem readNavigation_ofJson (ps : List NavigationProperty) :
    Draft.asList NavigationProperty.read
      (Draft.ofJson (listToJson NavigationProperty.toJson ps)) = .ok ps :=
  asList_map NavigationProperty.read_ofJson ps

theorem readOperations_ofJson (os : List Operation) :
    Draft.asList Operation.read (Draft.ofJson (listToJson Operation.toJson os)) = .ok os :=
  asList_map Operation.read_ofJson os

theorem optional_string_ofJson (s : String) :
    Draft.optional Draft.asString (Draft.ofJson (.str s)) = .ok (some s) := rfl

theorem accepts : Accepts fields e.members := by
  simp [members, fields, Operation.nullableField, Field.required, asString_ofJson, asBool_ofJson,
    readProperties_ofJson, readNavigation_ofJson, readOperations_ofJson, Property.optional_ofJson,
    optional_string_ofJson, Except.map]

theorem apart : Apart fields e.members := by
  refine apart_of_sublist ?_ (by decide : (fields.map Field.name).Nodup) fields
  rw [members]
  simp only [List.map_append]
  exact (((List.Sublist.refl _).append keys_memberOf).append keys_memberOf).append
    (List.Sublist.refl _)

theorem read_ofJson : read (Draft.ofJson e.toJson) = .ok e := by
  obtain ⟨given, hgiven, hget⟩ := asRecord_ofJson .text "EntityType" e.accepts e.apart
  rw [members] at hget
  have hname : given.required "Name" Draft.asString = .ok e.name :=
    Given.required_some (v := .str e.name) ((hget "Name" (by decide)).trans (by simp)) rfl
  have hfull : given.required "Fullname" Draft.asString = .ok e.fullName :=
    Given.required_some (v := .str e.fullName) ((hget "Fullname" (by decide)).trans (by simp)) rfl
  have hproperties :
      given.required "Properties" (Draft.asList Property.read) = .ok e.properties :=
    Given.required_some ((hget "Properties" (by decide)).trans (by simp)) (readProperties_ofJson _)
  have hnavigation : given.required "NavigationProperties"
      (Draft.asList NavigationProperty.read) = .ok e.navigationProperties :=
    Given.required_some ((hget "NavigationProperties" (by decide)).trans (by simp))
      (readNavigation_ofJson _)
  have hkey : given.defaulted "Key" (Draft.optional Property.read) none = .ok e.key :=
    Given.defaulted_map ((hget "Key" (by decide)).trans (by simp)) fun p _ => p.optional_ofJson
  have hbase :
      given.defaulted "BaseTypeFullName" (Draft.optional Draft.asString) none = .ok e.baseType :=
    Given.defaulted_map ((hget "BaseTypeFullName" (by decide)).trans (by simp))
      fun s _ => optional_string_ofJson s
  have hopen : given.required "OpenType" Draft.asBool = .ok e.isOpen :=
    Given.required_some (v := .bool e.isOpen) ((hget "OpenType" (by decide)).trans (by simp)) rfl
  have hactions : given.required "Actions" (Draft.asList Operation.read) = .ok e.actions :=
    Given.required_some ((hget "Actions" (by decide)).trans (by simp)) (readOperations_ofJson _)
  have hfunctions : given.required "Functions" (Draft.asList Operation.read) = .ok e.functions :=
    Given.required_some ((hget "Functions" (by decide)).trans (by simp)) (readOperations_ofJson _)
  have hjson : e.toJson = .obj e.members := rfl
  simp only [read, hjson, hgiven, hname, hfull, hproperties, hnavigation, hkey, hbase, hopen,
    hactions, hfunctions, bind, Except.bind, pure, Except.pure]

end EntityType

/-! ## Numbers -/

theorem plain_listToJson {α : Type} {f : α → Json} (h : ∀ a, Plain (f a)) (as : List α) :
    Plain (listToJson f as) := plainItems_map h as

theorem TypeRef.plain_toJson (t : TypeRef) : Plain t.toJson := ⟨trivial, trivial, trivial, trivial⟩

theorem Property.plain_toJson (p : Property) : Plain p.toJson := by
  have h : ∀ a, Plain (attributeToJson a) := fun a => ⟨trivial, trivial, trivial⟩
  exact ⟨trivial, p.type.plain_toJson, trivial, plain_listToJson h p.attributes, trivial⟩

theorem NavigationProperty.plain_toJson (p : NavigationProperty) : Plain p.toJson :=
  ⟨trivial, p.type.plain_toJson, trivial, trivial⟩

theorem Operation.plain_toJson (o : Operation) : Plain o.toJson := by
  have h : Plain o.returnTypeToJson := by
    rw [returnTypeToJson]
    cases o.returnType with
    | none => trivial
    | some t => exact t.plain_toJson
  exact ⟨trivial, h, trivial⟩

theorem EntityType.plain_toJson (e : EntityType) : Plain e.toJson := by
  refine plainMembers_append.2 ⟨plainMembers_append.2 ⟨plainMembers_append.2 ⟨?_, ?_⟩, ?_⟩, ?_⟩
  · exact ⟨trivial, trivial, plain_listToJson Property.plain_toJson _,
      plain_listToJson NavigationProperty.plain_toJson _, trivial⟩
  · exact plainMembers_memberOf Property.plain_toJson
  · exact plainMembers_memberOf fun _ => trivial
  · exact ⟨trivial, plain_listToJson Operation.plain_toJson _,
      plain_listToJson Operation.plain_toJson _, trivial⟩

/-! ## Models -/

namespace ServiceModel

variable (m : ServiceModel)

theorem readEntityTypes_ofJson (es : List EntityType) :
    Draft.asList EntityType.read (Draft.ofJson (listToJson EntityType.toJson es)) = .ok es :=
  asList_map EntityType.read_ofJson es

theorem read_ofJson : read (Draft.ofJson m.toJson) = .ok m := by
  have haccepts :
      Accepts fields [("EntityTypes", listToJson EntityType.toJson m.entityTypes)] := by
    simp [fields, Field.required, readEntityTypes_ofJson, Except.map]
  obtain ⟨given, hgiven, hget⟩ :=
    asRecord_ofJson .text "ServiceModel" haccepts (apart_of_keys rfl (by decide))
  have htypes : given.required "EntityTypes" (Draft.asList EntityType.read) = .ok m.entityTypes :=
    Given.required_some (hget "EntityTypes" (by decide)) (readEntityTypes_ofJson _)
  simp only [read, toJson, hgiven, htypes, bind, Except.bind, pure, Except.pure]

theorem plain_toJson : Plain m.toJson := ⟨plain_listToJson EntityType.plain_toJson _, trivial⟩

/-- The dump of a model is a text of it. -/
theorem ofText_dump : ofText (String.ofList m.dump) = .ok m := by
  have hindent : Gap "  ".toList := by
    intro c hc
    obtain rfl : c = ' ' := by simpa using hc
    rfl
  have hbreak : Gap ['\n'] := by
    intro c hc
    rw [List.mem_singleton.1 hc]
    rfl
  have htext := Draft.ofText?_spells (spells_pretty hindent m.plain_toJson) gap_nil hbreak
  rw [ofText, String.toList_ofList, readWith, dump]
  rw [List.nil_append] at htext
  rw [htext]
  simp only [bind, Except.bind, m.read_ofJson]
  rfl

end ServiceModel

end EdmxGen
