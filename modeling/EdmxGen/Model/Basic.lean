import EdmxGen.Text.Basic

/-!
# The model of a service

The entity types of a service as templates see them. A property also keeps the attributes of its
element as they were written.

A type is named in text, either by itself or inside `Collection(…)`. The wrapper is found at the
first place where it is closed on the same line, and it reaches to the last closing parenthesis of
that line.
-/

namespace EdmxGen

open Text

/-! ## Type references -/

/-- A reference to a type: its name, whether many are meant, and whether there is none. -/
structure TypeRef where
  name : String
  isCollection : Bool
  isVoid : Bool
  deriving DecidableEq, Repr

namespace TypeRef

/-- The word in front of the element type of a collection. -/
def opening : List Char := "Collection(".toList

/-- The rest of a line before its last closing parenthesis. -/
def beforeLastClosing (line : List Char) : Option (List Char) :=
  match line.reverse.dropWhile (· != ')') with
  | [] => none
  | _ :: before => some before.reverse

/-- The element type of the first collection in a text. -/
def elementType? : List Char → Option (List Char)
  | [] => none
  | c :: cs =>
    match (stripPrefix? opening (c :: cs)).bind fun rest =>
      beforeLastClosing (rest.takeWhile (· != '\n')) with
    | some inner => some inner
    | none => elementType? cs

def classify (text : String) : TypeRef :=
  match elementType? text.toList with
  | some inner => ⟨String.ofList inner, true, String.ofList inner == "void"⟩
  | none => ⟨text, false, text == "void"⟩

end TypeRef

/-! ## Entity types -/

/-- A property of an entity type; `attributes` are those of its element, in order. -/
structure Property where
  name : String
  type : TypeRef
  nullable : Bool
  attributes : List (String × String)
  deriving DecidableEq, Repr

/-- The value of the first attribute of this name. -/
def Property.attribute? (p : Property) (name : String) : Option String :=
  (p.attributes.find? fun a => a.1 == name).map Prod.snd

/-- A property that leads to other entities. -/
structure NavigationProperty where
  name : String
  type : TypeRef
  nullable : Bool
  deriving DecidableEq, Repr

/-- An action or function bound to an entity type. -/
structure Operation where
  name : String
  returnType : Option TypeRef
  deriving DecidableEq, Repr

structure EntityType where
  name : String
  fullName : String
  properties : List Property
  navigationProperties : List NavigationProperty
  key : Option Property
  baseType : Option String
  isOpen : Bool
  actions : List Operation
  functions : List Operation
  deriving DecidableEq, Repr

/-- The entity types of a service, in the order of its metadata. -/
structure ServiceModel where
  entityTypes : List EntityType
  deriving DecidableEq, Repr

/-- The first entity type with this simple or full name. -/
def ServiceModel.entity? (m : ServiceModel) (name : String) : Option EntityType :=
  m.entityTypes.find? fun e => e.name == name || e.fullName == name

end EdmxGen
