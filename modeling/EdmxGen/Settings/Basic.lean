import EdmxGen.Text.Basic
import EdmxGen.Text.Dictionary

/-!
# Settings of a generated file

What a generated file is made from: the address of the service, the shape of the code, the options
of the request for the metadata, and the template.
-/

namespace EdmxGen

open Text

/-- The shape of the generated code. -/
inductive Modularity
  | ambient
  | modular
  deriving DecidableEq, Repr

namespace Modularity

/-- The shapes in the order in which they are offered. -/
def all : List Modularity := [modular, ambient]

def name : Modularity → String
  | ambient => "Ambient"
  | modular => "Modular"

end Modularity

/-- Credentials sent with a request. -/
structure Auth where
  user : Option String := none
  pass : Option String := none
  bearer : Option String := none
  deriving DecidableEq, Repr

/-- Options of a request: extra headers, credentials, a time limit in milliseconds, whether
certificates are checked, and a proxy. -/
structure RequestOptions where
  headers : Dictionary := .empty
  auth : Option Auth := none
  timeout : Option UInt64 := none
  strictSsl : Option Bool := none
  proxy : Option String := none
  deriving DecidableEq

namespace RequestOptions

instance : Inhabited RequestOptions := ⟨{}⟩

def withHeader (o : RequestOptions) (name value : String) : RequestOptions :=
  { o with headers := o.headers.insert name value }

end RequestOptions

/-- Why a text is no request header. -/
inductive HeaderFault
  | noColon (raw : String)
  | emptyName (raw : String)
  deriving DecidableEq, Repr

def HeaderFault.message : HeaderFault → String
  | .noColon raw => s!"Header '{raw}' must look like 'Name: value'"
  | .emptyName raw => s!"Header '{raw}' has an empty name"

/-- The name and the value of a header written with a colon between them. -/
def parseHeader (raw : String) : Except HeaderFault (String × String) :=
  match cut? [':'] raw.toList with
  | none => .error (.noColon raw)
  | some (name, value) =>
    if (trim name).isEmpty then .error (.emptyName raw)
    else .ok (String.ofList (trim name), String.ofList (trim value))

/-- What code is generated for which service. -/
structure ServiceSettings where
  source : String
  modularity : Modularity
  requestOptions : RequestOptions := {}
  deriving DecidableEq

/-- The settings of one generated file; without a template the first one is taken. -/
structure FileSettings where
  service : ServiceSettings
  template : Option String := none
  deriving DecidableEq

end EdmxGen
