import EdmxGen.Json.Decode
import EdmxGen.Settings.Basic

/-!
# Settings in JSON

Absent options are not written, and neither is an empty set of headers. The settings of a file are
one object with the members of the service settings and the template.
-/

namespace EdmxGen

open Json

/-! ## Modularity -/

namespace Modularity

def toJson (m : Modularity) : Json := .str m.name

def read (origin : Origin) : Reader Modularity :=
  Draft.asVariant origin ("Ambient", ambient) ("Modular", modular)

end Modularity

/-! ## Credentials -/

namespace Auth

def toJson (a : Auth) : Json :=
  .obj (memberOf "user" .str a.user ++ memberOf "pass" .str a.pass ++
    memberOf "bearer" .str a.bearer)

/-- Reads a text that may be absent. -/
abbrev readText : Reader (Option String) := Draft.optional Draft.asString

def fields : List Field :=
  [.defaulted "user" readText, .defaulted "pass" readText, .defaulted "bearer" readText]

def read (origin : Origin) : Reader Auth := fun d => do
  let given ← d.asRecord origin "Auth" fields
  let user ← given.defaulted "user" readText none
  let pass ← given.defaulted "pass" readText none
  let bearer ← given.defaulted "bearer" readText none
  pure ⟨user, pass, bearer⟩

end Auth

/-! ## Request options -/

namespace RequestOptions

def headersToJson (h : Text.Dictionary) : Json := .obj (h.entries.map fun e => (e.1, .str e.2))

def toJson (o : RequestOptions) : Json :=
  .obj ((if o.headers.isEmpty then [] else [("headers", headersToJson o.headers)]) ++
    memberOf "auth" Auth.toJson o.auth ++
    memberOf "timeout" (fun n => .num (.natural n)) o.timeout ++
    memberOf "strictSSL" .bool o.strictSsl ++
    memberOf "proxy" .str o.proxy)

/-- Reads headers; of two with one name the later stands. -/
def readHeaders : Reader Text.Dictionary := fun d =>
  (Draft.asEntries d).map Text.Dictionary.ofList

def fields (origin : Origin) : List Field :=
  [.defaulted "headers" readHeaders,
    .defaulted "auth" (Draft.optional (Auth.read origin)),
    .defaulted "timeout" (Draft.optional Draft.asUInt64),
    .defaulted "strictSSL" (Draft.optional Draft.asBool),
    .defaulted "proxy" Auth.readText]

def read (origin : Origin) : Reader RequestOptions := fun d => do
  let given ← d.asRecord origin "RequestOptions" (fields origin)
  let headers ← given.defaulted "headers" readHeaders .empty
  let auth ← given.defaulted "auth" (Draft.optional (Auth.read origin)) none
  let timeout ← given.defaulted "timeout" (Draft.optional Draft.asUInt64) none
  let strictSsl ← given.defaulted "strictSSL" (Draft.optional Draft.asBool) none
  let proxy ← given.defaulted "proxy" Auth.readText none
  pure ⟨headers, auth, timeout, strictSsl, proxy⟩

end RequestOptions

/-! ## Service settings -/

namespace ServiceSettings

def members (s : ServiceSettings) : List (String × Json) :=
  [("source", .str s.source), ("modularity", s.modularity.toJson),
    ("requestOptions", s.requestOptions.toJson)]

def toJson (s : ServiceSettings) : Json := .obj s.members

def fields (origin : Origin) : List Field :=
  [.required "source" Draft.asString,
    .required "modularity" (Modularity.read origin),
    .defaulted "requestOptions" (RequestOptions.read origin)]

def ofGiven (origin : Origin) (given : Given) : Except Fault ServiceSettings := do
  let source ← given.required "source" Draft.asString
  let modularity ← given.required "modularity" (Modularity.read origin)
  let options ← given.defaulted "requestOptions" (RequestOptions.read origin) {}
  pure ⟨source, modularity, options⟩

def read (origin : Origin) : Reader ServiceSettings := fun d => do
  let given ← d.asRecord origin "GeneratorSettings" (fields origin)
  ofGiven origin given

end ServiceSettings

/-! ## File settings -/

namespace FileSettings

def toJson (s : FileSettings) : Json :=
  .obj (s.service.members ++ memberOf "useTemplate" .str s.template)

/-- The template, if it was given, and the members held back meanwhile. -/
structure Held where
  template : Option (Option String) := none
  members : List (String × Json) := []

/-- Reads the template and holds the other members back, each as a whole value. -/
def hold (held : Held) : List Draft.Member → Except Fault Held
  | [] => .ok held
  | m :: ms => do
    let key ← m.1
    if key = "useTemplate" then
      if held.template.isSome then .error (.shape (.duplicateField key))
      else
        let template ← Auth.readText m.2
        hold { held with template := some template } ms
    else
      let value ← m.2.toJson (maxDepth - 1)
      hold { held with members := held.members ++ [(key, value)] } ms

/-- Reads file settings; the fields of the service are looked at after the object was read. -/
def read : Reader FileSettings
  | .obj members stop => do
    let held ← hold {} members
    Draft.checkFlaw stop
    let given ← gather (ServiceSettings.fields .held) [] (Draft.ofMembers held.members)
    let service ← ServiceSettings.ofGiven .held given
    pure ⟨service, held.template.join⟩
  | d => .error (d.unexpected "struct TemplateGeneratorSettings")

end FileSettings

end EdmxGen
