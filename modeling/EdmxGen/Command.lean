import EdmxGen.Session.Generate

/-!
# Commands

What the program can be asked to do, with everything that the command line says about it, and how it
is done. Generating and updating write one file, then remember the address of its service. An update
takes the settings from the header of the file; only a file without a header makes it ask. Listing a
service remembers its address, after all else; showing one entity type does not.
-/

namespace EdmxGen

/-- What a generation takes from the command line. -/
structure GenerateOptions where
  output : String
  address : Option String := none
  modularity : Option Modularity := none
  template : Option String := none
  root : String := "."
  request : RequestOptions := {}
  keyPolicy : Option KeyPolicy := none
  deriving DecidableEq

inductive Command
  /-- Generates a new file. -/
  | generate (o : GenerateOptions)
  /-- Generates a file anew from its header. -/
  | update (file root : String)
  /-- Lists the entity types of a service. -/
  | metadata (address : Option String) (request : RequestOptions)
  /-- Shows the model of one entity type. -/
  | entity (name : String) (address : Option String) (request : RequestOptions)
      (keyPolicy : Option KeyPolicy)
  /-- Shows the settings in the header of a file. -/
  | header (file : String)
  /-- Lists the templates of a project. -/
  | templates (root : String)
  deriving DecidableEq

namespace Command

open Session

/-! ## Generating and updating files -/

/-- The number of entity types in words. -/
def countTypes (m : ServiceModel) : String := toString m.entityTypes.length ++ " entity types"

def generateFor (env : Environment) (o : GenerateOptions) : Attempt Unit := do
  let config ← loadConfig env.configPath
  let address ← chooseAddress env o.address config
  let modularity ← chooseModularity env o.modularity config
  Attempt.lift (notify (.generating modularity address))
  let settings : FileSettings := ⟨⟨address, modularity, o.request⟩, o.template⟩
  let file ←
    generateFile env config settings o.root o.output (o.keyPolicy.getD config.settings.keyPolicy)
  rememberAddress env.configPath config address
  Attempt.lift (print [⟨.success, "Generated"⟩, .plain (" " ++ o.output ++ " (" ++
    countTypes file.model ++ ", template " ++ file.settings.template.getD "-" ++ ")")])

/-- The settings of a file with this text, from its header or from the user. -/
def settingsFor (env : Environment) (config : Config) (text : String) : Attempt FileSettings := do
  match Header.decode text.toList with
  | .ok settings => pure settings
  | .error .noHeader =>
    Attempt.lift (notify .headerMissing)
    let address ← chooseAddress env none config
    let modularity ← chooseModularity env none config
    pure ⟨⟨address, modularity, {}⟩, none⟩
  | .error f => throw (.within "Failed to read the odata tools header" (.failure f))

def updateFile (env : Environment) (path root : String) : Attempt Unit := do
  let config ← loadConfig env.configPath
  let text ← Attempt.orFileIn ("Failed to read file: " ++ Text.quotedPath path) (readFile path)
  let settings ← settingsFor env config text
  let address := settings.service.source
  Attempt.lift (notify (.updating path address))
  let file ← generateFile env config settings root path config.settings.keyPolicy
  rememberAddress env.configPath config address
  Attempt.lift (print [⟨.success, "Updated"⟩,
    .plain (" " ++ path ++ " (" ++ countTypes file.model ++ ")")])

/-! ## Looking at services, files and templates -/

/-- The metadata of a service, for a command that shows it. -/
def loadMetadata (env : Environment) (address : String) (o : RequestOptions) :
    Attempt Xml.Element :=
  Attempt.orFailIn ("Failed to load metadata from " ++ address) (fetch env address o)

def project (policy : KeyPolicy) (edmx : Xml.Element) : Attempt ServiceModel :=
  Attempt.ofExcept ((projectService policy edmx).mapError .failure)

/-- The line for an entity type. -/
def describe (e : EntityType) : List Span :=
  [.plain "  ", ⟨.accent, e.fullName⟩,
    .plain (" (" ++ toString e.properties.length ++ " properties, " ++
      toString e.navigationProperties.length ++ " navigation properties, key " ++
      ((e.key.map (·.name)).getD "-") ++ ")")]

def listEntityTypes (env : Environment) (given : Option String) (o : RequestOptions) :
    Attempt Unit := do
  let config ← loadConfig env.configPath
  let address ← chooseAddress env given config
  let edmx ← loadMetadata env address o
  let model ← project .firstProperty edmx
  Attempt.lift (print [⟨.bold, "Metadata"⟩, .plain (" " ++ address)])
  match edmx.attribute? "Version" with
  | some version => Attempt.lift (print [.plain ("EDMX version " ++ version)])
  | none => pure ()
  for e in model.entityTypes do
    Attempt.lift (print (describe e))
  Attempt.lift (print [.plain (countTypes model)])
  rememberAddress env.configPath config address

def showEntityType (env : Environment) (name : String) (given : Option String) (o : RequestOptions)
    (policy : Option KeyPolicy) : Attempt Unit := do
  let config ← loadConfig env.configPath
  let address ← chooseAddress env given config
  let edmx ← loadMetadata env address o
  let model ← project (policy.getD config.settings.keyPolicy) edmx
  match model.entity? name with
  | some e => Attempt.lift (print [.plain (String.ofList (e.toJson.pretty "  "))])
  | none => throw (.note s!"Entity type '{name}' not found in {address}")

def showHeader (path : String) : Attempt Unit := do
  let text ← Attempt.orFileIn ("Failed to read file: " ++ Text.quotedPath path) (readFile path)
  let settings ←
    Attempt.orFailIn ("Failed to read the odata tools header of " ++ Text.quotedPath path)
      (pure (Header.decode text.toList))
  Attempt.lift (print [.plain (String.ofList (settings.toJson.pretty "  "))])

/-- The number of lines of a text; a line break at its end begins no line. -/
def lineCount (text : String) : Nat :=
  let breaks := text.toList.count '\n'
  if text.isEmpty ∨ text.endsWith "\n" then breaks else breaks + 1

def listTemplates (env : Environment) (root : String) : Attempt Unit := do
  let config ← loadConfig env.configPath
  let dir := config.templateDir root
  let templates ← Attempt.orFail (resolveTemplates dir)
  Attempt.lift (print [⟨.bold, "Templates in"⟩, .plain (" " ++ dir)])
  for t in templates.entries do
    Attempt.lift (print [.plain "  ", ⟨.accent, t.1⟩, .plain s!" ({lineCount t.2} lines)"])
  if templates.isEmpty then Attempt.lift (print [.plain "  (no .ot files)"])

def run (env : Environment) : Command → Attempt Unit
  | .generate o => generateFor env o
  | .update file root => updateFile env file root
  | .metadata address request => listEntityTypes env address request
  | .entity name address request policy => showEntityType env name address request policy
  | .header file => showHeader file
  | .templates root => listTemplates env root

end Command

end EdmxGen
