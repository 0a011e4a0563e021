import EdmxGen.Config.Toml
import EdmxGen.Generator
import EdmxGen.Metadata
import EdmxGen.Session.World

/-!
# Generating a file in a run

The configuration is read from its file, or is the standard one if there is no such file. The
metadata of a service takes one request. What comes back and cannot be used is reported, except for
responses that are no text or no XML. Once the templates of the project are resolved, a file is
generated and written in one piece.
-/

namespace EdmxGen.Session

open Http

/-! ## The configuration -/

def loadConfig (path : String) : Attempt Config := do
  if !(← Attempt.lift (isSeen path)) then
    Attempt.lift (notify .configMissing)
    pure {}
  else
    let text ←
      Attempt.orFileIn ("Failed to read config file: " ++ Text.quotedPath path) (readFile path)
    match Config.ofText? text.toList with
    | some config => pure config
    | none => throw (.note ("Failed to parse config file: " ++ Text.quotedPath path))

/-- Makes the directory of a file unless it is there. -/
def ensureDirOf (path : String) : Attempt Unit := do
  match Path.parent? path with
  | none => pure ()
  | some dir =>
    if !(← Attempt.lift (isSeen dir)) then
      Attempt.orFileIn ("Failed to create config directory: " ++ Text.quotedPath dir)
        (createDirs dir)
      Attempt.lift (notify (.configDirMade dir))

def saveConfig (path : String) (config : Config) : Attempt Unit := do
  ensureDirOf path
  Attempt.orFileIn ("Failed to write config file: " ++ Text.quotedPath path)
    (writeFile path (String.ofList config.write))
  Attempt.lift (notify .configSaved)

/-- Saves the configuration after a use of an address. -/
def rememberAddress (path : String) (config : Config) (address : String) : Attempt Unit :=
  saveConfig path (config.remember address)

/-! ## Metadata -/

/-- Sends a request, unless none can be made or the server cannot be reached. -/
def send (env : Environment) (address : String) (o : RequestOptions) : Session Reply := do
  match prepare? address o with
  | none => pure .refused
  | some sending =>
    let w ← get
    match env.network w.requests sending with
    | .refused => pure .refused
    | reply =>
      set { w with requests := w.requests ++ [sending] }
      pure reply

/-- Reports the page of a response that is no success, unless it is empty. -/
def reportPage (env : Environment) (address : String) (r : Response) : Session Unit := do
  if r.isSuccess then pure ()
  else
    notify (.refusedByServer address r.status)
    if (r.page env.decoder).isEmpty then pure () else notify (.unusable (r.page env.decoder))

def fetchText (env : Environment) (address : String) (o : RequestOptions) :
    Session (Except Failure (List Char)) := do
  notify (.fetching address)
  if o.strictSsl = some false then notify .uncheckedCertificates
  match ← send env address o with
  | .response r =>
    reportPage env address r
    pure (r.text address)
  | _ => pure (.error (.transport address))

def parseMetadata (text : List Char) : Session (Except Failure Xml.Element) := do
  notify (.parsing (Text.Utf8.byteLength text))
  let whole := String.ofList text
  for payload in Metadata.reported whole do
    notify (.unusable payload.toList)
  pure (Metadata.parse whole)

def fetch (env : Environment) (address : String) (o : RequestOptions) :
    Session (Except Failure Xml.Element) := do
  match ← fetchText env address o with
  | .error f => pure (.error f)
  | .ok text => parseMetadata text

/-! ## The generated file -/

/-- The address that was given, or the one that the user names. -/
def chooseAddress (env : Environment) (given : Option String) (config : Config) : Attempt String :=
  match given with
  | some raw => Attempt.ofExcept ((Address.normalize raw).mapError .failure)
  | none => Attempt.ask (env.prompter.address config.recentAddresses)

/-- The shape that was given, or that the configuration prefers, or that the user chooses. -/
def chooseModularity (env : Environment) (given : Option Modularity) (config : Config) :
    Attempt Modularity :=
  match given.or config.settings.defaultModularity with
  | some m => pure m
  | none => Attempt.ask env.prompter.modularity

/-- The metadata, the moment and the notices of a run. -/
def source (env : Environment) : Generator.Source Session where
  fetch := fetch env
  announce n template := notify (.rendering n template)
  now := pure env.now

def resolveTemplates (dir : String) : Session (Except Failure Text.Dictionary) := do
  pure ((← Template.resolve templateStore dir).mapError .file)

/-- Generates a file for settings and writes it. -/
def generateFile (env : Environment) (config : Config) (settings : FileSettings)
    (root output : String) (policy : KeyPolicy) : Attempt GeneratedFile := do
  let dir := config.templateDir root
  let templates ←
    Attempt.orFailIn ("Failed to load templates from " ++ Text.quotedPath dir)
      (resolveTemplates dir)
  let file ←
    Attempt.orFailIn "Failed to generate service code"
      (Generator.generate (source env) Generator.dumpModel policy settings templates)
  Attempt.orFileIn ("Failed to write generated file: " ++ Text.quotedPath output)
    (writeFile output (String.ofList file.contents))
  Attempt.lift (notify (.wrote output))
  pure file

end EdmxGen.Session
