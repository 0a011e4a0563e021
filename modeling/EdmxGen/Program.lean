import EdmxGen.Command
import EdmxGen.CommandLine.Invocation
import EdmxGen.Terminal
import EdmxGen.Variables

/-!
# The program

A whole run: the variables are completed from their file, the log is opened, the command line is
read, and the command is run. A log that cannot be opened ends the run before its arguments are
looked at; bad options of the request end it before anything is tried.
-/

namespace EdmxGen

/-- What a run of the program is given from outside. -/
structure Start where
  arguments : List String
  vars : Variables
  now : Moment
  network : List Http.Sending → Http.Sending → Http.Reply
  prompter : Prompter

/-- How a run of the program ends: its exit code, the text of its output and of its errors, the
notices in its log unless that could not be opened, and the world. -/
structure Outcome where
  exit : Nat
  output : String := ""
  error : Option String := none
  log : Option (List Notice)
  world : World

/-- The text of the log of a run at a moment. -/
def Outcome.logText (o : Outcome) (now : Moment) : Option String :=
  o.log.map fun ns => String.join (ns.map fun n => n.line (String.ofList now.stamp))

namespace Program

def logPath : String := "odatatools.log"

def version : String := "odatatools 0.1.0"

def usage : String := "\n".intercalate
  ["Generate client code from OData $metadata documents", "",
    "Usage: odatatools <COMMAND>", "",
    "Commands:",
    "  generate   Generate a new service file",
    "  update     Regenerate a file from the settings in its header",
    "  metadata   Fetch a metadata document and list its entity types",
    "  entity     Print the projected model of one entity type",
    "  header     Show the generator settings stored in a file header",
    "  templates  List the project templates, bootstrapping the defaults when missing",
    "  help       Print this message or the help of the given subcommand(s)", "",
    "Options:",
    "  -h, --help     Print help",
    "  -V, --version  Print version", ""]

def isColoured (vs : Variables) : Bool :=
  match vs.get? "CLICOLOR_FORCE" with
  | some value => value != "0"
  | none => false

def logFilter (vs : Variables) : LogFilter := .ofText ((vs.get? "RUST_LOG").getD "").toList

def errorText (t : Trouble) : String := "Error: " ++ t.message

/-- The end of a run whose command line is refused or asks for help or the version. -/
def refuse (w : World) : CommandLine.Refusal → Outcome
  | .help => { exit := 0, output := usage, log := some [], world := w }
  | .version => { exit := 0, output := version ++ "\n", log := some [], world := w }
  | r => { exit := 2, error := r.message?.map ("error: " ++ ·), log := some [], world := w }

/-- Runs a command and tells of its failure. -/
def runCommand (env : Environment) (c : Command) : Session (Option Trouble) := do
  match ← (Command.run env c).run with
  | .ok _ => pure none
  | .error t =>
    Session.notify (.failed t)
    pure (some t)

def environment (s : Start) (vs : Variables) : Environment :=
  ⟨Config.path vs.get?, s.now, s.network, s.prompter⟩

/-- Runs what a command line asks for, in the world behind the opening of the log. -/
def runInvocation (s : Start) (vs : Variables) (i : CommandLine.Invocation) (w : World) : Outcome :=
  let (trouble, w) :=
    (do
      Session.notify .started
      match i.resolve with
      | .ok c => runCommand (environment s vs) c
      | .error f => pure (some (.header f)) : Session (Option Trouble)).run w
  { exit := if trouble.isSome then 1 else 0
    output := String.join (w.output.map (Span.write (isColoured vs)))
    error := trouble.map errorText
    log := some (w.notices.filter (logFilter vs).admits)
    world := w }

def run (s : Start) (w : World) : Outcome :=
  let vs := s.vars.withFile w.files
  match w.files.write logPath "" with
  | .error kind =>
    { exit := 1, error := some (errorText (.file ⟨kind, none⟩)), log := none, world := w }
  | .ok files =>
    let w := { w with files }
    match CommandLine.read s.arguments with
    | .error r => refuse w r
    | .ok i => runInvocation s vs i w

/-! ## Places

The paths of all files and directories that a run can read, as far as the files known so far tell
them: the file of variables may move the configuration, and the configuration the templates.
-/

/-- The files that may hold variables. -/
def variablePlaces (files : FileSystem) : List String :=
  (List.range (files.here.length + 1)).map fun n => Variables.above n Variables.fileName

/-- The template directory of a project under the configuration at a path. -/
def templatePlace (files : FileSystem) (path root : String) : String :=
  let config := (files.read path).toOption.bind fun text => Config.ofText? text.toList
  (config.getD {}).templateDir root

def commandPlaces (templates : String → String) : Command → List String
  | .generate o => [o.output, templates o.root]
  | .update file root => [file, templates root]
  | .header file => [file]
  | .templates root => [templates root]
  | .metadata _ _ | .entity _ _ _ _ => []

def places (s : Start) (files : FileSystem) : List String :=
  let path := Config.path (s.vars.withFile files).get?
  let named :=
    match CommandLine.read s.arguments with
    | .ok i => commandPlaces (templatePlace files path) i.command
    | .error _ => []
  variablePlaces files ++ [logPath, path] ++ named

end Program

end EdmxGen
