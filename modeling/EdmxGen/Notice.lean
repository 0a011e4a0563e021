import EdmxGen.Failure
import EdmxGen.Http.Response
import EdmxGen.Text.Basic
import EdmxGen.Text.Quoted

/-!
# Notices

What a run tells about itself along the way. Each notice has a level, the part of the program it
comes from, and a text. A log keeps those that its filter lets through.
-/

namespace EdmxGen

/-- How much a notice matters, the most first. -/
inductive Level
  | error
  | warn
  | info
  deriving DecidableEq, Repr

namespace Level

/-- How many levels matter as much or more. -/
def rank : Level → Nat
  | error => 1
  | warn => 2
  | info => 3

/-- The name of a level, as wide as the widest. -/
def name : Level → String
  | error => "ERROR"
  | warn => "WARN "
  | info => "INFO "

end Level

/-- What a run tells along the way. -/
inductive Notice
  | started
  | configMissing
  | configDirMade (dir : String)
  | configSaved
  | templatesCopied (dir : String)
  | fetching (address : String)
  | uncheckedCertificates
  | refusedByServer (address : String) (status : Nat)
  | parsing (bytes : Nat)
  | unusable (payload : List Char)
  | rendering (entityTypes : Nat) (template : String)
  | wrote (path : String)
  | generating (modularity : Modularity) (address : String)
  | updating (path address : String)
  | headerMissing
  | failed (t : Trouble)
  deriving DecidableEq, Repr

namespace Notice

def level : Notice → Level
  | unusable _ | failed _ => .error
  | uncheckedCertificates | refusedByServer _ _ | headerMissing => .warn
  | _ => .info

def source : Notice → String
  | started | failed _ => "odatatools"
  | configMissing | configDirMade _ | configSaved => "odatatools::config"
  | templatesCopied _ => "odatatools::codegen::templates"
  | fetching _ | uncheckedCertificates | refusedByServer _ _ => "odatatools::api::client"
  | parsing _ | unusable _ => "odatatools::metadata"
  | rendering _ _ => "odatatools::codegen::generator"
  | wrote _ => "odatatools::commands"
  | generating _ _ => "odatatools::commands::generate"
  | updating _ _ | headerMissing => "odatatools::commands::update"

def text : Notice → String
  | started => "Starting odatatools"
  | configMissing => "Config file doesn't exist, using defaults"
  | configDirMade dir => "Created config directory: " ++ Text.quotedPath dir
  | configSaved => "Config saved successfully"
  | templatesCopied dir =>
    "No templates found in " ++ Text.quotedPath dir ++ ", copying the default set"
  | fetching address => s!"Fetching metadata from {address}"
  | uncheckedCertificates => "TLS certificate validation is disabled for this request"
  | refusedByServer address status =>
    s!"Metadata request to {address} failed with {status} " ++ Http.reason status
  | parsing bytes => s!"Starting metadata XML parsing, XML length: {bytes} bytes"
  | unusable payload => "Received invalid data:\n" ++ String.ofList payload
  | rendering n template => s!"Generating {n} entity types with template {template}"
  | wrote path => "Wrote " ++ Text.quotedPath path
  | generating m address => s!"Generating " ++ m.name ++ s!" service from {address}"
  | updating path address => "Updating " ++ Text.quotedPath path ++ s!" from {address}"
  | headerMissing => "No odata tools header found, asking for settings"
  | failed t => "Command failed: " ++ t.message

/-- The notice as it stands in a log. -/
def line (n : Notice) (stamp : String) : String :=
  "[" ++ stamp ++ " " ++ n.level.name ++ " " ++ n.source ++ "] " ++ n.text ++ "\n"

def payload? : Notice → Option (List Char)
  | unusable payload => some payload
  | _ => none

end Notice

/-! ## Filters -/

/-- Lets notices of a part of the program through up to a level, none for no level. -/
structure Directive where
  source : String
  rank : Nat
  deriving DecidableEq, Repr

/-- A log filter; of the directives that fit a notice the one for the smallest part decides. -/
structure LogFilter where
  directives : List Directive
  deriving DecidableEq, Repr

namespace LogFilter

/-- The rank that the name of a level stands for, in any case; levels below the last let all
through. -/
def rank? (name : List Char) : Option Nat :=
  match String.ofList (Text.lowerAscii name) with
  | "off" => some 0
  | "error" => some 1
  | "warn" => some 2
  | "info" => some 3
  | "debug" => some 4
  | "trace" => some 5
  | _ => none

/-- A directive as it is written: a level, a part of the program, or both. -/
def directive? (cs : List Char) : Option Directive :=
  match Text.splitAt (· == '=') cs with
  | [one] =>
    match rank? one with
    | some rank => some ⟨"", rank⟩
    | none => some ⟨String.ofList one, 5⟩
  | [source, level] =>
    let level := Text.trim level
    if level.isEmpty then some ⟨String.ofList source, 5⟩
    else (rank? level).map fun rank => ⟨String.ofList source, rank⟩
  | _ => none

/-- The filter that a text describes; where it says nothing only errors pass. -/
def ofText (text : List Char) : LogFilter :=
  let written := (text.takeWhile (· != '/'))
  let pieces := (Text.splitAt (· == ',') written).map Text.trim
  match (pieces.filter fun p => !p.isEmpty).filterMap directive? with
  | [] => ⟨[⟨"", 1⟩]⟩
  | ds => ⟨ds⟩

/-- The longer source; of two as long the later directive. -/
def narrower (a b : Directive) : Directive :=
  if a.source.length ≤ b.source.length then b else a

def admits (f : LogFilter) (n : Notice) : Bool :=
  match f.directives.filter fun d => n.source.startsWith d.source with
  | [] => false
  | d :: ds => n.level.rank ≤ (ds.foldl narrower d).rank

end LogFilter

end EdmxGen
