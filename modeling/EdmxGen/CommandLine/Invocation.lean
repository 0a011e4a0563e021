import EdmxGen.Command
import EdmxGen.CommandLine.Matches

/-!
# Command lines

A command line names a command and its arguments. The options of the request are taken as they are
written first; only what they say about headers can still be wrong.
-/

namespace EdmxGen.CommandLine

structure RequestArguments where
  headers : List String := []
  user : Option String := none
  pass : Option String := none
  bearer : Option String := none
  timeout : Option UInt64 := none
  insecure : Bool := false
  proxy : Option String := none
  deriving DecidableEq, Repr

namespace RequestArguments

/-- Adds written headers one after the other; the first bad one decides. -/
def addHeaders (o : RequestOptions) : List String → Except HeaderFault RequestOptions
  | [] => .ok o
  | raw :: rest => do
    let (name, value) ← parseHeader raw
    addHeaders (o.withHeader name value) rest

/-- The options of a request. Credentials need a name or a token. -/
def toOptions (r : RequestArguments) : Except HeaderFault RequestOptions := do
  let o ← addHeaders
    { timeout := r.timeout
      strictSsl := if r.insecure then some false else none
      proxy := r.proxy }
    r.headers
  if r.user.isSome || r.bearer.isSome then
    pure { o with auth := some { user := r.user, pass := r.pass, bearer := r.bearer } }
  else pure o

end RequestArguments

/-- A command with standard options for its request, and what the line says about them. -/
structure Invocation where
  command : Command
  request : RequestArguments := {}
  deriving DecidableEq

namespace Invocation

def withRequest (o : RequestOptions) : Command → Command
  | .generate g => .generate { g with request := o }
  | .metadata address _ => .metadata address o
  | .entity name address _ policy => .entity name address o policy
  | c => c

/-- The command that is meant. -/
def resolve (i : Invocation) : Except HeaderFault Command :=
  i.request.toOptions.map fun o => withRequest o i.command

end Invocation

/-! ## Commands by name -/

inductive Verb
  | generate | update | metadata | entity | header | templates
  deriving DecidableEq, Repr

namespace Verb

def ofName? : String → Option Verb
  | "generate" => some generate
  | "update" => some update
  | "metadata" => some metadata
  | "entity" => some entity
  | "header" => some header
  | "templates" => some templates
  | _ => none

def requestOptions : List Argument :=
  [.header, .user, .pass, .bearer, .timeout, .insecure, .proxy]

def shape : Verb → Shape
  | generate =>
    { options :=
        [.help, .output, .address, .modularity, .template, .root, .keyPolicy] ++ requestOptions
      required := [.output] }
  | update => { options := [.help, .root], positionals := [.file], required := [.file] }
  | metadata => { options := [.help, .address] ++ requestOptions }
  | entity =>
    { options := [.help, .address, .keyPolicy] ++ requestOptions
      positionals := [.entity]
      required := [.entity] }
  | header => { options := [.help], positionals := [.file], required := [.file] }
  | templates => { options := [.help, .root] }

def requestOf (m : Matches) : RequestArguments where
  headers := m.all .header
  user := m.value? .user
  pass := m.value? .pass
  bearer := m.value? .bearer
  timeout := (m.value? .timeout).bind number?
  insecure := m.has .insecure
  proxy := m.value? .proxy

def rootOf (m : Matches) : String := (m.value? .root).getD "."

def policyOf (m : Matches) : Option KeyPolicy :=
  (m.value? .keyPolicy).bind (choose? keyPolicies false)

def invocation (v : Verb) (m : Matches) : Invocation :=
  let file := (m.value? .file).getD ""
  match v with
  | generate =>
    { command := .generate
        { output := (m.value? .output).getD ""
          address := m.value? .address
          modularity := (m.value? .modularity).bind (choose? modularities false)
          template := m.value? .template
          root := rootOf m
          keyPolicy := policyOf m }
      request := requestOf m }
  | update => { command := .update file (rootOf m) }
  | metadata => { command := .metadata (m.value? .address) {}, request := requestOf m }
  | entity =>
    { command := .entity ((m.value? .entity).getD "") (m.value? .address) {} (policyOf m)
      request := requestOf m }
  | header => { command := .header file }
  | templates => { command := .templates (rootOf m) }

end Verb

/-! ## Whole lines -/

/-- What a request for help leads to, given the names of the command that it is about. -/
def helpOn : List String → Refusal
  | [] => .help
  | [name] => if name = "help" ∨ (Verb.ofName? name).isSome then .help else .unknownCommand
  | _ => .unknownCommand

/-- The rest of a line after two dashes in front of a command. -/
def afterDashes : List String → Refusal
  | [] => .noArguments
  | name :: _ =>
    if name = "help" ∨ (Verb.ofName? name).isSome then .unknownArgument else .unknownCommand

/-- The options in front of a command: all of them ask for something else. -/
def beforeCommand : Shape := { options := [.help, .version] }

/-- The invocation that a command line asks for. -/
def read : List String → Except Refusal Invocation
  | [] => .error .noArguments
  | "--" :: args => .error (afterDashes args)
  | arg :: args =>
    match arg.toList with
    | '-' :: '-' :: body =>
      match Matches.long beforeCommand {} body with
      | .error r => .error r
      | .ok _ => .error .unknownArgument
    | '-' :: c :: cs =>
      match Matches.shorts beforeCommand {} (c :: cs) with
      | .error r => .error r
      | .ok _ => .error .unknownArgument
    | _ =>
      match Verb.ofName? arg with
      | some v => (Matches.read v.shape args).map v.invocation
      | none => .error (if arg = "help" then helpOn args else .unknownCommand)

end EdmxGen.CommandLine
