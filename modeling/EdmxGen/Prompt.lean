import EdmxGen.Address
import EdmxGen.Settings.Basic

/-!
# Questions to the user

Whoever answers is a function of the questions asked so far, so an answer may depend on all of them.
A question is kept in the record of questions before its answer is used.
-/

namespace EdmxGen

/-- A question: a choice among items, or a text. -/
inductive Question
  | select (prompt : String) (items : List String) (initial : Nat)
  | input (prompt : String) (initial : Option String) (placeholder : String)
  deriving DecidableEq, Repr

/-- An answer: a position, a text, no answer, or the reason why the question cannot be asked. -/
inductive Answer
  | position (n : Nat)
  | text (s : String)
  | none
  | refused (reason : String)
  deriving DecidableEq, Repr

/-- The answer to the last of the questions asked so far. -/
abbrev Prompter := List Question → Answer

/-- Questions in the order in which they were asked, and what became of the answers. -/
abbrev Asking := ExceptT Trouble (StateM (List Question))

namespace Prompter

def ask (p : Prompter) (q : Question) : Asking Answer := do
  modify (· ++ [q])
  match p (← get) with
  | .refused reason => throw (.note reason)
  | answer => pure answer

/-- Asks for a choice; an answer that is no position is no choice. -/
def select (p : Prompter) (prompt : String) (items : List String) : Asking (Option Nat) := do
  match ← p.ask (.select prompt items 0) with
  | .position n => pure (some n)
  | _ => pure none

/-- Asks for a text; an answer that is no text is no text. -/
def input (p : Prompter) (prompt : String) (initial : Option String) (placeholder : String) :
    Asking (Option String) := do
  match ← p.ask (.input prompt initial placeholder) with
  | .text s => pure (some s)
  | _ => pure none

def modularity (p : Prompter) : Asking Modularity := do
  let choice ← p.select "Select to generate the service as a modular or ambient version"
    (Modularity.all.map Modularity.name)
  match choice.bind fun n => Modularity.all[n]? with
  | some m => pure m
  | none => throw (.note "No modularity selected")

/-- The item that asks for an address which is not in the history. -/
def newEntry : String := "New Entry..."

/-- An address as an example of what to enter. -/
def placeholder : String := "http://my.odata.service/service.svc"

/-- The position of the chosen address in the history counted from one, or none for a new entry. -/
def offer (p : Prompter) (recent : List String) : Asking (Option String) :=
  if recent.isEmpty then pure none
  else do
    let prompt := "Select from recently used addresses or add new entry"
    match ← p.select prompt (newEntry :: recent) with
    | some 0 => pure none
    | some (n + 1) => pure recent[n]?
    | none => throw (.failure .noAddress)

/-- Asks for the address of a service, first among those used recently. -/
def address (p : Prompter) (recent : List String) : Asking String := do
  let picked ← p.offer recent
  let given ←
    match picked with
    | some a => pure (some a)
    | none => p.input "Please enter uri of your oData service" recent.head? placeholder
  match given with
  | none => throw (.failure .noAddress)
  | some raw => ExceptT.mk (pure ((Address.normalize raw).mapError .failure))

end Prompter

end EdmxGen
