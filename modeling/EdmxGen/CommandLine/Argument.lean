import EdmxGen.Model.Projection
import EdmxGen.Settings.Basic
import EdmxGen.Text.Basic

/-!
# Arguments

The options and positional arguments of the commands: how each is written, and which values it
takes.
-/

namespace EdmxGen.CommandLine

inductive Argument
  | output | address | modularity | template | root | keyPolicy
  | header | user | pass | bearer | timeout | insecure | proxy
  | file | entity
  | help | version
  deriving DecidableEq, Repr

/-- Why a command line is refused, or what it asks for instead of a command. -/
inductive Refusal
  | help
  | version
  | noArguments
  | missingArgument
  | unknownArgument
  | unknownCommand
  | badChoice
  | badNumber
  | conflict
  | surplusValue
  deriving DecidableEq, Repr

namespace Refusal

/-- What is wrong with a command line; nothing is if it asks for something else. -/
def message? : Refusal → Option String
  | help | version => none
  | noArguments => some "no command is given"
  | missingArgument => some "a required argument is missing"
  | unknownArgument => some "an argument is unknown"
  | unknownCommand => some "the command is unknown"
  | badChoice => some "a value is missing or cannot be chosen"
  | badNumber => some "a value is no number"
  | conflict => some "an argument cannot be used with another or twice"
  | surplusValue => some "an option that has no value is given one"

end Refusal

namespace Argument

/-- The word that stands for an option after two dashes; a positional argument has none. -/
def long? : Argument → Option String
  | output => some "output"
  | address => some "address"
  | modularity => some "modularity"
  | template => some "template"
  | root => some "root"
  | keyPolicy => some "key-policy"
  | header => some "header"
  | user => some "user"
  | pass => some "pass"
  | bearer => some "bearer"
  | timeout => some "timeout"
  | insecure => some "insecure"
  | proxy => some "proxy"
  | help => some "help"
  | version => some "version"
  | file | entity => none

/-- The letter that stands for an option after one dash. -/
def short? : Argument → Option Char
  | output => some 'o'
  | address => some 'a'
  | modularity => some 'm'
  | template => some 't'
  | header => some 'H'
  | help => some 'h'
  | version => some 'V'
  | _ => none

def takesValue : Argument → Bool
  | insecure | help | version => false
  | _ => true

def isRepeatable : Argument → Bool
  | header => true
  | _ => false

end Argument

/-! ## Values -/

/-- The shapes of the code by the names they have on the command line. -/
def modularities : List (String × Modularity) := [("ambient", .ambient), ("modular", .modular)]

/-- The key policies by the names they have on the command line. -/
def keyPolicies : List (String × KeyPolicy) :=
  [("first-property", .firstProperty), ("property-ref", .propertyRef)]

/-- What a name stands for; `anyCase` lets ASCII letters differ in case. -/
def choose? {α : Type} (choices : List (String × α)) (anyCase : Bool) (name : String) : Option α :=
  let form (s : String) : List Char := if anyCase then Text.lowerAscii s.toList else s.toList
  (choices.find? fun c => form c.1 == form name).map Prod.snd

/-- A number of 64 bits, perhaps with a plus sign and leading zeros. -/
def number? (s : String) : Option UInt64 :=
  let digits := match s.toList with | '+' :: cs => cs | cs => cs
  if digits.isEmpty ∨ !digits.all Text.isDigit then none
  else if Text.ofDecimal digits < UInt64.size then some (.ofNat (Text.ofDecimal digits)) else none

/-- Refuses a value that an argument cannot have: a path must not be empty, a choice must be known
and a number a number. -/
def Argument.check (a : Argument) (value : String) : Except Refusal Unit :=
  match a with
  | output | root | file => if value.isEmpty then .error .badChoice else .ok ()
  | modularity => if (choose? modularities false value).isSome then .ok () else .error .badChoice
  | keyPolicy => if (choose? keyPolicies false value).isSome then .ok () else .error .badChoice
  | timeout => if (number? value).isSome then .ok () else .error .badNumber
  | _ => .ok ()

end EdmxGen.CommandLine
