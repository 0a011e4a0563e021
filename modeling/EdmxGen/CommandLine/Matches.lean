import EdmxGen.CommandLine.Argument
import EdmxGen.Text.Basic

/-!
# The arguments of a command

Arguments are looked at one after the other, and the first problem decides. The value of an option
that stands on its own is only looked at when the next argument has been recognised, so an unknown
argument behind it comes first. After two dashes everything is positional.
-/

namespace EdmxGen.CommandLine

/-- Which arguments a command has, the positional ones in order, and which it cannot do without. -/
structure Shape where
  options : List Argument
  positionals : List Argument := []
  required : List Argument := []

/-- The arguments found so far. `pending` is one whose value is not looked at yet or still to come;
`waiting` means that it is to come; `taken` counts positional arguments. -/
structure Matches where
  values : List (Argument × String) := []
  pending : Option (Argument × Option String) := none
  waiting : Bool := false
  taken : Nat := 0
  trailing : Bool := false
  deriving Repr

namespace Matches

def has (m : Matches) (a : Argument) : Bool := m.values.any fun v => v.1 == a

def value? (m : Matches) (a : Argument) : Option String :=
  (m.values.find? fun v => v.1 == a).map Prod.snd

def all (m : Matches) (a : Argument) : List String :=
  (m.values.filter fun v => v.1 == a).map Prod.snd

/-- Takes an argument up with its value, the empty one for an option that has none. -/
def accept (m : Matches) (a : Argument) (value : Option String) : Except Refusal Matches := do
  if a.takesValue && value.isNone then throw .badChoice
  if a = .help then throw .help
  if a = .version then throw .version
  if m.has a && !a.isRepeatable then throw .conflict
  let value := value.getD ""
  a.check value
  pure { m with values := m.values ++ [(a, value)] }

def settle (m : Matches) : Except Refusal Matches :=
  match m.pending with
  | none => .ok m
  | some (a, value) => accept { m with pending := none } a value

def attach (m : Matches) (a : Argument) (value : String) : Except Refusal Matches := do
  let m ← m.settle
  let m ← m.accept a (some value)
  pure { m with waiting := false }

def begin (m : Matches) (a : Argument) : Except Refusal Matches := do
  let m ← m.settle
  if a.takesValue then pure { m with pending := some (a, none), waiting := true }
  else
    let m ← m.accept a none
    pure { m with waiting := false }

def long (shape : Shape) (m : Matches) (body : List Char) : Except Refusal Matches :=
  let name := String.ofList (body.takeWhile (· != '='))
  match shape.options.find? fun a => a.long? == some name, body.dropWhile (· != '=') with
  | none, _ => .error .unknownArgument
  | some a, '=' :: value =>
    if a.takesValue then m.attach a (String.ofList value) else .error .surplusValue
  | some a, _ => m.begin a

/-- Options after one dash; the first one with a value takes the rest for it. -/
def shorts (shape : Shape) (m : Matches) : List Char → Except Refusal Matches
  | [] => .ok m
  | c :: cs =>
    match shape.options.find? fun a => a.short? == some c with
    | none => .error .unknownArgument
    | some a =>
      if a.takesValue then
        match cs with
        | [] => m.begin a
        | '=' :: value => m.attach a (String.ofList value)
        | value => m.attach a (String.ofList value)
      else do
        let m ← m.begin a
        shorts shape m cs

def positional (shape : Shape) (m : Matches) (arg : String) : Except Refusal Matches :=
  match shape.positionals[m.taken]? with
  | none => .error .unknownArgument
  | some a => do
    let m ← m.settle
    pure { m with pending := some (a, some arg), waiting := false, taken := m.taken + 1 }

def step (shape : Shape) (m : Matches) (arg : String) : Except Refusal Matches :=
  if m.trailing then m.positional shape arg
  else
    match arg.toList with
    | ['-', '-'] => .ok { m with trailing := true }
    | '-' :: '-' :: body => long shape m body
    | '-' :: c :: cs => shorts shape m (c :: cs)
    | _ =>
      match m.waiting, m.pending with
      | true, some (a, _) => .ok { m with pending := some (a, some arg), waiting := false }
      | _, _ => m.positional shape arg

def steps (shape : Shape) (m : Matches) : List String → Except Refusal Matches
  | [] => .ok m
  | arg :: args => do
    let m ← step shape m arg
    steps shape m args

/-- The arguments of a command, if they fit together and none is missing. -/
def read (shape : Shape) (args : List String) : Except Refusal Matches := do
  let m ← steps shape {} args
  let m ← m.settle
  if m.has .user && m.has .bearer then throw .conflict
  if !shape.required.all m.has then throw .missingArgument
  pure m

end Matches

end EdmxGen.CommandLine
