/-!
# TOML values and tables under construction

A value of a TOML document; tables keep the order of their keys, and reals and dates keep the text
in which they are written. Headers and dotted keys build the tables of a document bit by bit. A
draft keeps how each table came to be, which decides what may still be added to it: a table has one
header at most, a table with a header takes no dotted keys from outside, and a value that was
written in one piece is finished.
-/

namespace EdmxGen

inductive Toml
  | text (s : String)
  | integer (n : Int)
  | real (written : String)
  | boolean (b : Bool)
  | moment (written : String)
  | array (values : List Toml)
  | table (entries : List (String × Toml))
  deriving Repr

namespace Toml

/-- The entries of a table, of which a key has at most one. -/
abbrev Entries := List (String × Toml)

def Entries.get? (entries : Entries) (key : String) : Option Toml :=
  (entries.find? fun e => e.1 == key).map Prod.snd

/-! ## Drafts -/

/-- How a table came to be. -/
inductive Origin
  /-- A header names a table inside it. -/
  | implied
  /-- A dotted key leads through it. -/
  | dotted
  /-- It has a header of its own. -/
  | headed
  deriving DecidableEq, Repr

/-- What a key stands for: a finished value, a table that may grow, or tables of which the last may
grow. -/
inductive Draft
  | finished (v : Toml)
  | table (origin : Origin) (entries : List (String × Draft))
  | tables (earlier : List (List (String × Draft))) (last : List (String × Draft))

namespace Draft

/-- The entries of a draft table. -/
abbrev Entries := List (String × Draft)

def get? (entries : Entries) (key : String) : Option Draft :=
  (entries.find? fun e => e.1 == key).map Prod.snd

/-- The entries with another draft for a key. -/
def put (entries : Entries) (key : String) (d : Draft) : Entries :=
  if (get? entries key).isSome then
    entries.map fun e => if e.1 == key then (key, d) else e
  else entries ++ [(key, d)]

/-- Adds a value below a path of dotted keys. -/
def add (key : String) (v : Toml) : List String → Entries → Option Entries
  | [], entries =>
    if (get? entries key).isSome then none else some (entries ++ [(key, .finished v)])
  | k :: ks, entries =>
    match get? entries k with
    | none => (add key v ks []).map fun es => put entries k (.table .dotted es)
    | some (.table origin es) =>
      if origin = .headed ∨ (ks.isEmpty ∧ origin ≠ .dotted) then none
      else (add key v ks es).map fun es => put entries k (.table origin es)
    | some (.tables earlier last) =>
      if ks.isEmpty then none
      else (add key v ks last).map fun es => put entries k (.tables earlier es)
    | some (.finished _) => none

/-- Changes the table to which a path of header keys leads; tables on the way may be new. -/
def modifyAt (f : Entries → Option Entries) : List String → Entries → Option Entries
  | [], entries => f entries
  | k :: ks, entries =>
    match get? entries k with
    | none => (modifyAt f ks []).map fun es => put entries k (.table .implied es)
    | some (.table origin es) => (modifyAt f ks es).map fun es => put entries k (.table origin es)
    | some (.tables earlier last) =>
      (modifyAt f ks last).map fun es => put entries k (.tables earlier es)
    | some (.finished _) => none

/-- Gives a table its header. -/
def head (key : String) (entries : Entries) : Option Entries :=
  match get? entries key with
  | none => some (put entries key (.table .headed []))
  | some (.table .implied es) => some (put entries key (.table .headed es))
  | some _ => none

/-- Begins one more of several tables. -/
def begin (key : String) (entries : Entries) : Option Entries :=
  match get? entries key with
  | none => some (put entries key (.tables [] []))
  | some (.tables earlier last) => some (put entries key (.tables (earlier ++ [last]) []))
  | some _ => none

mutual

def finish : Draft → Toml
  | finished v => v
  | table _ entries => .table (finishEntries entries)
  | tables earlier last => .array (finishTables earlier ++ [.table (finishEntries last)])

def finishEntries : List (String × Draft) → List (String × Toml)
  | [] => []
  | (key, d) :: entries => (key, finish d) :: finishEntries entries

def finishTables : List (List (String × Draft)) → List Toml
  | [] => []
  | entries :: rest => .table (finishEntries entries) :: finishTables rest

end

end Draft

end Toml

end EdmxGen
