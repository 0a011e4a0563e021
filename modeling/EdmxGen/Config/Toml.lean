import EdmxGen.Config.Basic
import EdmxGen.Toml.Printer
import EdmxGen.Toml.Reader

/-!
# The configuration in TOML

The form in which the configuration is saved. When it is read every field may be missing, unknown
keys do not matter, and the settings may also be an array of their fields in order. A date has no
key that matters, so it counts as settings of which all are missing.
-/

namespace EdmxGen.Config

/-! ## Writing -/

def writeLine (key : String) (value : List Char) : List Char :=
  key.toList ++ [' ', '=', ' '] ++ value ++ ['\n']

/-- The settings as the lines of their table. -/
def writePreferences (p : Preferences) : List Char :=
  writeLine "max_recent_addresses" (Text.decimal p.maxRecent.toNat) ++
    writeLine "template_dir" (Toml.writeText p.templateDir) ++
    writeLine "key_policy" (Toml.writeText p.keyPolicy.name) ++
    match p.defaultModularity with
    | some m => writeLine "default_modularity" (Toml.writeText m.name)
    | none => []

def write (c : Config) : List Char :=
  writeLine "recent_addresses" (Toml.writeTexts c.recentAddresses) ++
    "\n[settings]\n".toList ++ writePreferences c.settings

/-! ## Reading -/

def readText : Toml → Option String
  | .text s => some s
  | _ => none

def readTexts : Toml → Option (List String)
  | .array vs => vs.mapM readText
  | _ => none

/-- A natural number of 64 bits. -/
def readCount : Toml → Option UInt64
  | .integer (.ofNat n) => if n < UInt64.size then some (.ofNat n) else none
  | _ => none

/-- The value may stand for nothing. -/
def isHollow : Toml → Bool
  | .array [] | .table [] => true
  | _ => false

/-- One of two names, alone or as the only key of a table whose value stands for nothing. -/
def readVariant {α : Type} (a b : String × α) (v : Toml) : Option α :=
  let named (name : String) : Option α :=
    if name = a.1 then some a.2 else if name = b.1 then some b.2 else none
  match v with
  | .text s => named s
  | .table [(key, inner)] => if isHollow inner then named key else none
  | _ => none

def readKeyPolicy : Toml → Option KeyPolicy :=
  readVariant (KeyPolicy.firstProperty.name, .firstProperty)
    (KeyPolicy.propertyRef.name, .propertyRef)

def readModularity : Toml → Option Modularity :=
  readVariant (Modularity.ambient.name, .ambient) (Modularity.modular.name, .modular)

/-- A field that may be missing. -/
def field {α : Type} (read : Toml → Option α) (missing : α) : Option Toml → Option α
  | none => some missing
  | some v => read v

def ofFields (max dir policy modularity : Option Toml) : Option Preferences := do
  let standard : Preferences := {}
  let maxRecent ← field readCount standard.maxRecent max
  let templateDir ← field readText standard.templateDir dir
  let keyPolicy ← field readKeyPolicy standard.keyPolicy policy
  let defaultModularity ←
    field (fun v => (readModularity v).map some) standard.defaultModularity modularity
  pure { maxRecent, templateDir, keyPolicy, defaultModularity }

/-- The settings, as a table or an array. -/
def readPreferences : Toml → Option Preferences
  | .table entries =>
    let entries : Toml.Entries := entries
    ofFields (entries.get? "max_recent_addresses") (entries.get? "template_dir")
      (entries.get? "key_policy") (entries.get? "default_modularity")
  | .array vs => ofFields vs[0]? vs[1]? vs[2]? vs[3]?
  | .moment _ => some {}
  | _ => none

def ofEntries? (entries : Toml.Entries) : Option Config := do
  let recentAddresses ← field readTexts [] (entries.get? "recent_addresses")
  let settings ← field readPreferences {} (entries.get? "settings")
  pure { recentAddresses, settings }

def ofText? (text : List Char) : Option Config := (Toml.ofText? text).bind ofEntries?

end EdmxGen.Config
