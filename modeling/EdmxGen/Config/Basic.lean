import EdmxGen.File.Path
import EdmxGen.Model.Projection
import EdmxGen.Settings.Basic

/-!
# The configuration of a user

What the program remembers between runs: the addresses used last, and settings that hold for every
project. The history holds no address twice, the last one first, and has at least one place.
-/

namespace EdmxGen

/-- Settings that hold for every project; the template directory is relative to a project's root. -/
structure Preferences where
  maxRecent : UInt64 := 10
  templateDir : String := ".vscode/odatatools/templates"
  keyPolicy : KeyPolicy := .firstProperty
  defaultModularity : Option Modularity := none
  deriving DecidableEq, Repr

/-- The configuration: the addresses used last, most recent first, and the settings. -/
structure Config where
  recentAddresses : List String := []
  settings : Preferences := {}
  deriving DecidableEq, Repr

namespace Config

instance : Inhabited Config := ⟨{}⟩

/-- How many addresses are kept. -/
def capacity (c : Config) : Nat := max c.settings.maxRecent.toNat 1

def remember (c : Config) (address : String) : Config :=
  { c with
    recentAddresses :=
      (address :: c.recentAddresses.filter fun known => known != address).take c.capacity }

def templateDir (c : Config) (root : String) : String := Path.join root c.settings.templateDir

/-- The variable that names the directory of the configuration. -/
def dirVariable : String := "ODATATOOLS_CONFIG_DIR"

/-- The file of the configuration, given the variables of the environment: in the directory that one
variable names, else in the user's directory for configurations, which only an absolute path moves.
-/
def path (lookup : String → Option String) : String :=
  let dir :=
    match lookup dirVariable with
    | some dir => dir
    | none =>
      let base :=
        match (lookup "XDG_CONFIG_HOME").filter Path.isAbsolute with
        | some base => base
        | none => Path.join ((lookup "HOME").getD "") ".config"
      Path.join base "odatatools"
  Path.join dir "config.toml"

end Config

end EdmxGen
