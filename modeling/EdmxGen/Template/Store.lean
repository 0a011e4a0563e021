import EdmxGen.Failure
import EdmxGen.File.Path
import EdmxGen.Text.Dictionary
import EdmxGen.Text.Quoted

/-!
# Template directories

The templates of a project are the `.ot` files of one directory. Where there are none the bundled
ones are copied first, so that there is a set to edit. What files can be reached how is left to a
store.
-/

namespace EdmxGen.Template

/-! ## Bundled templates -/

/-- One interface for each entity type. -/
def interfaces : String :=
  "\x7b\x7b#each EntityTypes\x7d\x7d\n" ++
  "interface \x7b\x7bName\x7d\x7d\x7b\x7b#if BaseTypeFullName\x7d\x7d extends " ++
  "\x7b\x7bBaseTypeFullName\x7d\x7d\x7b\x7b/if\x7d\x7d \x7b\n" ++
  "\x7b\x7b#each Properties\x7d\x7d\n" ++
  "    \x7b\x7bName\x7d\x7d\x7b\x7b#if Nullable\x7d\x7d?\x7b\x7b/if\x7d\x7d: " ++
  "\x7b\x7bType.Name\x7d\x7d\x7b\x7b#if Type.IsCollection\x7d\x7d[]\x7b\x7b/if\x7d\x7d;\n" ++
  "\x7b\x7b/each\x7d\x7d\n" ++
  "\x7b\x7b#each NavigationProperties\x7d\x7d\n" ++
  "    \x7b\x7bName\x7d\x7d?: " ++
  "\x7b\x7bType.Name\x7d\x7d\x7b\x7b#if Type.IsCollection\x7d\x7d[]\x7b\x7b/if\x7d\x7d;\n" ++
  "\x7b\x7b/each\x7d\x7d\n" ++
  "\x7d\n" ++
  "\x7b\x7b/each\x7d\x7d\n"

/-- One class for the entities of each type. -/
def proxyClass : String :=
  "\x7b\x7b#each EntityTypes\x7d\x7d\n" ++
  "export class \x7b\x7bName\x7d\x7dEntitySet extends EntitySet<\x7b\x7bFullname\x7d\x7d> \x7b\n" ++
  "    constructor(address: string, additionalHeaders?: any) \x7b\n" ++
  "        super(\"\x7b\x7bName\x7d\x7d\", address, \"\x7b\x7bKey.Name\x7d\x7d\", " ++
  "additionalHeaders);\n" ++
  "    \x7d\n" ++
  "\x7d\n" ++
  "\x7b\x7b/each\x7d\x7d\n"

def bundled : List (String × String) :=
  [("Interfaces.ot", interfaces), ("ProxyClass.ot", proxyClass)]

/-! ## Stores -/

/-- The operations on files that finding templates needs, as effects of `m`; `announce` is told of a
directory before the bundled templates are copied into it. -/
structure Store (m : Type → Type) where
  list : String → m (Except FileError (List String))
  read : String → m (Except FileError String)
  createDirs : String → m (Except FileError Unit)
  write : String → String → m (Except FileError Unit)
  announce : String → m Unit

def fileExtension : String := "ot"

def isTemplate (name : String) : Bool := Path.extension? name == some fileExtension

variable {m : Type → Type} [Monad m]

/-- The template file names in a directory; a missing directory has none. -/
def names (store : Store m) (dir : String) : ExceptT FileError m (List String) :=
  ExceptT.mk do
    match ← store.list dir with
    | .ok found => pure (.ok (found.filter isTemplate))
    | .error e => pure (if e.kind = .notFound then .ok [] else .error e)

def writeAll (store : Store m) (dir : String) : List (String × String) → ExceptT FileError m Unit
  | [] => pure ()
  | file :: files => do
    ExceptT.mk (store.write (Path.join dir file.1) file.2)
    writeAll store dir files

/-- Copies the bundled templates into a directory. -/
def bootstrap (store : Store m) (dir : String) : ExceptT FileError m Unit := do
  ExceptT.lift (store.announce dir)
  ExceptT.mk (store.createDirs dir)
  writeAll store dir bundled

def readAll (store : Store m) (dir : String) (found : Text.Dictionary) :
    List String → ExceptT FileError m Text.Dictionary
  | [] => pure found
  | name :: rest => do
    let text ← ExceptT.mk (store.read (Path.join dir name))
    readAll store dir (found.insert name text) rest

/-- The templates of a directory by file name. -/
def resolve (store : Store m) (dir : String) : ExceptT FileError m Text.Dictionary := do
  let found ← names store dir
  if found.isEmpty then
    bootstrap store dir
    let copied ← names store dir
    readAll store dir .empty copied
  else readAll store dir .empty found

end EdmxGen.Template
