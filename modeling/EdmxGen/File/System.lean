import EdmxGen.Failure
import EdmxGen.File.Path

/-!
# A file system

Directories and text files by the names that lead to them from the root. Paths are followed from a
working directory. A file lies in a directory that exists, and whoever writes a file must have made
its directory.
-/

namespace EdmxGen

inductive FileEntry
  | dir
  | file (text : String)
  deriving DecidableEq, Repr

/-- The entries of a file system, and the directory in which relative paths begin. -/
structure FileSystem where
  entries : List (List String × FileEntry) := []
  here : List String := []
  deriving DecidableEq, Repr

namespace FileSystem

def at? (fs : FileSystem) (place : List String) : Option FileEntry :=
  if place.isEmpty then some .dir
  else (fs.entries.find? fun e => e.1 == place).map Prod.snd

def put (fs : FileSystem) (place : List String) (entry : FileEntry) : FileSystem :=
  { fs with entries := (fs.entries.filter fun e => e.1 != place) ++ [(place, entry)] }

/-- Follows parts of a path from a place; every part needs a directory to start in. -/
def follow (fs : FileSystem) (place : List String) :
    List String → Except FileErrorKind (List String)
  | [] => .ok place
  | part :: parts =>
    match fs.at? place with
    | none => .error .notFound
    | some (.file _) => .error .notADirectory
    | some .dir =>
      if part = "" ∨ part = "." then follow fs place parts
      else if part = ".." then follow fs place.dropLast parts
      else follow fs (place ++ [part]) parts

/-- The place that a path leads to, whether or not anything lies there. -/
def place (fs : FileSystem) (path : String) : Except FileErrorKind (List String) :=
  if path.isEmpty then .error .notFound
  else fs.follow (if Path.isAbsolute path then [] else fs.here) (Path.parts path)

/-- What lies at a path. -/
def entry? (fs : FileSystem) (path : String) : Except FileErrorKind FileEntry := do
  let place ← fs.place path
  match fs.at? place with
  | some entry => pure entry
  | none => .error .notFound

def exists? (fs : FileSystem) (path : String) : Bool := (fs.entry? path).toBool

def read (fs : FileSystem) (path : String) : Except FileErrorKind String := do
  match ← fs.entry? path with
  | .file text => pure text
  | .dir => .error .isADirectory

def list (fs : FileSystem) (path : String) : Except FileErrorKind (List String) := do
  let place ← fs.place path
  match fs.at? place with
  | none => .error .notFound
  | some (.file _) => .error .notADirectory
  | some .dir =>
    pure ((fs.entries.map Prod.fst).filterMap fun p =>
      if p.dropLast == place then p.getLast? else none)

/-- The file system with a file written in a directory under a name that is no directory's. -/
def writeIn (fs : FileSystem) (dir : List String) (name text : String) :
    Except FileErrorKind FileSystem :=
  match fs.at? dir with
  | none => .error .notFound
  | some (.file _) => .error .notADirectory
  | some .dir =>
    if name = "" ∨ name = "." ∨ name = ".." then .error .isADirectory
    else
      match fs.at? (dir ++ [name]) with
      | some .dir => .error .isADirectory
      | _ => .ok (fs.put (dir ++ [name]) (.file text))

/-- The file system with a file written at a path. A path that ends in a slash names a directory,
even where there is none. -/
def write (fs : FileSystem) (path text : String) : Except FileErrorKind FileSystem := do
  let parts := Path.parts path
  let named := (parts.reverse.dropWhile (· == "")).reverse
  if path.isEmpty then .error .notFound
  else
    let start := if Path.isAbsolute path then [] else fs.here
    let dir ← fs.follow start named.dropLast
    fs.writeIn dir (if named.length < parts.length then "" else named.getLast?.getD "") text

/-- Makes the directories that parts of a path lead through. -/
def makeDirs (fs : FileSystem) (place : List String) :
    List String → Except FileErrorKind FileSystem
  | [] => .ok fs
  | part :: parts =>
    if part = "" ∨ part = "." then makeDirs fs place parts
    else if part = ".." then makeDirs fs place.dropLast parts
    else
      let next := place ++ [part]
      match fs.at? next with
      | none => makeDirs (fs.put next .dir) next parts
      | some .dir => makeDirs fs next parts
      | some (.file _) => .error .notADirectory

/-- The file system with the directory at a path and all that lead to it. -/
def createDirs (fs : FileSystem) (path : String) : Except FileErrorKind FileSystem :=
  fs.makeDirs (if Path.isAbsolute path then [] else fs.here) (Path.parts path)

/-- The files below the working directory, by their relative paths. -/
def files (fs : FileSystem) : List (String × String) :=
  fs.entries.filterMap fun e =>
    match e.2 with
    | .file text =>
      if e.1.take fs.here.length == fs.here then
        some ("/".intercalate (e.1.drop fs.here.length), text)
      else none
    | .dir => none

/-- A file system with one working directory, in which these files lie. -/
def ofFiles (files : List (String × String)) : FileSystem :=
  let start : FileSystem := ⟨[(["project"], .dir)], ["project"]⟩
  files.foldl
    (fun fs f =>
      let made := ((Path.parent? f.1).map fun dir => fs.createDirs dir).getD (.ok fs)
      match made with
      | .ok fs => (fs.write f.1 f.2).toOption.getD fs
      | .error _ => fs)
    start

end FileSystem

end EdmxGen
