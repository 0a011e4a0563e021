import EdmxGen.Text.Basic

/-!
# File paths

Paths are texts with slashes between their parts. Empty parts and single dots inside a path name
nothing.
-/

namespace EdmxGen.Path

open Text

/-- The path inside a directory; an absolute one stands for itself. -/
def join (dir path : String) : String :=
  if path.startsWith "/" || dir.isEmpty then path
  else if dir.endsWith "/" then dir ++ path
  else dir ++ "/" ++ path

/-- The parts of a path between its slashes. -/
def parts (path : String) : List String :=
  (splitAt (· == '/') path.toList).map String.ofList

def isAbsolute (path : String) : Bool := path.startsWith "/"

/-- The parts that name something; a dot counts only in front of a relative path. -/
def names (path : String) : List String :=
  let lead := if !isAbsolute path && (parts path).head? == some "." then ["."] else []
  lead ++ (parts path).filter fun p => p != "" && p != "."

/-- Two paths with the same names are the same path. -/
def same (a b : String) : Bool := isAbsolute a == isAbsolute b && names a == names b

def ofNames (absolute : Bool) (names : List String) : String :=
  (if absolute then "/" else "") ++ "/".intercalate names

def parent? (path : String) : Option String :=
  match (names path).reverse with
  | [] => none
  | _ :: rest => some (ofNames (isAbsolute path) rest.reverse)

/-- The last name of a path, unless it leads up. -/
def fileName? (path : String) : Option String :=
  match (names path).getLast? with
  | some ".." => none
  | some "." => none
  | name => name

/-- What follows the last dot of a name that does not begin with it. -/
def extensionOf? (name : String) : Option String :=
  match name.toList.reverse.dropWhile (· != '.') with
  | [] => none
  | [_] => none
  | _ => some (String.ofList (name.toList.reverse.takeWhile (· != '.')).reverse)

def extension? (path : String) : Option String := (fileName? path).bind extensionOf?

end EdmxGen.Path
