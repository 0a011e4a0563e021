import EdmxGen.Failure
import EdmxGen.Text.Basic

/-!
# Service addresses

The metadata of a service is at its root, followed by `/$metadata`. An address is brought into this
form from the root or the metadata address, with blanks around it and slashes at its end.
-/

namespace EdmxGen.Address

open Text

/-- The last segment of a metadata address. -/
def segment : List Char := "$metadata".toList

/-- The text without slashes at its end. -/
def dropSlashes (cs : List Char) : List Char := dropEndWhile (· == '/') cs

/-- The metadata address of a service root. -/
def endpoint (root : List Char) : List Char := dropSlashes root ++ '/' :: segment

/-- The root that an address names, which may be empty. -/
def root (raw : List Char) : List Char :=
  let whole := dropSlashes (trim raw)
  dropSlashes ((stripSuffix? segment whole).getD whole)

/-- The metadata address of the service that a text names. -/
def normalize (raw : String) : Except Failure String :=
  let root := root raw.toList
  if root.isEmpty then .error .noAddress else .ok (String.ofList (endpoint root))

end EdmxGen.Address
