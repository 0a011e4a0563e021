import EdmxGen.Json.Fault
import EdmxGen.Settings.Basic
import EdmxGen.Text.Utf8
import EdmxGen.Xml.Content

/-!
# Failures

Why metadata cannot be fetched, read or turned into code. A `Failure` has one cause; a `Trouble` is
what a command ends with: a failure, a file error or a plain message, perhaps within a context.
-/

namespace EdmxGen

inductive FileErrorKind
  | notFound
  | permissionDenied
  | notADirectory
  | isADirectory
  | other
  deriving DecidableEq, Repr

/-- An error of the file system, with a text of its own or that of the system. -/
structure FileError where
  kind : FileErrorKind
  text : Option String := none
  deriving DecidableEq, Repr

def FileErrorKind.message : FileErrorKind → String
  | .notFound => "No such file or directory (os error 2)"
  | .permissionDenied => "Permission denied (os error 13)"
  | .notADirectory => "Not a directory (os error 20)"
  | .isADirectory => "Is a directory (os error 21)"
  | .other => "File name too long (os error 36)"

def FileError.message (e : FileError) : String := e.text.getD e.kind.message

/-- Why a step on the way from an address to a generated file fails. -/
inductive Failure
  /-- The text has no settings block. -/
  | noHeader
  /-- The settings block holds no settings. -/
  | headerDecode (fault : Json.Fault)
  /-- The outermost element is not that of metadata. -/
  | invalidMetadata (root : String)
  /-- The request could not be made, or its response not be read. -/
  | transport (address : String)
  /-- The response has a status other than success. -/
  | httpStatus (address : String) (status : Nat)
  /-- The response has no content. -/
  | emptyResponse (address : String)
  /-- The response is no text. -/
  | invalidEncoding (address : String) (fault : Text.Utf8.Fault)
  /-- The response is no XML. -/
  | malformedXml (fault : Xml.Fault)
  /-- The metadata has no element for its services. -/
  | missingServices
  /-- An element of the metadata lacks an attribute. -/
  | missingAttribute (element name : String)
  /-- No address was given. -/
  | noAddress
  /-- There is no template of this name. -/
  | templateNotFound (name : String)
  /-- A template cannot be rendered. -/
  | render (template message : String)
  /-- A file operation fails. -/
  | file (error : FileError)
  deriving DecidableEq, Repr

namespace Failure

def message : Failure → String
  | noHeader => "No valid odata tools header found."
  | headerDecode _ => "Failed to decode odata tools header"
  | invalidMetadata root =>
    s!"Response is not valid OData metadata (root element '{root}')"
  | transport address => s!"Request to '{address}' failed"
  | httpStatus address status => s!"Request to '{address}' returned HTTP {status}"
  | emptyResponse address => s!"Request to '{address}' returned an empty response"
  | invalidEncoding address fault =>
    s!"Response from '{address}' is not valid UTF-8: " ++ fault.message
  | malformedXml _ => "Failed to parse metadata XML"
  | missingServices => "Malformed EDMX: missing edmx:DataServices element"
  | missingAttribute element name =>
    s!"Malformed EDMX: {element} element is missing its '{name}' attribute"
  | noAddress => "User did not input valid address"
  | templateNotFound name => s!"Template '{name}' not found"
  | render template message => s!"Failed to render template '{template}': {message}"
  | file error => error.message

/-- The failure is one of the round trip to the service. -/
def isTransport : Failure → Bool
  | transport _ | httpStatus _ _ | emptyResponse _ | invalidEncoding _ _ | malformedXml _ => true
  | _ => false

end Failure

/-- What a command ends with when it does not succeed. -/
inductive Trouble
  | failure (f : Failure)
  | file (e : FileError)
  | header (f : HeaderFault)
  | note (text : String)
  | within (context : String) (cause : Trouble)
  deriving DecidableEq, Repr

namespace Trouble

/-- The outermost text. -/
def message : Trouble → String
  | failure f => f.message
  | file e => e.message
  | header f => f.message
  | note text => text
  | within context _ => context

end Trouble

/-- Puts a context around a failure. -/
def inContext {α : Type} (context : String) (r : Except Failure α) : Except Trouble α :=
  r.mapError fun f => .within context (.failure f)

end EdmxGen
