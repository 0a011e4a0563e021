import EdmxGen.Header
import EdmxGen.Model.Json
import EdmxGen.Model.Projection
import EdmxGen.Template.Store

/-!
# Generated files

A file is generated from settings and templates: the template is chosen before the metadata is asked
for, and the settings that the header keeps name the template that was used.
-/

namespace EdmxGen

/-- The file that one run generates, with its settings as the header keeps them. -/
structure GeneratedFile where
  settings : FileSettings
  model : ServiceModel
  contents : List Char
  deriving DecidableEq

/-- The text made from a template, given its name, and a model. -/
abbrev Renderer := String → String → ServiceModel → FileSettings → Except Failure (List Char)

namespace Generator

/-- The renderer that writes the model itself, whatever the template. -/
def dumpModel : Renderer := fun _ _ model _ => .ok model.dump

/-- The template of the name, or the first one by name; a missing one is told by its name or, if any
would do, by its extension. -/
def selectTemplate (requested : Option String) (templates : Text.Dictionary) :
    Except Failure (String × String) :=
  match requested with
  | some name =>
    match templates.get? name with
    | some text => .ok (name, text)
    | none => .error (.templateNotFound name)
  | none =>
    match templates.entries.head? with
    | some entry => .ok entry
    | none => .error (.templateNotFound ("*." ++ Template.fileExtension))

/-- The file for settings, made at a moment with a template and a model. -/
def compose (render : Renderer) (created : Moment) (template : String × String)
    (settings : FileSettings) (model : ServiceModel) : Except Failure GeneratedFile := do
  let used := { settings with template := some template.1 }
  let body ← render template.1 template.2 model used
  pure ⟨used, model, Header.encode used.toJson created ++ body⟩

/-- What a run needs besides settings and templates: the metadata of an address, the moment, and
whom to tell the number of entity types and the template before rendering. -/
structure Source (m : Type → Type) where
  fetch : String → RequestOptions → m (Except Failure Xml.Element)
  announce : Nat → String → m Unit
  now : m Moment

def generate {m : Type → Type} [Monad m] (source : Source m) (render : Renderer)
    (policy : KeyPolicy) (settings : FileSettings) (templates : Text.Dictionary) :
    ExceptT Failure m GeneratedFile := do
  let template ← ExceptT.mk (pure (selectTemplate settings.template templates))
  let edmx ← ExceptT.mk (source.fetch settings.service.source settings.service.requestOptions)
  let model ← ExceptT.mk (pure (projectService policy edmx))
  ExceptT.lift (source.announce model.entityTypes.length template.1)
  let created ← ExceptT.lift source.now
  ExceptT.mk (pure (compose render created template settings model))

end Generator

end EdmxGen
