import EdmxGen.Generator
import EdmxGen.Proofs.Header.Codec
import EdmxGen.Proofs.Model.Json
import EdmxGen.Proofs.Run
import EdmxGen.Proofs.Text.Dictionary

/-!
# Generated files

A generated file begins with the header of its settings, and what follows the header is a text of
its model. The settings are found in the file unless one of their strings holds the closing marker.
-/

namespace EdmxGen.Generator

open Json

variable {σ : Type} {source : Source (StateM σ)} {render : Renderer} {policy : KeyPolicy}
  {settings : FileSettings} {templates : Text.Dictionary} {w w' : σ} {file : GeneratedFile}

/-- The template selected by a name is the entry of that name. -/
theorem selectTemplate_some_iff {name : String} {template : String × String} :
    selectTemplate (some name) templates = .ok template ↔
      template.1 = name ∧ templates.get? name = some template.2 := by
  unfold selectTemplate
  dsimp only
  cases templates.get? name with
  | none => simp
  | some text =>
    rw [Except.ok.injEq, Option.some.injEq]
    constructor
    · rintro rfl
      exact ⟨rfl, rfl⟩
    · rintro ⟨rfl, rfl⟩
      rfl

/-- The template selected by no name is the first entry. -/
theorem selectTemplate_none_iff {template : String × String} :
    selectTemplate none templates = .ok template ↔ templates.entries.head? = some template := by
  unfold selectTemplate
  dsimp only
  cases templates.entries.head? with
  | none => simp
  | some entry => rw [Except.ok.injEq, Option.some.injEq]

/-- A template that was selected is an entry. -/
theorem get?_of_selectTemplate {requested : Option String} {template : String × String}
    (h : selectTemplate requested templates = .ok template) :
    templates.get? template.1 = some template.2 := by
  cases requested with
  | some name =>
    obtain ⟨rfl, htext⟩ := selectTemplate_some_iff.1 h
    exact htext
  | none =>
    exact Text.Dictionary.get?_eq_some_iff.2 (List.mem_of_head? (selectTemplate_none_iff.1 h))

/-- A template that was selected is selected again by its name. -/
theorem selectTemplate_again {requested : Option String} {template : String × String}
    (h : selectTemplate requested templates = .ok template) :
    selectTemplate (some template.1) templates = .ok template :=
  selectTemplate_some_iff.2 ⟨rfl, get?_of_selectTemplate h⟩

/-- What a run that generates a file has done. -/
theorem generate_ok
    (h : (generate source render policy settings templates).run.run w = (.ok file, w')) :
    ∃ template edmx w₁ model, selectTemplate settings.template templates = .ok template ∧
      (source.fetch settings.service.source settings.service.requestOptions).run w =
        (.ok edmx, w₁) ∧
      projectService policy edmx = .ok model ∧
      ∃ created w₂ w₃, source.now.run w₂ = (created, w₃) ∧
        compose render created template settings model = .ok file := by
  obtain ⟨template, w₀, h₀, h⟩ := ok_of_run_bind h
  obtain ⟨htemplate, rfl⟩ := of_run_result h₀
  obtain ⟨edmx, w₁, hfetch, h⟩ := ok_of_run_bind h
  obtain ⟨model, w₂, h₂, h⟩ := ok_of_run_bind h
  obtain ⟨hmodel, -⟩ := of_run_result h₂
  obtain ⟨_, w₃, -, h⟩ := ok_of_run_bind h
  obtain ⟨created, w₄, hnow, h⟩ := of_run_lift_bind h
  exact ⟨template, edmx, w₁, model, htemplate, hfetch, hmodel, created, w₃, w₄, hnow,
    (of_run_result h).1⟩

/-- A run that has a template and a model composes the file of them, at the moment it is then. -/
theorem generate_composed (source : Source (StateM σ)) (render : Renderer) (settings : FileSettings)
    {template : String × String} {edmx : Xml.Element} {model : ServiceModel}
    (htemplate : selectTemplate settings.template templates = .ok template)
    (hfetch : ((source.fetch settings.service.source settings.service.requestOptions).run w).1
      = .ok edmx) (hmodel : projectService policy edmx = .ok model) :
    ∃ w₂, ((generate source render policy settings templates).run.run w).1 =
      compose render (source.now.run w₂).1 template settings model := by
  have hselect : (ExceptT.mk (pure (selectTemplate settings.template templates) :
      StateM σ _)).run.run w = (.ok template, w) := by
    rw [htemplate]
    rfl
  rcases hrun : (source.fetch settings.service.source settings.service.requestOptions).run w
    with ⟨r, w₁⟩
  rw [hrun] at hfetch
  have hfetched : (ExceptT.mk (source.fetch settings.service.source
      settings.service.requestOptions)).run.run w = (.ok edmx, w₁) := by
    rw [← hfetch]
    exact hrun
  have hproject : (ExceptT.mk (pure (projectService policy edmx) : StateM σ _)).run.run w₁
      = (.ok model, w₁) := by
    rw [hmodel]
    rfl
  refine ⟨((source.announce model.entityTypes.length template.1).run w₁).2, ?_⟩
  unfold generate
  rw [run_bind_ok hselect, run_bind_ok hfetched, run_bind_ok hproject]
  rfl

/-- A dumped file is the header of its settings and the dump of its model. -/
theorem compose_dumpModel {created : Moment} {template : String × String} {model : ServiceModel}
    (h : compose dumpModel created template settings model = .ok file) :
    file = ⟨{ settings with template := some template.1 }, model,
      Header.encode { settings with template := some template.1 }.toJson created ++ model.dump⟩ :=
  (Except.ok.inj h).symm

/-- What is rendered for a model is a text of it, and for no other model is the same rendered. -/
theorem dumpModel_lossless (name template : String) (settings : FileSettings) (m : ServiceModel) :
    ∃ text, dumpModel name template m settings = .ok text ∧
      ServiceModel.ofText (String.ofList text) = .ok m ∧
      ∀ name' template' settings' m',
        dumpModel name' template' m' settings' = .ok text ↔ m' = m := by
  refine ⟨m.dump, rfl, m.ofText_dump, fun name' template' settings' m' => ⟨fun h => ?_, ?_⟩⟩
  · have hdump : m'.dump = m.dump := Except.ok.inj h
    have hread := m'.ofText_dump
    rw [hdump, m.ofText_dump] at hread
    exact (Except.ok.inj hread).symm
  · rintro rfl
    rfl

/-- A file that was generated keeps the settings but for the template, shows its model behind the
header, and is decoded to its settings just if none of their strings holds the closing marker. -/
theorem generate_dumpModel
    (h : (generate source dumpModel policy settings templates).run.run w = (.ok file, w')) :
    file.settings = { settings with template := file.settings.template } ∧
      (∃ created body, file.contents = Header.encode file.settings.toJson created ++ body ∧
        ServiceModel.ofText (String.ofList body) = .ok file.model) ∧
      (Header.decode file.contents = .ok file.settings ↔
        ∀ t ∈ file.settings.strings, ¬ Header.closing <:+: t.toList) := by
  obtain ⟨template, edmx, w₁, model, -, -, -, created, _, _, -, hfile⟩ := generate_ok h
  obtain rfl := compose_dumpModel hfile
  refine ⟨rfl, ⟨created, model.dump, rfl, model.ofText_dump⟩, ?_⟩
  constructor
  · intro hdecode t ht hmark
    rw [← List.nil_append (Header.encode _ _),
      Header.decode_of_marked created model.dump Header.not_infix_nil ht hmark] at hdecode
    simp at hdecode
  · intro hs
    have := Header.decode_of_not_marked created model.dump Header.not_infix_nil hs
    rwa [List.nil_append] at this

/-- A source whose metadata names no entity type. -/
def bareSource : Source (StateM Unit) where
  fetch _ _ := pure (.ok ⟨"edmx:Edmx", [], [⟨"edmx:DataServices", [], [], none⟩], none⟩)
  announce _ _ := pure ()
  now := pure ⟨0, 0⟩

/-- The metadata of an entity type that has a collection for its key. -/
def personMetadata : Xml.Element :=
  ⟨"edmx:Edmx", [], [⟨"edmx:DataServices", [], [⟨"Schema", [("Namespace", "N")],
    [⟨"EntityType", [("Name", "Person")],
      [⟨"Key", [], [], none⟩,
        ⟨"Property", [("Name", "Ids"), ("Type", "Collection(Edm.Int32)")], [], none⟩], none⟩],
    none⟩], none⟩], none⟩

def personSource : Source (StateM Unit) :=
  { bareSource with fetch := fun _ _ => pure (.ok personMetadata) }

/-- Settings with a header and with credentials, each of which ends a comment. -/
def guardedSettings : FileSettings where
  service := ⟨"https://h/*/", .modular, {
    headers := .ofList [("X-Key", "a*/b")]
    auth := some { user := some "u", pass := some "*/" } }⟩

theorem generate_dumpModel_guarded :
    ∃ file, (generate personSource dumpModel .firstProperty guardedSettings
        (.ofList [("A.ot", "a")])).run.run () = (.ok file, ()) ∧
      file.settings = { guardedSettings with template := some "A.ot" } ∧
      file.model.entityTypes.map EntityType.fullName = ["N.Person"] ∧
      (∃ created body, file.contents = Header.encode file.settings.toJson created ++ body ∧
        ServiceModel.ofText (String.ofList body) = .ok file.model) ∧
      Header.decode file.contents = .ok file.settings := by
  obtain ⟨file, hfile, hsettings, hnames⟩ : ∃ file,
      (generate personSource dumpModel .firstProperty guardedSettings
        (.ofList [("A.ot", "a")])).run.run () = (.ok file, ()) ∧
      file.settings = { guardedSettings with template := some "A.ot" } ∧
      file.model.entityTypes.map EntityType.fullName = ["N.Person"] := ⟨_, rfl, rfl, rfl⟩
  obtain ⟨-, hcontents, hdecode⟩ := generate_dumpModel hfile
  refine ⟨file, hfile, hsettings, hnames, hcontents, hdecode.2 ?_⟩
  rw [hsettings]
  decide +kernel

/-- An address that holds the closing marker makes a file that cannot be decoded. -/
theorem decode_generated_closing :
    ∃ file, (generate bareSource dumpModel .firstProperty
        ⟨⟨"http://h/svc/#ODATATOOLSOPTIONSEND/$metadata", .modular, {}⟩, none⟩
        (.ofList [("A.ot", "a")])).run.run () = (.ok file, ()) ∧
      Header.decode file.contents = .error (.headerDecode .ended) := by
  refine ⟨_, rfl, ?_⟩
  exact Header.decode_of_marked (p := []) ⟨0, 0⟩ _ Header.not_infix_nil List.mem_cons_self
    (by decide +kernel)

end EdmxGen.Generator
