import EdmxGen.Proofs.Generator
import EdmxGen.Proofs.Model.Projection
import EdmxGen.Proofs.Session.Quiet

/-!
# What fetching gives

What fetching gives is a function of the replies to requests alone (`fetch_again`). So a run whose
requests get the same replies generates the same file from the same settings and templates, but for
the moment (`generate_again`).
-/

namespace EdmxGen.Session

open Http

variable {env env' : Environment} {w w' w₀ : World}

/-! ## What comes back -/

def replyTo (env : Environment) (w : World) (address : String) (o : RequestOptions) : Reply :=
  match prepare? address o with
  | none => .refused
  | some sending => env.network w.requests sending

def textOf (address : String) : Reply → Except Failure (List Char)
  | .response r => r.text address
  | _ => .error (.transport address)

def metadataOf (address : String) (reply : Reply) : Except Failure Xml.Element := do
  let text ← textOf address reply
  Metadata.parse (String.ofList text)

theorem metadataOf_of_text {address : String} {reply : Reply} {text : List Char}
    (h : textOf address reply = .ok text) :
    metadataOf address reply = Metadata.parse (String.ofList text) := by
  unfold metadataOf
  rw [h]
  rfl

theorem send_result (env : Environment) (w : World) (address : String) (o : RequestOptions) :
    ((send env address o).run w).1 = replyTo env w address o := by
  unfold send replyTo
  cases prepare? address o with
  | none => rfl
  | some sending =>
    have hget : (get : Session World).run w = (w, w) := rfl
    dsimp only
    rw [run_state_bind hget]
    cases hreply : env.network w.requests sending with
    | refused => rfl
    | dropped => rfl
    | response r => rfl

theorem receive_result (env : Environment) (w : World) (address : String) (o : RequestOptions) :
    ((receive env address o).run w).1 = textOf address (replyTo env w address o) := by
  rcases hsend : (send env address o).run w with ⟨reply, w₁⟩
  have hreply : reply = replyTo env w address o := by rw [← send_result, hsend]
  unfold receive
  rw [run_state_bind hsend, ← hreply]
  cases reply with
  | refused => rfl
  | dropped => rfl
  | response r => rfl

theorem fetchText_result (env : Environment) (w : World) (address : String) (o : RequestOptions) :
    ((fetchText env address o).run w).1 = textOf address (replyTo env w address o) := by
  -- Notices come before the request and have no part in its reply.
  have hrest : ∀ notices, ((receive env address o).run { w with notices }).1
      = textOf address (replyTo env w address o) := fun notices => receive_result env _ address o
  rw [fetchText_eq]
  have hnotify : ∀ n w₁, (notify n).run w₁ = ((), { w₁ with notices := w₁.notices ++ [n] }) :=
    fun _ _ => rfl
  rw [run_state_bind (hnotify _ w)]
  split
  · rw [run_state_bind (hnotify _ _)]
    exact hrest _
  · exact hrest _

theorem parseMetadata_result (w : World) (text : List Char) :
    ((parseMetadata text).run w).1 = Metadata.parse (String.ofList text) := rfl

theorem fetch_result (env : Environment) (w : World) (address : String) (o : RequestOptions) :
    ((fetch env address o).run w).1 = metadataOf address (replyTo env w address o) := by
  rcases htext : (fetchText env address o).run w with ⟨text, w₁⟩
  have hresult : text = textOf address (replyTo env w address o) := by
    rw [← fetchText_result, htext]
  unfold fetch metadataOf
  rw [run_state_bind htext, ← hresult]
  cases text with
  | error f => rfl
  | ok text => exact parseMetadata_result w₁ text

/-- The same replies bring the same metadata. -/
theorem fetch_again
    (h : ∀ sending, env'.network w'.requests sending = env.network w.requests sending)
    (address : String) (o : RequestOptions) :
    ((fetch env' address o).run w').1 = ((fetch env address o).run w).1 := by
  have hreply : replyTo env' w' address o = replyTo env w address o := by
    unfold replyTo
    cases prepare? address o with
    | none => rfl
    | some sending => exact h sending
  rw [fetch_result, fetch_result, hreply]

/-! ## What is generated -/

/-- A run changes no part of the world but the requests and the notices. -/
def Talks (w w' : World) : Prop := ∃ requests notices, w' = { w with requests, notices }

instance : Steady Talks where
  refl w := ⟨w.requests, w.notices, rfl⟩
  trans := by
    rintro _ _ _ ⟨_, _, rfl⟩ ⟨requests, notices, rfl⟩
    exact ⟨requests, notices, rfl⟩

theorem talks_notify (n : Notice) : Leads Talks (notify n) :=
  leads_notify (fun w _ => ⟨w.requests, _, rfl⟩) n

theorem talks_generate (env : Environment) (render : Renderer) (policy : KeyPolicy)
    (settings : FileSettings) (templates : Text.Dictionary) :
    Leads Talks (Generator.generate (source env) render policy settings templates).run := by
  have hrequests : ∀ (w : World) requests, Talks w { w with requests } :=
    fun w requests => ⟨requests, w.notices, rfl⟩
  refine Leads.run_bind (Leads.pure _) fun template => ?_
  refine Leads.run_bind (leads_fetch talks_notify hrequests env _ _) fun edmx => ?_
  refine Leads.run_bind (Leads.pure _) fun model => ?_
  refine Leads.run_bind (Leads.run_lift (talks_notify _)) fun _ => ?_
  refine Leads.run_bind (Leads.run_lift (Leads.pure _)) fun created => ?_
  exact Leads.pure _

/-- A file that shows its model, made for settings at a moment. -/
def dumped (settings : FileSettings) (created : Moment) (model : ServiceModel) : GeneratedFile :=
  ⟨settings, model, Header.encode settings.toJson created ++ model.dump⟩

variable {policy policy' : KeyPolicy} {settings : FileSettings} {templates : Text.Dictionary}
  {file : GeneratedFile}

theorem generate_run {template : String × String} {edmx : Xml.Element} {model : ServiceModel}
    (htemplate : Generator.selectTemplate settings.template templates = .ok template)
    (hfetch : ((fetch env settings.service.source settings.service.requestOptions).run w).1
      = .ok edmx) (hmodel : projectService policy edmx = .ok model) :
    ((Generator.generate (source env) Generator.dumpModel policy settings templates).run.run w).1
      = .ok (dumped { settings with template := some template.1 } env.now model) := by
  obtain ⟨w₂, hrun⟩ := Generator.generate_composed (source env) Generator.dumpModel settings
    htemplate hfetch hmodel
  exact hrun

/-- A generated file shows the metadata that came back. Whenever the replies are the same the file
is generated again for its settings, with the header of another moment and, whatever the key policy,
the same model but for keys. -/
theorem generate_again
    (h : (Generator.generate (source env) Generator.dumpModel policy settings templates).run.run w
      = (.ok file, w₀)) (policy' : KeyPolicy) :
    file = dumped file.settings env.now file.model ∧
    ∃ edmx model, metadataOf settings.service.source (replyTo env w settings.service.source
        settings.service.requestOptions) = .ok edmx ∧
      projectService policy edmx = .ok file.model ∧ projectService policy' edmx = .ok model ∧
      model.withoutKeys = file.model.withoutKeys ∧
      ∀ (env' : Environment) (w' : World),
        (∀ sending, env'.network w'.requests sending = env.network w.requests sending) →
        ((Generator.generate (source env') Generator.dumpModel policy' file.settings
          templates).run.run w').1 = .ok (dumped file.settings env'.now model) := by
  obtain ⟨template, edmx, w₁, model, htemplate, hfetch, hmodel, created, w₂, w₃, hnow, hfile⟩ :=
    Generator.generate_ok h
  obtain ⟨rfl, _⟩ := Prod.mk.inj hnow
  obtain rfl := Generator.compose_dumpModel hfile
  obtain ⟨model', hmodel', hkeys⟩ := projectService_any hmodel policy'
  let used : FileSettings := { settings with template := some template.1 }
  have hused : Generator.selectTemplate used.template templates = .ok template :=
    Generator.selectTemplate_again htemplate
  have hfetched : ((fetch env settings.service.source settings.service.requestOptions).run w).1
      = .ok edmx := congrArg Prod.fst hfetch
  refine ⟨rfl, edmx, model', ?_, hmodel, hmodel', hkeys, fun env' w' hreply => ?_⟩
  · rw [← fetch_result]
    exact hfetched
  · have hfetch' : ((fetch env' settings.service.source settings.service.requestOptions).run w').1
        = .ok edmx := by
      rw [fetch_again hreply]
      exact hfetched
    exact generate_run hused hfetch' hmodel'

end EdmxGen.Session
