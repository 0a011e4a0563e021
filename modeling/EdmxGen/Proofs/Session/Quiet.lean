import EdmxGen.Command
import EdmxGen.Proofs.Run

/-!
# Steps that leave parts of the world as they are

Most steps of a run look at the files and leave them as they are: notices and output, questions,
loading the configuration, fetching and generating. A composed step leads along every relation
between worlds that its single steps lead along, as long as that holds over any number of steps
(`Leads.bind`, `Leads.run_bind`); leaving the files as they are is one such relation.
-/

namespace EdmxGen.Session

open Attempt

/-- A relation between worlds that holds over any number of steps. -/
class Steady (R : World → World → Prop) : Prop where
  refl : ∀ w, R w w
  trans : ∀ {w w' w''}, R w w' → R w' w'' → R w w''

/-- The step leads from every world to a related one. -/
def Leads {α : Type} (R : World → World → Prop) (x : Session α) : Prop :=
  ∀ ⦃w r w'⦄, x.run w = (r, w') → R w w'

/-- A part of the world is the same. -/
abbrev Same {γ : Type} (g : World → γ) (w w' : World) : Prop := g w' = g w

instance {γ : Type} (g : World → γ) : Steady (Same g) where
  refl _ := rfl
  trans h h' := Eq.trans h' h

/-- The step leaves a part of the world as it is. -/
abbrev Keeps {α γ : Type} (g : World → γ) (x : Session α) : Prop := Leads (Same g) x

/-- The step leaves the files as they are. -/
abbrev Quiet {α : Type} (x : Session α) : Prop := Keeps World.files x

variable {ε α β γ : Type} {R : World → World → Prop} [Steady R]

/-! ## Steps one after the other -/

theorem Leads.pure (a : α) : Leads R (Pure.pure a : Session α) := by
  intro w r w' h
  obtain ⟨_, rfl⟩ := Prod.mk.inj h
  exact Steady.refl _

theorem Leads.bind {x : Session α} {f : α → Session β} (hx : Leads R x)
    (hf : ∀ a, Leads R (f a)) : Leads R (x >>= f) := by
  intro w r w' h
  obtain ⟨a, w₁, h₁, h₂⟩ := of_run_state_bind h
  exact Steady.trans (hx h₁) (hf a h₂)

theorem Leads.run_pure (a : α) : Leads R (Pure.pure a : ExceptT ε Session α).run :=
  Leads.pure (Except.ok a)

theorem Leads.run_throw (e : ε) : Leads R (throw e : ExceptT ε Session α).run :=
  Leads.pure (Except.error e)

theorem Leads.run_bind {x : ExceptT ε Session α} {f : α → ExceptT ε Session β}
    (hx : Leads R x.run) (hf : ∀ a, Leads R (f a).run) : Leads R (x >>= f).run := by
  show Leads R (x.run >>= ExceptT.bindCont f)
  refine Leads.bind hx fun r => ?_
  cases r with
  | ok a => exact hf a
  | error e => exact Leads.pure _

theorem Leads.run_lift {x : Session α} (hx : Leads R x) :
    Leads R (ExceptT.lift x : ExceptT ε Session α).run :=
  Leads.bind hx fun a => Leads.pure (Except.ok a)

/-- A loop keeps what its steps keep. -/
theorem Leads.forIn {xs : List β} {f : β → Session Unit} (hf : ∀ x, Leads R (f x)) :
    Leads R (ForIn.forIn xs PUnit.unit fun x _ => do
      f x
      Pure.pure (ForInStep.yield PUnit.unit)) := by
  induction xs with
  | nil => exact Leads.pure _
  | cons x xs ih =>
    rw [List.forIn_cons]
    refine Leads.bind (Leads.bind (hf x) fun _ => Leads.pure _) fun step => ?_
    cases step with
    | done => exact Leads.pure _
    | yield => exact ih

theorem Leads.run_forIn {xs : List β} {f : β → ExceptT ε Session Unit}
    (hf : ∀ x, Leads R (f x).run) :
    Leads R (ForIn.forIn xs PUnit.unit fun x _ => do
      f x
      Pure.pure (ForInStep.yield PUnit.unit)).run := by
  induction xs with
  | nil => exact Leads.run_pure _
  | cons x xs ih =>
    rw [List.forIn_cons]
    refine Leads.run_bind (Leads.run_bind (hf x) fun _ => Leads.run_pure _) fun step => ?_
    cases step with
    | done => exact Leads.run_pure _
    | yield => exact ih

/-! ## Single steps -/

omit [Steady R] in
theorem leads_notify (hnotices : ∀ w notices, R w { w with notices }) (n : Notice) :
    Leads R (notify n) := by
  intro w r w' h
  obtain ⟨_, rfl⟩ := Prod.mk.inj h
  exact hnotices _ _

omit [Steady R] in
theorem leads_nextRefusal (hspent : ∀ w, R w { w with refusals := w.refusals.tail }) :
    Leads R nextRefusal := by
  intro w r w' h
  obtain ⟨_, rfl⟩ := Prod.mk.inj h
  exact hspent _

omit [Steady R] in
theorem leads_ask (hasked : ∀ w asked, R w { w with asked }) (a : Asking α) :
    Leads R (ask a).run := by
  intro w r w' h
  obtain ⟨_, rfl⟩ := Prod.mk.inj h
  exact hasked _ _

theorem quiet_notify (n : Notice) : Quiet (notify n) := leads_notify (fun _ _ => rfl) n

theorem quiet_print (spans : List Span) : Quiet (print spans) := by
  intro w r w' h
  obtain ⟨_, rfl⟩ := Prod.mk.inj h
  rfl

theorem quiet_nextRefusal : Quiet nextRefusal := leads_nextRefusal fun _ => rfl

theorem quiet_ask (a : Asking α) : Quiet (ask a).run := leads_ask (fun _ _ => rfl) a

theorem leads_lookUp (hrefusal : Leads R nextRefusal) (f : FileSystem → Except FileErrorKind α) :
    Leads R (lookUp f) := by
  refine Leads.bind hrefusal fun refusal => ?_
  cases refusal with
  | some r => exact Leads.pure _
  | none =>
    intro w r w' h
    obtain ⟨_, rfl⟩ := Prod.mk.inj h
    exact Steady.refl _

/-- A change that is refused or fails leaves all files as they are. -/
theorem leads_change (hrefusal : Leads R nextRefusal)
    {f : FileSystem → Except FileErrorKind FileSystem}
    (hchange : ∀ w files, f w.files = .ok files → R w { w with files }) : Leads R (change f) := by
  refine Leads.bind hrefusal fun refusal => ?_
  cases refusal with
  | some r => exact Leads.pure _
  | none =>
    intro w r w' h
    obtain ⟨w₁, w₂, hget, h⟩ := of_run_state_bind h
    obtain ⟨rfl, rfl⟩ := Prod.mk.inj hget
    split at h
    · next files hfiles =>
      obtain ⟨_, rfl⟩ := Prod.mk.inj h
      exact hchange _ _ hfiles
    · obtain ⟨_, rfl⟩ := Prod.mk.inj h
      exact Steady.refl _

theorem leads_isSeen (hrefusal : Leads R nextRefusal) (path : String) : Leads R (isSeen path) := by
  refine Leads.bind hrefusal fun refusal => ?_
  cases refusal with
  | some r => exact Leads.pure _
  | none =>
    intro w r w' h
    obtain ⟨_, rfl⟩ := Prod.mk.inj h
    exact Steady.refl _

theorem leads_ofExcept (r : Except Trouble α) : Leads R (ofExcept r).run := Leads.pure r

theorem leads_orFail {s : Session (Except Failure α)} (hs : Leads R s) : Leads R (orFail s).run :=
  Leads.bind hs fun _ => Leads.pure _

theorem leads_orFileIn (context : String) {s : Session (Except FileError α)} (hs : Leads R s) :
    Leads R (orFileIn context s).run := Leads.bind hs fun _ => Leads.pure _

theorem leads_orFailIn (context : String) {s : Session (Except Failure α)} (hs : Leads R s) :
    Leads R (orFailIn context s).run := Leads.bind hs fun _ => Leads.pure _

theorem quiet_lookUp (f : FileSystem → Except FileErrorKind α) : Quiet (lookUp f) :=
  leads_lookUp quiet_nextRefusal f

theorem quiet_isSeen (path : String) : Quiet (isSeen path) := leads_isSeen quiet_nextRefusal path

/-! ## Configuration and questions -/

theorem leads_loadConfig (hnotify : ∀ n, Leads R (notify n)) (hrefusal : Leads R nextRefusal)
    (path : String) : Leads R (loadConfig path).run := by
  refine Leads.run_bind (Leads.run_lift (leads_isSeen hrefusal path)) fun seen => ?_
  cases seen with
  | false => exact Leads.run_bind (Leads.run_lift (hnotify _)) fun _ => Leads.run_pure _
  | true =>
    refine Leads.run_bind (leads_orFileIn _ (leads_lookUp hrefusal _)) fun text => ?_
    split
    · exact Leads.run_pure _
    · exact Leads.run_throw _

theorem leads_chooseAddress (hask : ∀ a : Asking String, Leads R (ask a).run) (env : Environment)
    (given : Option String) (config : Config) : Leads R (chooseAddress env given config).run := by
  unfold chooseAddress
  split
  · exact leads_ofExcept _
  · exact hask _

theorem leads_chooseModularity (hask : ∀ a : Asking Modularity, Leads R (ask a).run)
    (env : Environment) (given : Option Modularity) (config : Config) :
    Leads R (chooseModularity env given config).run := by
  unfold chooseModularity
  split
  · exact Leads.run_pure _
  · exact hask _

theorem quiet_loadConfig (path : String) : Quiet (loadConfig path).run :=
  leads_loadConfig quiet_notify quiet_nextRefusal path

theorem quiet_chooseAddress (env : Environment) (given : Option String) (config : Config) :
    Quiet (chooseAddress env given config).run := leads_chooseAddress quiet_ask env given config

theorem quiet_chooseModularity (env : Environment) (given : Option Modularity) (config : Config) :
    Quiet (chooseModularity env given config).run :=
  leads_chooseModularity quiet_ask env given config

/-! ## Fetching and generating -/

/-- Sending keeps everything but the requests. -/
theorem leads_send (hrequests : ∀ w requests, R w { w with requests }) (env : Environment)
    (address : String) (o : RequestOptions) : Leads R (send env address o) := by
  unfold send
  split
  · exact Leads.pure _
  · next sending hsending =>
    intro w r w' h
    obtain ⟨w₀, w₁, hget, h⟩ := of_run_state_bind h
    obtain ⟨rfl, rfl⟩ := Prod.mk.inj hget
    split at h
    · exact Leads.pure _ h
    · obtain ⟨_, rfl⟩ := Prod.mk.inj h
      exact hrequests _ _

theorem leads_reportPage (hnotify : ∀ n, Leads R (notify n)) (env : Environment) (address : String)
    (r : Http.Response) : Leads R (reportPage env address r) := by
  unfold reportPage
  split
  · exact Leads.pure _
  · refine Leads.bind (hnotify _) fun _ => ?_
    split
    · exact Leads.pure _
    · exact hnotify _

/-- The text at an address, without the notices that come before the request. -/
def receive (env : Environment) (address : String) (o : RequestOptions) :
    Session (Except Failure (List Char)) := do
  match ← send env address o with
  | .response r =>
    reportPage env address r
    pure (r.text address)
  | _ => pure (.error (.transport address))

theorem fetchText_eq (env : Environment) (address : String) (o : RequestOptions) :
    fetchText env address o = (do
      notify (.fetching address)
      if o.strictSsl = some false then notify .uncheckedCertificates
      receive env address o) := rfl

theorem leads_receive (hnotify : ∀ n, Leads R (notify n))
    (hrequests : ∀ w requests, R w { w with requests }) (env : Environment) (address : String)
    (o : RequestOptions) : Leads R (receive env address o) := by
  refine Leads.bind (leads_send hrequests env address o) fun reply => ?_
  split
  · exact Leads.bind (leads_reportPage hnotify env address _) fun _ => Leads.pure _
  · exact Leads.pure _

theorem leads_fetchText (hnotify : ∀ n, Leads R (notify n))
    (hrequests : ∀ w requests, R w { w with requests }) (env : Environment) (address : String)
    (o : RequestOptions) : Leads R (fetchText env address o) := by
  have hrest := leads_receive hnotify hrequests env address o
  rw [fetchText_eq]
  refine Leads.bind (hnotify _) fun _ => ?_
  split
  · exact Leads.bind (hnotify _) fun _ => hrest
  · exact hrest

theorem leads_parseMetadata (hnotify : ∀ n, Leads R (notify n)) (text : List Char) :
    Leads R (parseMetadata text) := by
  refine Leads.bind (hnotify _) fun _ => Leads.bind ?_ fun _ => Leads.pure _
  exact Leads.forIn fun _ => hnotify _

theorem leads_fetch (hnotify : ∀ n, Leads R (notify n))
    (hrequests : ∀ w requests, R w { w with requests }) (env : Environment) (address : String)
    (o : RequestOptions) : Leads R (fetch env address o) := by
  refine Leads.bind (leads_fetchText hnotify hrequests env address o) fun text => ?_
  cases text with
  | error f => exact Leads.pure _
  | ok text => exact leads_parseMetadata hnotify text

theorem quiet_fetch (env : Environment) (address : String) (o : RequestOptions) :
    Quiet (fetch env address o) := leads_fetch quiet_notify (fun _ _ => rfl) env address o

theorem quiet_generate (env : Environment) (render : Renderer) (policy : KeyPolicy)
    (settings : FileSettings) (templates : Text.Dictionary) :
    Quiet (Generator.generate (source env) render policy settings templates).run := by
  refine Leads.run_bind (Leads.pure _) fun template => ?_
  refine Leads.run_bind (quiet_fetch env _ _) fun edmx => ?_
  refine Leads.run_bind (Leads.pure _) fun model => ?_
  refine Leads.run_bind (Leads.run_lift (quiet_notify _)) fun _ => ?_
  refine Leads.run_bind (Leads.run_lift (Leads.pure _)) fun created => ?_
  exact Leads.pure _

end EdmxGen.Session
