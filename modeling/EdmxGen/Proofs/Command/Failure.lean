import EdmxGen.Proofs.Session.Saving

/-!
# What failed runs leave

A run that fails destroys nothing: the file of the configuration keeps its text, the output keeps
its text unless saving the configuration failed, and other files differ only by bundled templates
(`run_lawful`). One thing can be lost: templates in a directory that was taken for missing because
its path leads through one that is.
-/

namespace EdmxGen.Command

open Session FileSystem

variable {ε α β : Type} {env : Environment} {w w' : World}

/-! ## Steps before the first change -/

/-- A relation between the files before and after a step and what the step gives. -/
def Leaves (R : FileSystem → Except ε α → FileSystem → Prop) (x : ExceptT ε Session α) : Prop :=
  ∀ ⦃w r w'⦄, x.run.run w = (r, w') → R w.files r w'.files

theorem Leaves.bind {R : FileSystem → Except ε β → FileSystem → Prop} {x : ExceptT ε Session α}
    {f : α → ExceptT ε Session β} (hx : Quiet x.run) (herror : ∀ fs e, R fs (.error e) fs)
    (hf : ∀ a, Leaves R (f a)) : Leaves R (x >>= f) := by
  intro w r w' h
  rcases of_run_bind h with ⟨e, hfail, rfl⟩ | ⟨a, w₁, hgo, h⟩
  · rw [hx hfail]
    exact herror _ e
  · rw [← hx hgo]
    exact hf a h

theorem quiet_settingsFor (env : Environment) (config : Config) (text : String) :
    Quiet (settingsFor env config text).run := by
  unfold settingsFor
  split
  · exact Leads.run_pure _
  · refine Leads.run_bind (Leads.run_lift (quiet_notify _)) fun _ => ?_
    refine Leads.run_bind (quiet_chooseAddress env none config) fun address => ?_
    exact Leads.run_bind (quiet_chooseModularity env none config) fun _ => Leads.run_pure _
  · exact Leads.run_throw _

theorem quiet_loadMetadata (env : Environment) (address : String) (o : RequestOptions) :
    Quiet (loadMetadata env address o).run := leads_orFailIn _ (quiet_fetch env address o)

theorem quiet_showEntityType (env : Environment) (name : String) (given : Option String)
    (o : RequestOptions) (policy : Option KeyPolicy) :
    Quiet (showEntityType env name given o policy).run := by
  refine Leads.run_bind (quiet_loadConfig _) fun config => ?_
  refine Leads.run_bind (quiet_chooseAddress env given config) fun address => ?_
  refine Leads.run_bind (quiet_loadMetadata env address o) fun edmx => ?_
  refine Leads.run_bind (leads_ofExcept _) fun model => ?_
  split
  · exact Leads.run_lift (quiet_print _)
  · exact Leads.run_throw _

theorem quiet_showHeader (path : String) : Quiet (showHeader path).run := by
  refine Leads.run_bind (leads_orFileIn _ (quiet_lookUp _)) fun text => ?_
  refine Leads.run_bind (leads_orFailIn _ (Leads.pure _)) fun settings => ?_
  exact Leads.run_lift (quiet_print _)

/-! ## Listing a service and listing templates -/

/-- Only the file at this path may differ, and only where the step succeeds. -/
def OnSuccess (path : String) (fs : FileSystem) (r : Except Trouble Unit) (fs' : FileSystem) :
    Prop :=
  ∀ p, fs'.textAt? p ≠ fs.textAt? p → p = fs.target path ∧ r = .ok ()

theorem onSuccess_error (path : String) (fs : FileSystem) (t : Trouble) :
    OnSuccess path fs (.error t) fs := fun _ hp => absurd rfl hp

theorem rememberAddress_leaves (path : String) (config : Config) (address : String) :
    Leaves (OnSuccess path) (rememberAddress path config address) := by
  intro w r w' h p hp
  obtain ⟨_, hother, hfailed⟩ := saveConfig_files h
  cases r with
  | ok _ => exact ⟨by_contra fun hne => hp (hother p hne), rfl⟩
  | error t => exact absurd ((hfailed t rfl).1.texts p) hp

/-- What follows the choice of an address in a listing only reads, up to the saving. -/
theorem listing_leaves {R : FileSystem → Except Trouble Unit → FileSystem → Prop}
    (herror : ∀ fs t, R fs (.error t) fs) {config : Config} {address : String}
    (hsave : Leaves R (rememberAddress env.configPath config address)) (o : RequestOptions) :
    Leaves R (do
      let edmx ← loadMetadata env address o
      let model ← project .firstProperty edmx
      Attempt.lift (print [⟨.bold, "Metadata"⟩, .plain (" " ++ address)])
      match edmx.attribute? "Version" with
      | some version => Attempt.lift (print [.plain ("EDMX version " ++ version)])
      | none => pure ()
      for e in model.entityTypes do
        Attempt.lift (print (describe e))
      Attempt.lift (print [.plain (countTypes model)])
      rememberAddress env.configPath config address) := by
  refine Leaves.bind (quiet_loadMetadata env address o) herror fun edmx => ?_
  refine Leaves.bind (leads_ofExcept _) herror fun model => ?_
  refine Leaves.bind (Leads.run_lift (quiet_print _)) herror fun _ => ?_
  -- What follows the version, which is printed if there is one.
  have hrest : Leaves R (do
      for e in model.entityTypes do
        Attempt.lift (print (describe e))
      Attempt.lift (print [.plain (countTypes model)])
      rememberAddress env.configPath config address) := by
    refine Leaves.bind (Leads.run_forIn fun _ => Leads.run_lift (quiet_print _)) herror fun _ => ?_
    exact Leaves.bind (Leads.run_lift (quiet_print _)) herror fun _ => hsave
  cases edmx.attribute? "Version" with
  | some version => exact Leaves.bind (Leads.run_lift (quiet_print _)) herror fun _ => hrest
  | none => exact hrest

theorem listEntityTypes_leaves (env : Environment) (given : Option String) (o : RequestOptions) :
    Leaves (OnSuccess env.configPath) (listEntityTypes env given o) := by
  have herror := onSuccess_error env.configPath
  refine Leaves.bind (quiet_loadConfig _) herror fun config => ?_
  refine Leaves.bind (quiet_chooseAddress env given config) herror fun address => ?_
  exact listing_leaves herror (rememberAddress_leaves env.configPath config address) o

/-- The configuration with which a run in a world works. -/
def configIn (env : Environment) (w : World) : Except Trouble Config :=
  ((loadConfig env.configPath).run.run w).1

theorem orFail_filled {dir : String} {r : Except Trouble Text.Dictionary}
    (h : (Attempt.orFail (resolveTemplates dir)).run.run w = (r, w')) :
    Filled dir w.files w'.files := by
  obtain ⟨_, hresolve⟩ := exists_of_run_mapError h
  exact resolveTemplates_filled hresolve

theorem orFailIn_filled {context dir : String} {r : Except Trouble Text.Dictionary}
    (h : (Attempt.orFailIn context (resolveTemplates dir)).run.run w = (r, w')) :
    Filled dir w.files w'.files := by
  obtain ⟨_, hresolve⟩ := exists_of_run_mapError h
  exact resolveTemplates_filled hresolve

/-- Showing templates does what printing does. -/
theorem leads_showTemplates {R : World → World → Prop} [Steady R]
    (hprint : ∀ spans, Leads R (print spans)) (dir : String) (templates : Text.Dictionary) :
    Leads R (do
      Attempt.lift (print [⟨.bold, "Templates in"⟩, .plain (" " ++ dir)])
      for t in templates.entries do
        Attempt.lift (print [.plain "  ", ⟨.accent, t.1⟩, .plain s!" ({lineCount t.2} lines)"])
      if templates.isEmpty then
        Attempt.lift (print [.plain "  (no .ot files)"]) : Attempt Unit).run := by
  refine Leads.run_bind (Leads.run_lift (hprint _)) fun _ => ?_
  refine Leads.run_bind (Leads.run_forIn fun _ => Leads.run_lift (hprint _)) fun _ => ?_
  split
  · exact Leads.run_lift (hprint _)
  · exact Leads.run_pure _

/-- Listing templates changes files only by copying the bundled ones. -/
theorem listTemplates_files {root : String} {r : Except Trouble Unit}
    (h : (listTemplates env root).run.run w = (r, w')) {p : List String}
    (hp : w'.files.textAt? p ≠ w.files.textAt? p) :
    ∃ config, configIn env w = .ok config ∧
      Copied (config.templateDir root) w.files w'.files p := by
  rcases of_run_bind h with ⟨_, hload, _⟩ | ⟨config, w₁, hload, h⟩
  · rw [quiet_loadConfig _ hload] at hp
    exact absurd rfl hp
  · refine ⟨config, congrArg Prod.fst hload, ?_⟩
    rw [← quiet_loadConfig _ hload] at hp ⊢
    have hfilled : Filled (config.templateDir root) w₁.files w'.files := by
      rcases of_run_bind h with ⟨_, hresolve, _⟩ | ⟨templates, w₂, hresolve, h⟩
      · exact orFail_filled hresolve
      · rw [leads_showTemplates quiet_print _ templates h]
        exact orFail_filled hresolve
    exact hfilled.copied p hp

/-! ## Generating a file -/

/-- The output of a run is neither the file of the configuration nor in the template directory. -/
structure Apart (configPath dir output : String) (fs : FileSystem) : Prop where
  config : fs.target output ≠ fs.target configPath
  templates : ¬ fs.target dir <+: fs.target output

/-- What a failed run that writes an output leaves of the files. -/
structure Spared (configPath dir output : String) (t : Trouble) (fs fs' : FileSystem) : Prop where
  config : fs'.textAt? (fs.target configPath) = fs.textAt? (fs.target configPath)
  written : fs'.textAt? (fs.target output) = fs.textAt? (fs.target output) ∨
    SavingFailed configPath t
  others : ∀ p, p ≠ fs.target output → fs'.textAt? p ≠ fs.textAt? p → Copied dir fs fs' p

theorem Spared.refl (configPath dir output : String) (t : Trouble) (fs : FileSystem) :
    Spared configPath dir output t fs fs :=
  ⟨rfl, Or.inl rfl, fun _ _ hp => absurd rfl hp⟩

/-- A step that writes an output spares the files where it fails. -/
def OnFailure (configPath dir output : String) (fs : FileSystem) (r : Except Trouble Unit)
    (fs' : FileSystem) : Prop :=
  ∀ t, r = .error t → Apart configPath dir output fs → Spared configPath dir output t fs fs'

theorem onFailure_error (configPath dir output : String) (fs : FileSystem) (t : Trouble) :
    OnFailure configPath dir output fs (.error t) fs :=
  fun t _ _ => Spared.refl configPath dir output t fs

/-- The output is written last, to files in which templates may have been copied. -/
theorem generateFile_files {config : Config} {settings : FileSettings} {root output : String}
    {policy : KeyPolicy} {r : Except Trouble GeneratedFile}
    (h : (generateFile env config settings root output policy).run.run w = (r, w')) :
    (∃ t, r = .error t) ∧ Filled (config.templateDir root) w.files w'.files ∨
      ∃ file fs, r = .ok file ∧ Filled (config.templateDir root) w.files fs ∧
        fs.write output (String.ofList file.contents) = .ok w'.files := by
  rcases of_run_bind h with ⟨t, hresolve, rfl⟩ | ⟨templates, w₁, hresolve, h⟩
  · exact Or.inl ⟨⟨t, rfl⟩, orFailIn_filled hresolve⟩
  · have hfilled := orFailIn_filled hresolve
    have hgenerate : Quiet (Attempt.orFailIn "Failed to generate service code"
        (Generator.generate (source env) Generator.dumpModel policy settings templates)).run :=
      leads_orFailIn _ (quiet_generate env Generator.dumpModel policy settings templates)
    rcases of_run_bind h with ⟨t, hfail, rfl⟩ | ⟨file, w₂, hgo, h⟩
    · rw [hgenerate hfail]
      exact Or.inl ⟨⟨t, rfl⟩, hfilled⟩
    · rw [← hgenerate hgo] at hfilled
      rcases of_run_bind h with ⟨t, hwrite, rfl⟩ | ⟨_, w₃, hwrite, h⟩
      · obtain ⟨_, hchange, _⟩ := error_of_run_orFileIn hwrite
        rw [change_error hchange]
        exact Or.inl ⟨⟨t, rfl⟩, hfilled⟩
      · obtain ⟨_, w₄, hnotify, h⟩ := of_run_lift_bind h
        obtain ⟨rfl, rfl⟩ := Prod.mk.inj h
        rw [quiet_notify _ hnotify]
        exact Or.inr ⟨file, w₂.files, rfl, hfilled, change_ok (of_run_orFileIn hwrite)⟩

theorem target_configPath (lookup : String → Option String) (fs : FileSystem) :
    ∃ place, fs.target (Config.path lookup) = place ++ ["config.toml"] :=
  ⟨_, target_join fs _ ⟨by simp, by simp, by simp, by simp⟩⟩

/-- The file of the configuration is no template. -/
theorem target_configPath_ne (lookup : String → Option String) (fs : FileSystem)
    (place : List String) {name : String} (h : Template.isTemplate name = true) :
    fs.target (Config.path lookup) ≠ place ++ [name] := by
  obtain ⟨above, habove⟩ := target_configPath lookup fs
  rw [habove]
  intro heq
  obtain rfl : "config.toml" = name := by simpa using congrArg List.getLast? heq
  exact absurd h (by decide +kernel)

theorem ne_config_of_copied {lookup : String → Option String} {dir : String}
    {fs fs' : FileSystem} {p : List String} (h : Copied dir fs fs' p) :
    p ≠ fs.target (Config.path lookup) := by
  obtain ⟨b, hb, rfl, _⟩ := h
  exact (target_configPath_ne lookup fs _ (Template.isTemplate_bundled hb)).symm

theorem copied_congr {dir : String} {fs fs' fs'' : FileSystem} {p : List String}
    (hp : fs''.textAt? p = fs'.textAt? p) (h : Copied dir fs fs' p) : Copied dir fs fs'' p := by
  obtain ⟨b, hb, hplace, htext, hbare⟩ := h
  exact ⟨b, hb, hplace, hp.trans htext, hbare⟩

theorem config_of_filled {lookup : String → Option String} {dir : String}
    {fs fs' : FileSystem} (h : Filled dir fs fs') :
    fs'.textAt? (fs.target (Config.path lookup)) = fs.textAt? (fs.target (Config.path lookup)) := by
  by_contra hne
  exact ne_config_of_copied (h.copied _ hne) rfl

theorem output_of_filled {configPath dir output : String} {fs fs' : FileSystem}
    (hapart : Apart configPath dir output fs) (h : Filled dir fs fs') :
    fs'.textAt? (fs.target output) = fs.textAt? (fs.target output) := by
  by_contra hne
  obtain ⟨b, _, hplace, _⟩ := h.copied _ hne
  exact hapart.templates ⟨[b.1], hplace.symm⟩

/-- Writing the output and then saving the configuration spares the files on failure. -/
theorem generateFile_leaves {lookup : String → Option String}
    (hpath : env.configPath = Config.path lookup) (config : Config) (settings : FileSettings)
    (root output address : String) (policy : KeyPolicy) (line : GeneratedFile → List Span) :
    Leaves (OnFailure env.configPath (config.templateDir root) output) (do
      let file ← generateFile env config settings root output policy
      rememberAddress env.configPath config address
      Attempt.lift (print (line file))) := by
  rintro w r w' h t rfl hapart
  rcases error_of_run_bind h with hfail | ⟨file, w₁, hgo, h⟩
  · rcases generateFile_files hfail with ⟨_, hfilled⟩ | ⟨_, _, hr, _⟩
    · refine ⟨?_, Or.inl (output_of_filled hapart hfilled), fun p _ => hfilled.copied p⟩
      rw [hpath]
      exact config_of_filled hfilled
    · simp at hr
  · rcases generateFile_files hgo with ⟨⟨_, hr⟩, _⟩ | ⟨_, fs, _, hfilled, hwrite⟩
    · simp at hr
    · rcases error_of_run_bind h with hsave | ⟨_, w₂, _, hprint⟩
      · obtain ⟨hsame, hfailed⟩ := (saveConfig_files hsave).2.2 t rfl
        have hother : ∀ p, p ≠ w.files.target output →
            w'.files.textAt? p = fs.textAt? p := by
          intro p hp
          rw [← target_congr hfilled.here] at hp
          exact (hsame.texts p).trans ((textAt?_write hwrite).2.2 p hp)
        refine ⟨?_, Or.inr hfailed, fun p hp hchanged => ?_⟩
        · rw [hother _ hapart.config.symm, hpath]
          exact config_of_filled hfilled
        · rw [hother p hp] at hchanged
          exact copied_congr (hother p hp) (hfilled.copied p hchanged)
      · obtain ⟨_, hr, _⟩ := of_run_lift hprint
        simp at hr

/-! ## Any command -/

/-- What a run with this root of its project and this output leaves of the files. -/
def Spares (env : Environment) (root output : String) (w : World) (r : Except Trouble Unit)
    (w' : World) : Prop :=
  match configIn env w with
  | .error _ => w'.files = w.files
  | .ok config =>
    OnFailure env.configPath (config.templateDir root) output w.files r w'.files

theorem spares_of_leaves {root output : String} {f : Config → Attempt Unit}
    {r : Except Trouble Unit}
    (hf : ∀ config, Leaves (OnFailure env.configPath (config.templateDir root) output) (f config))
    (h : (loadConfig env.configPath >>= f).run.run w = (r, w')) :
    Spares env root output w r w' := by
  unfold Spares
  rcases of_run_bind h with ⟨t, hload, _⟩ | ⟨config, w₁, hload, h⟩
  · have hconfig : configIn env w = .error t := congrArg Prod.fst hload
    rw [hconfig]
    exact quiet_loadConfig _ hload
  · have hconfig : configIn env w = .ok config := congrArg Prod.fst hload
    rw [hconfig, ← quiet_loadConfig _ hload]
    exact hf config h

/-- What a run of a command with this result leaves of the files. -/
def Lawful (env : Environment) (w : World) (r : Except Trouble Unit) (w' : World) :
    Command → Prop
  | .generate o => Spares env o.root o.output w r w'
  | .update file root => Spares env root file w r w'
  | .metadata _ _ => OnSuccess env.configPath w.files r w'.files
  | .entity _ _ _ _ => w'.files = w.files
  | .header _ => w'.files = w.files
  | .templates root => ∀ p, w'.files.textAt? p ≠ w.files.textAt? p →
      ∃ config, configIn env w = .ok config ∧ Copied (config.templateDir root) w.files w'.files p

/-- Failed runs destroy nothing. -/
theorem run_lawful {env : Environment} {lookup : String → Option String}
    (hpath : env.configPath = Config.path lookup) {c : Command} {w w' : World}
    {r : Except Trouble Unit} (h : (run env c).run.run w = (r, w')) : Lawful env w r w' c := by
  cases c with
  | generate o =>
    refine spares_of_leaves (fun config => ?_) h
    have herror := onFailure_error env.configPath (config.templateDir o.root) o.output
    refine Leaves.bind (quiet_chooseAddress env o.address config) herror fun address => ?_
    refine Leaves.bind (quiet_chooseModularity env o.modularity config) herror fun modularity => ?_
    refine Leaves.bind (Leads.run_lift (quiet_notify _)) herror fun _ => ?_
    exact generateFile_leaves hpath config _ o.root o.output address _ _
  | update file root =>
    refine spares_of_leaves (fun config => ?_) h
    have herror := onFailure_error env.configPath (config.templateDir root) file
    refine Leaves.bind (leads_orFileIn _ (quiet_lookUp _)) herror fun text => ?_
    refine Leaves.bind (quiet_settingsFor env config text) herror fun settings => ?_
    refine Leaves.bind (Leads.run_lift (quiet_notify _)) herror fun _ => ?_
    exact generateFile_leaves hpath config _ root file _ _ _
  | metadata given o => exact listEntityTypes_leaves env given o h
  | entity name given o policy => exact quiet_showEntityType env name given o policy h
  | header file => exact quiet_showHeader file h
  | templates root => exact fun p => listTemplates_files h

/-! ## A project with a template of its own -/

/-- No service can be reached, and the user answers nothing. -/
def offline : Environment where
  configPath := Config.path fun _ => none
  now := ⟨0, 0⟩
  network _ _ := .refused
  prompter _ := .none

/-- A project whose only template is its own, under the name of a bundled one. -/
def customised : World where
  files := .ofFiles [(".vscode/odatatools/templates/Interfaces.ot", "mine")]

theorem configIn_customised : configIn offline customised = .ok {} := by decide +kernel

/-- A generation in a project whose root is given by this path. -/
def generation (root : String) : GenerateOptions where
  output := "out.ts"
  address := some "http://h/svc"
  modularity := some .modular
  root := root

/-- A generation that cannot reach its service leaves the template and all else. -/
theorem run_lawful_offline :
    ∃ t w', (run offline (.generate (generation "."))).run.run customised = (.error t, w') ∧
      Apart offline.configPath (Config.templateDir {} ".") "out.ts" customised.files ∧
      Spared offline.configPath (Config.templateDir {} ".") "out.ts" t customised.files
        w'.files := by
  have hfails :
      ((run offline (.generate (generation "."))).run.run customised).1.toBool = false := by
    decide +kernel
  have hapart : Apart offline.configPath (Config.templateDir {} ".") "out.ts" customised.files :=
    ⟨by decide +kernel, by decide +kernel⟩
  rcases h : (run offline (.generate (generation "."))).run.run customised with ⟨r, w'⟩
  have hpath : offline.configPath = Config.path fun _ => none := rfl
  have hlawful := run_lawful hpath h
  rw [h] at hfails
  cases r with
  | ok _ => simp [Except.toBool] at hfails
  | error t =>
    unfold Lawful Spares at hlawful
    rw [configIn_customised] at hlawful
    exact ⟨t, w', rfl, hapart, hlawful t rfl hapart⟩

/-- A failed generation can lose a file. The root leads through a missing directory, so the template
directory is taken for missing and the template in it is overwritten. -/
theorem generate_loses_template :
    ¬ ∀ (lookup : String → Option String) (env : Environment) (o : GenerateOptions) (w w' : World)
      (t : Trouble), env.configPath = Config.path lookup →
      (run env (.generate o)).run.run w = (.error t, w') →
      (∀ config, configIn env w = .ok config →
        Apart env.configPath (config.templateDir o.root) o.output w.files) →
      ∀ p, p ≠ w.files.target o.output → w'.files.textAt? p ≠ w.files.textAt? p →
        w.files.textAt? p = none := by
  intro hclaim
  have hapart : Apart offline.configPath (Config.templateDir {} "missing/..") "out.ts"
      customised.files := ⟨by decide +kernel, by decide +kernel⟩
  have hends : ((run offline (.generate (generation "missing/.."))).run.run customised).1.toBool
        = false ∧
      ((run offline (.generate (generation "missing/.."))).run.run customised).2.files.textAt?
        ["project", ".vscode", "odatatools", "templates", "Interfaces.ot"] ≠ some "mine" := by
    decide +kernel
  rcases h : (run offline (.generate (generation "missing/.."))).run.run customised with ⟨r, w'⟩
  rw [h] at hends
  obtain ⟨hfails, hlost⟩ := hends
  cases r with
  | ok _ => simp [Except.toBool] at hfails
  | error t =>
    have hold : customised.files.textAt?
        ["project", ".vscode", "odatatools", "templates", "Interfaces.ot"] = some "mine" := by
      decide +kernel
    have hnone := hclaim (fun _ => none) offline (generation "missing/..") customised w' t rfl h
      (fun config hload => by
        rw [configIn_customised] at hload
        obtain rfl := Except.ok.inj hload
        exact hapart)
      ["project", ".vscode", "odatatools", "templates", "Interfaces.ot"] (by decide +kernel)
      (by
        rw [hold]
        exact hlost)
    rw [hold] at hnone
    simp at hnone

end EdmxGen.Command
