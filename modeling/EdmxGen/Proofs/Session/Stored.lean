import EdmxGen.Proofs.Session.Repeat

/-!
# The configuration that the files store

The files store a configuration if its text can be read at its path, or if nothing lies there and it
is the standard one (`Stored`). Loading gives what is stored (`loadConfig_of_stored`), so what was
saved is loaded (`loadConfig_after_save`). Saving stores another configuration or leaves the stored
one (`saveConfig_stored`). All other steps of a run leave it if their paths do not lead through its
file, for they avoid the place of the file (`Around`).
-/

namespace EdmxGen.Session

open FileSystem

variable {α : Type} {path : String} {config : Config} {fs fs' : FileSystem} {w w' : World}

/-! ## Steps that avoid a place -/

/-- Between worlds with the working directory of these files, changes avoid a place. -/
def Around (fs : FileSystem) (place : List String) (w w' : World) : Prop :=
  w.files.here = fs.here → Avoids place w.files w'.files

variable {place : List String}

instance : Steady (Around fs place) where
  refl _ _ := Avoids.of_eq rfl
  trans h h' hhere :=
    have hfirst := h hhere
    hfirst.trans (h' (hfirst.lasts.here.trans hhere))

theorem around_of_quiet {x : Session α} (hx : Quiet x) : Leads (Around fs place) x :=
  fun _ _ _ h _ => Avoids.of_eq (hx h)

theorem around_change {f : FileSystem → Except FileErrorKind FileSystem}
    (hf : ∀ {fs₁ fs₂ : FileSystem}, fs₁.here = fs.here → f fs₁ = .ok fs₂ → Avoids place fs₁ fs₂) :
    Leads (Around fs place) (change f) :=
  leads_change (around_of_quiet quiet_nextRefusal) fun _ _ hchange hhere => hf hhere hchange

theorem around_writeFile {text : String} (h : fs.target path ≠ place) :
    Leads (Around fs place) (writeFile path text) := by
  refine around_change fun hhere hwrite => avoids_write hwrite ?_
  rwa [target_congr hhere]

theorem around_createDirs {dir : String} (h : ¬ fs.LeadsThrough dir place) :
    Leads (Around fs place) (createDirs dir) := by
  refine around_change fun hhere hmake => avoids_createDirs hmake ?_
  rwa [leadsThrough_congr hhere]

/-- Resolving templates avoids a place if no bundled template lies there and the path of the
directory does not lead through it. -/
theorem around_resolveTemplates {dir : String} (hdir : ¬ fs.LeadsThrough dir place)
    (hplace : ∀ b ∈ Template.bundled, fs.target (Path.join dir b.1) ≠ place) :
    Leads (Around fs place) (resolveTemplates dir) := by
  refine Leads.bind ?_ fun _ => Leads.pure _
  exact leads_resolve (fun n => around_of_quiet (quiet_notify n))
    (around_of_quiet quiet_nextRefusal) (around_createDirs hdir)
    fun b hb => around_writeFile (hplace b hb)

theorem around_generateFile (env : Environment) {settings : FileSettings} {root output : String}
    {policy : KeyPolicy} (hdir : ¬ fs.LeadsThrough (config.templateDir root) place)
    (hplace : ∀ b ∈ Template.bundled,
      fs.target (Path.join (config.templateDir root) b.1) ≠ place)
    (houtput : fs.target output ≠ place) :
    Leads (Around fs place) (generateFile env config settings root output policy).run := by
  refine Leads.run_bind (leads_orFailIn _ (around_resolveTemplates hdir hplace)) fun templates => ?_
  refine Leads.run_bind (leads_orFailIn _ ?_) fun file => ?_
  · exact around_of_quiet (quiet_generate env Generator.dumpModel policy settings templates)
  refine Leads.run_bind (leads_orFileIn _ (around_writeFile houtput)) fun _ => ?_
  exact Leads.run_bind (Leads.run_lift (around_of_quiet (quiet_notify _))) fun _ => Leads.run_pure _

theorem around_ensureDirOf
    (h : ∀ dir, Path.parent? path = some dir → ¬ fs.LeadsThrough dir place) :
    Leads (Around fs place) (ensureDirOf path).run := by
  unfold ensureDirOf
  split
  · exact Leads.run_pure _
  · next dir hdir =>
    refine Leads.run_bind (Leads.run_lift (around_of_quiet (quiet_isSeen dir))) fun seen => ?_
    cases seen with
    | true => exact Leads.run_pure _
    | false =>
      refine Leads.run_bind (leads_orFileIn _ (around_createDirs (h dir hdir))) fun _ => ?_
      exact Leads.run_lift (around_of_quiet (quiet_notify _))

/-! ## Loading and saving -/

/-- The files store a configuration at a path. -/
inductive Stored (path : String) : Config → FileSystem → Prop
  /-- Nothing lies there, which stores the standard configuration. -/
  | unset {fs : FileSystem} (h : fs.at? (fs.target path) = none) : Stored path {} fs
  | file {config : Config} {fs : FileSystem} (h : fs.read path = .ok (String.ofList config.write)) :
    Stored path config fs

theorem Stored.of_avoids (h : Stored path config fs) (h' : Avoids (fs.target path) fs fs') :
    Stored path config fs' := by
  cases h with
  | unset hnone =>
    refine .unset ?_
    rw [target_congr h'.lasts.here, h'.same, hnone]
  | file hread => exact .file (h'.lasts.read hread (textAt?_congr h'.same))

theorem Stored.of_around (h : Stored path config w.files)
    (h' : Around w.files (w.files.target path) w w') : Stored path config w'.files :=
  h.of_avoids (h' rfl)

theorem exists?_eq_false (h : fs.at? (fs.target path) = none) : fs.exists? path = false := by
  rw [Bool.eq_false_iff]
  intro hseen
  obtain ⟨p, entry, hplace, hat⟩ := exists?_iff.1 hseen
  rw [place_eq hplace, h] at hat
  nomatch hat

/-- What is stored is loaded. -/
theorem loadConfig_of_stored (h : Stored path config w.files) (hw : w.refusals = []) :
    ((loadConfig path).run.run w).1 = .ok config := by
  cases h with
  | unset hnone =>
    unfold loadConfig
    rw [run_bind_ok (run_lift (run_isSeen hw path)), exists?_eq_false hnone]
    rfl
  | file hread => rw [loadConfig_saved hw hread]

theorem isSeen_unrefused {seen : Bool} (hw : w.refusals.head?.join = none)
    (h : (isSeen path).run w = (seen, w')) : w.files.exists? path = seen := by
  obtain ⟨refusal, w₁, hrefusal, h⟩ := of_run_state_bind h
  obtain rfl : refusal = none := (congrArg Prod.fst hrefusal).symm.trans hw
  rw [← quiet_nextRefusal hrefusal]
  exact congrArg Prod.fst h

/-- A run loads what is stored or fails, unless it may not look for its configuration: then it loads
the standard one. -/
theorem loadConfig_stored {config' : Config} (h : Stored path config w.files)
    (hload : (loadConfig path).run.run w = (.ok config', w')) :
    config' = config ∨ config' = {} ∧ w.refusals.head?.join ≠ none := by
  obtain ⟨seen, w₁, hsee, hload⟩ := of_run_lift_bind hload
  cases seen with
  | false =>
    have hstandard : config' = {} := (Except.ok.inj (Prod.mk.inj hload).1).symm
    by_cases hw : w.refusals.head?.join = none
    · cases h with
      | unset _ => exact Or.inl hstandard
      | file hread =>
        have hseen := isSeen_unrefused hw hsee
        rw [exists?_of_read hread] at hseen
        nomatch hseen
    · exact Or.inr ⟨hstandard, hw⟩
  | true =>
    obtain ⟨text, w₂, hread, hload⟩ := ok_of_run_bind hload
    have htext : w.files.read path = .ok text := by
      rw [← quiet_isSeen path hsee]
      exact lookUp_ok (f := fun fs => fs.read path) (of_run_orFileIn hread)
    cases h with
    | unset hnone =>
      have hseen := isSeen_true hsee
      rw [exists?_eq_false hnone] at hseen
      nomatch hseen
    | file hread' =>
      obtain rfl := Except.ok.inj (htext.symm.trans hread')
      rw [String.toList_ofList, Config.ofText?_write] at hload
      exact Or.inl (Except.ok.inj (Prod.mk.inj hload).1).symm

/-- A configuration that is saved is stored; where saving fails, the one before is. -/
theorem saveConfig_stored {saved : Config} {r : Except Trouble Unit}
    (h : Stored path config w.files)
    (hdir : ∀ dir, Path.parent? path = some dir →
      ¬ w.files.LeadsThrough dir (w.files.target path))
    (hsave : (saveConfig path saved).run.run w = (r, w')) :
    Stored path (if r.toBool then saved else config) w'.files := by
  cases r with
  | ok _ =>
    obtain ⟨fs, _, hwrite⟩ := saveConfig_ok hsave
    exact .file (read_write hwrite)
  | error t =>
    -- Making the directory may have succeeded, but it avoids the place of the file.
    have hensure := around_ensureDirOf hdir
    rcases error_of_run_bind hsave with hfail | ⟨_, w₁, hgo, hsave⟩
    · exact h.of_around (hensure hfail)
    · rcases error_of_run_bind hsave with hfail | ⟨_, w₂, _, hnotify⟩
      · obtain ⟨_, hchange, _⟩ := error_of_run_orFileIn hfail
        rw [change_error hchange]
        exact h.of_around (hensure hgo)
      · obtain ⟨_, hr, _⟩ := of_run_lift hnotify
        nomatch hr

/-- A configuration that was saved at a path is loaded from there, whatever lay there before, where
the system refuses neither to look for the file nor to read it. -/
theorem loadConfig_after_save {saved : Config}
    (hsave : (saveConfig path saved).run.run w = (.ok (), w'))
    (hspared : ∀ r ∈ w'.refusals.take 2, r = none) :
    (loadConfig path).run.run w' = (.ok saved, { w' with refusals := w'.refusals.drop 2 }) := by
  obtain ⟨fs, _, hwrite⟩ := saveConfig_ok hsave
  exact loadConfig_spared hspared (read_write hwrite)

/-- A configuration whose texts hold quotes, backslashes, breaks and control characters. -/
def escaped : Config :=
  ⟨["", "a\"\"\"b\\", "\r\n\x00\x7f"], ⟨0, "d\n", .propertyRef, some .modular⟩⟩

/-- A world with a file that holds no configuration, whose fifth operation on files is refused. -/
def guarded : World where
  files := { entries := [(["c"], .file "[")] }
  refusals := [none, none, none, none, some .other]

theorem loadConfig_after_save_escaped :
    ∃ w, (saveConfig "/c" escaped).run.run guarded = (.ok (), w) ∧
      (loadConfig "/c").run.run w = (.ok escaped, { w with refusals := [some .other] }) := by
  have hdone : ((saveConfig "/c" escaped).run.run guarded).1.toBool = true := by decide +kernel
  have hleft : ((saveConfig "/c" escaped).run.run guarded).2.refusals =
      [none, none, some .other] := by
    decide +kernel
  rcases hsave : (saveConfig "/c" escaped).run.run guarded with ⟨r, w⟩
  rw [hsave] at hdone hleft
  cases r with
  | error t => nomatch hdone
  | ok _ =>
    refine ⟨w, rfl, ?_⟩
    rw [loadConfig_after_save hsave (by rw [hleft]; decide), hleft]
    rfl

end EdmxGen.Session
