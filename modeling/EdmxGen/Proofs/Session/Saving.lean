import EdmxGen.Proofs.Session.Templates

/-!
# What saving the configuration changes

Saving changes the file of the configuration or fails and changes no file (`saveConfig_files`). What
it fails with says so.
-/

namespace EdmxGen.Session

open FileSystem

/-- The trouble of a run that could not save the configuration. -/
def SavingFailed (path : String) (t : Trouble) : Prop :=
  ∃ context e, t = .within context (.file e) ∧
    (context = "Failed to write config file: " ++ Text.quotedPath path ∨
      ∃ dir, Path.parent? path = some dir ∧
        context = "Failed to create config directory: " ++ Text.quotedPath dir)

theorem of_run_orFileIn {α : Type} {context : String} {s : Session (Except FileError α)}
    {w w' : World} {a : α} (h : (Attempt.orFileIn context s).run.run w = (.ok a, w')) :
    s.run w = (.ok a, w') := of_run_mapError h

theorem error_of_run_orFileIn {α : Type} {context : String} {s : Session (Except FileError α)}
    {w w' : World} {t : Trouble} (h : (Attempt.orFileIn context s).run.run w = (.error t, w')) :
    ∃ e, s.run w = (.error e, w') ∧ t = .within context (.file e) := error_of_run_mapError h

theorem sameFiles_createDirs {path : String} {w w' : World} {r : Except FileError Unit}
    (h : (createDirs path).run w = (r, w')) : SameFiles w.files w'.files := by
  rcases of_run_change h with ⟨hmake, _⟩ | ⟨hfiles, _⟩
  · exact sameFiles_makeDirs hmake
  · exact SameFiles.of_eq hfiles

theorem ensureDirOf_files {path : String} {w w' : World} {r : Except Trouble Unit}
    (h : (ensureDirOf path).run.run w = (r, w')) :
    SameFiles w.files w'.files ∧ ∀ t, r = .error t → SavingFailed path t := by
  unfold ensureDirOf at h
  split at h
  · obtain ⟨rfl, rfl⟩ := Prod.mk.inj h
    exact ⟨SameFiles.of_eq rfl, by simp⟩
  · next dir hdir =>
    obtain ⟨seen, w₁, hsee, h⟩ := of_run_lift_bind h
    rw [← quiet_isSeen dir hsee]
    cases seen with
    | true =>
      obtain ⟨rfl, rfl⟩ := Prod.mk.inj h
      exact ⟨SameFiles.of_eq rfl, by simp⟩
    | false =>
      rcases of_run_bind h with ⟨e, hmake, rfl⟩ | ⟨_, w₂, hmake, h⟩
      · obtain ⟨e₀, hcreate, he⟩ := error_of_run_orFileIn hmake
        refine ⟨sameFiles_createDirs hcreate, fun t ht => ?_⟩
        obtain rfl := Except.error.inj ht
        exact ⟨_, e₀, he, Or.inr ⟨dir, hdir, rfl⟩⟩
      · have hcreate := of_run_orFileIn hmake
        obtain ⟨_, rfl, hnotify⟩ := of_run_lift h
        exact ⟨(sameFiles_createDirs hcreate).trans (SameFiles.of_eq (quiet_notify _ hnotify)),
          by simp⟩

/-- The file of a saved configuration is the only one that may differ; where saving fails, none
does. -/
theorem saveConfig_files {path : String} {config : Config} {w w' : World} {r : Except Trouble Unit}
    (h : (saveConfig path config).run.run w = (r, w')) :
    w'.files.here = w.files.here ∧
      (∀ p, p ≠ w.files.target path → w'.files.textAt? p = w.files.textAt? p) ∧
      ∀ t, r = .error t → SameFiles w.files w'.files ∧ SavingFailed path t := by
  rcases of_run_bind h with ⟨e, hensure, rfl⟩ | ⟨_, w₁, hensure, h⟩
  · obtain ⟨hsame, hfailed⟩ := ensureDirOf_files hensure
    exact ⟨hsame.here, fun p _ => hsame.texts p, fun t ht => ⟨hsame, hfailed t ht⟩⟩
  · obtain ⟨hsame, _⟩ := ensureDirOf_files hensure
    rcases of_run_bind h with ⟨e, hwrite, rfl⟩ | ⟨_, w₂, hwrite, h⟩
    · obtain ⟨e₀, hchange, he⟩ := error_of_run_orFileIn hwrite
      have hall := hsame.trans (SameFiles.of_eq (change_error hchange))
      refine ⟨hall.here, fun p _ => hall.texts p, fun t ht => ⟨hall, ?_⟩⟩
      obtain rfl := Except.error.inj ht
      exact ⟨_, e₀, he, Or.inl rfl⟩
    · have hput := change_ok (of_run_orFileIn hwrite)
      obtain ⟨_, rfl, hnotify⟩ := of_run_lift h
      rw [quiet_notify _ hnotify]
      obtain ⟨hhere, _, hother⟩ := textAt?_write hput
      refine ⟨hhere.trans hsame.here, fun p hp => ?_, by simp⟩
      rw [← target_congr hsame.here] at hp
      exact (hother p hp).trans (hsame.texts p)

end EdmxGen.Session
