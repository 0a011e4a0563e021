import EdmxGen.Proofs.File.System
import EdmxGen.Proofs.Session.Quiet
import EdmxGen.Proofs.Template.Name

/-!
# What resolving templates changes

Resolving the templates of a directory changes files only where the directory listed no template,
and there only those of the bundled templates (`resolve_filled`). A directory that could be listed
had no file there before; one that was taken for missing may have had some.
-/

namespace EdmxGen.Session

open FileSystem

variable {α : Type} {fs fs' fs'' : FileSystem}

/-! ## Changes of files -/

/-- The change was made, or the files are as they were. -/
theorem of_run_change {f : FileSystem → Except FileErrorKind FileSystem} {w w' : World}
    {r : Except FileError Unit} (h : (change f).run w = (r, w')) :
    f w.files = .ok w'.files ∧ r = .ok () ∨ w'.files = w.files ∧ ∃ e, r = .error e := by
  obtain ⟨refusal, w₁, hrefusal, h⟩ := of_run_state_bind h
  have hfiles : w₁.files = w.files := quiet_nextRefusal hrefusal
  cases refusal with
  | some r₀ =>
    obtain ⟨rfl, rfl⟩ := Prod.mk.inj h
    exact Or.inr ⟨hfiles, _, rfl⟩
  | none =>
    obtain ⟨w₂, w₃, hget, h⟩ := of_run_state_bind h
    obtain ⟨rfl, rfl⟩ := Prod.mk.inj hget
    rw [← hfiles]
    split at h
    · next files hf =>
      obtain ⟨rfl, rfl⟩ := Prod.mk.inj h
      exact Or.inl ⟨hf, rfl⟩
    · obtain ⟨rfl, rfl⟩ := Prod.mk.inj h
      exact Or.inr ⟨rfl, _, rfl⟩

theorem change_ok {f : FileSystem → Except FileErrorKind FileSystem} {w w' : World} {u : Unit}
    (h : (change f).run w = (.ok u, w')) : f w.files = .ok w'.files := by
  rcases of_run_change h with ⟨hchange, _⟩ | ⟨_, e, he⟩
  · exact hchange
  · nomatch he

theorem change_error {f : FileSystem → Except FileErrorKind FileSystem} {w w' : World}
    {e : FileError} (h : (change f).run w = (.error e, w')) : w'.files = w.files := by
  rcases of_run_change h with ⟨_, hok⟩ | ⟨hsame, _⟩
  · nomatch hok
  · exact hsame

/-- At most these files in a directory differ, and those that do hold these texts. -/
structure Receives (dir : String) (files : List (String × String)) (fs fs' : FileSystem) :
    Prop where
  here : fs'.here = fs.here
  texts : ∀ p, fs'.textAt? p = fs.textAt? p ∨
    ∃ b ∈ files, p = fs.target (Path.join dir b.1) ∧ fs'.textAt? p = some b.2

theorem Receives.of_eq {dir : String} {files : List (String × String)} (h : fs' = fs) :
    Receives dir files fs fs' := by
  rw [h]
  exact ⟨rfl, fun _ => Or.inl rfl⟩

theorem Receives.trans {dir : String} {files : List (String × String)}
    (h : Receives dir files fs fs') (h' : Receives dir files fs' fs'') :
    Receives dir files fs fs'' := by
  refine ⟨h'.here.trans h.here, fun p => ?_⟩
  rcases h'.texts p with hp | ⟨b, hb, hp, htext⟩
  · rw [hp]
    exact h.texts p
  · rw [target_congr h.here] at hp
    exact Or.inr ⟨b, hb, hp, htext⟩

instance (dir : String) (files : List (String × String)) :
    Steady fun w w' => Receives dir files w.files w'.files where
  refl _ := Receives.of_eq rfl
  trans := Receives.trans

theorem receives_writeFile {dir : String} {files : List (String × String)}
    {file : String × String} (hfile : file ∈ files) {w w' : World} {r : Except FileError Unit}
    (h : (writeFile (Path.join dir file.1) file.2).run w = (r, w')) :
    Receives dir files w.files w'.files := by
  rcases of_run_change h with ⟨hwrite, _⟩ | ⟨hfiles, _⟩
  · obtain ⟨hhere, hself, hother⟩ := textAt?_write hwrite
    refine ⟨hhere, fun p => ?_⟩
    by_cases hp : p = w.files.target (Path.join dir file.1)
    · rw [hp]
      exact Or.inr ⟨file, hfile, rfl, hself⟩
    · exact Or.inl (hother p hp)
  · exact Receives.of_eq hfiles

theorem receives_createDirs {dir path : String} {files : List (String × String)} {w w' : World}
    {r : Except FileError Unit} (h : (createDirs path).run w = (r, w')) :
    Receives dir files w.files w'.files := by
  rcases of_run_change h with ⟨hmake, _⟩ | ⟨hfiles, _⟩
  · have hsame := sameFiles_makeDirs hmake
    exact ⟨hsame.here, fun p => Or.inl (hsame.texts p)⟩
  · exact Receives.of_eq hfiles

/-! ## Steps of resolving -/

section

variable {R : World → World → Prop} [Steady R] {dir : String}

theorem leads_names (hrefusal : Leads R nextRefusal) (dir : String) :
    Leads R (Template.names templateStore dir).run := by
  refine Leads.bind (leads_lookUp hrefusal fun fs => fs.list dir) fun listed => ?_
  cases listed with
  | ok all => exact Leads.pure _
  | error e => exact Leads.pure _

theorem leads_readAll (hrefusal : Leads R nextRefusal) (dir : String) (found : Text.Dictionary)
    (names : List String) : Leads R (Template.readAll templateStore dir found names).run := by
  induction names generalizing found with
  | nil => exact Leads.run_pure _
  | cons name names ih =>
    exact Leads.run_bind (leads_lookUp hrefusal fun fs => fs.read (Path.join dir name))
      fun _ => ih _

/-- Files are written one after the other until one cannot be. -/
theorem leads_writeAll {files : List (String × String)}
    (hwrite : ∀ b ∈ files, Leads R (writeFile (Path.join dir b.1) b.2)) :
    Leads R (Template.writeAll templateStore dir files).run := by
  induction files with
  | nil => exact Leads.run_pure _
  | cons file files ih =>
    refine Leads.run_bind (hwrite file List.mem_cons_self) fun _ => ?_
    exact ih fun b hb => hwrite b (List.mem_cons_of_mem _ hb)

theorem leads_bootstrap (hnotify : ∀ n, Leads R (notify n)) (hdirs : Leads R (createDirs dir))
    (hwrite : ∀ b ∈ Template.bundled, Leads R (writeFile (Path.join dir b.1) b.2)) :
    Leads R (Template.bootstrap templateStore dir).run := by
  refine Leads.run_bind (Leads.run_lift (hnotify _)) fun _ => ?_
  exact Leads.run_bind hdirs fun _ => leads_writeAll hwrite

/-- Resolving templates leads along what its operations on files lead along. -/
theorem leads_resolve (hnotify : ∀ n, Leads R (notify n)) (hrefusal : Leads R nextRefusal)
    (hdirs : Leads R (createDirs dir))
    (hwrite : ∀ b ∈ Template.bundled, Leads R (writeFile (Path.join dir b.1) b.2)) :
    Leads R (Template.resolve templateStore dir).run := by
  refine Leads.run_bind (leads_names hrefusal dir) fun found => ?_
  split
  · refine Leads.run_bind (leads_bootstrap hnotify hdirs hwrite) fun _ => ?_
    exact Leads.run_bind (leads_names hrefusal dir) fun _ => leads_readAll hrefusal dir _ _
  · exact leads_readAll hrefusal dir _ _

end

theorem receives_bootstrap {dir : String} {w w' : World} {r : Except FileError Unit}
    (h : (Template.bootstrap templateStore dir).run.run w = (r, w')) :
    Receives dir Template.bundled w.files w'.files := by
  have hsteps : Leads (fun w w' => Receives dir Template.bundled w.files w'.files)
      (Template.bootstrap templateStore dir).run := by
    refine leads_bootstrap (fun n w r w' h => Receives.of_eq (quiet_notify n h))
      (fun w r w' h => receives_createDirs h) fun b hb w r w' h => ?_
    exact receives_writeFile hb h
  exact hsteps h

/-! ## Templates of a directory -/

theorem of_run_lookUp {f : FileSystem → Except FileErrorKind α} {w w' : World}
    {r : Except FileError α} (h : (lookUp f).run w = (r, w')) :
    (∃ refusal : Refusal, r = .error ⟨refusal.kind, none⟩) ∨
      r = (f w.files).mapError fun kind => ⟨kind, none⟩ := by
  obtain ⟨refusal, w₁, hrefusal, h⟩ := of_run_state_bind h
  cases refusal with
  | some r₀ =>
    obtain ⟨rfl, rfl⟩ := Prod.mk.inj h
    exact Or.inl ⟨r₀, rfl⟩
  | none =>
    obtain ⟨rfl, rfl⟩ := Prod.mk.inj h
    rw [← quiet_nextRefusal hrefusal]
    exact Or.inr rfl

theorem lookUp_ok {f : FileSystem → Except FileErrorKind α} {w w' : World} {a : α}
    (h : (lookUp f).run w = (.ok a, w')) : f w.files = .ok a := by
  rcases of_run_lookUp h with ⟨_, hr⟩ | hr
  · simp at hr
  · cases hf : f w.files with
    | ok b =>
      rw [hf] at hr
      rw [Except.ok.inj hr]
    | error kind =>
      rw [hf] at hr
      simp [Except.mapError] at hr

/-- The names of templates are those that the directory lists, or it is missing. -/
theorem names_ok {dir : String} {found : List String} {w w' : World}
    (h : (Template.names templateStore dir).run.run w = (.ok found, w')) :
    (∃ all, w.files.list dir = .ok all ∧ found = all.filter Template.isTemplate) ∨
      w.files.list dir = .error .notFound ∧ found = [] := by
  obtain ⟨listed, w₁, hlist, h⟩ := of_run_state_bind h
  cases listed with
  | ok all =>
    obtain ⟨hfound, _⟩ := Prod.mk.inj h
    exact Or.inl ⟨all, lookUp_ok (f := fun fs => fs.list dir) hlist, (Except.ok.inj hfound).symm⟩
  | error e =>
    have hlisted := of_run_lookUp (f := fun fs => fs.list dir) hlist
    obtain ⟨hfound, _⟩ := Prod.mk.inj h
    by_cases hkind : e.kind = .notFound
    · rw [if_pos hkind] at hfound
      refine Or.inr ⟨?_, (Except.ok.inj hfound).symm⟩
      rcases hlisted with ⟨refusal, hr⟩ | hr
      · rw [Except.error.inj hr] at hkind
        cases refusal <;> simp [Refusal.kind] at hkind
      · cases hfs : w.files.list dir with
        | ok all =>
          rw [hfs] at hr
          simp [Except.mapError] at hr
        | error kind =>
          rw [hfs] at hr
          rw [Except.error.inj hr] at hkind
          rw [← hkind]
    · rw [if_neg hkind] at hfound
      simp at hfound

theorem quiet_names (dir : String) : Quiet (Template.names templateStore dir).run :=
  leads_names quiet_nextRefusal dir

theorem quiet_readAll (dir : String) (found : Text.Dictionary) (names : List String) :
    Quiet (Template.readAll templateStore dir found names).run :=
  leads_readAll quiet_nextRefusal dir found names

/-- A bundled template was copied to a place in a directory that listed no template. Nothing was
lost there, unless the directory was taken for missing. -/
def Copied (dir : String) (fs fs' : FileSystem) (p : List String) : Prop :=
  ∃ b ∈ Template.bundled, p = fs.target dir ++ [b.1] ∧ fs'.textAt? p = some b.2 ∧
    ((∃ all, fs.list dir = .ok all ∧ all.filter Template.isTemplate = [] ∧ fs.textAt? p = none) ∨
      fs.list dir = .error .notFound)

/-- At most bundled templates were copied into a directory. -/
structure Filled (dir : String) (fs fs' : FileSystem) : Prop where
  here : fs'.here = fs.here
  copied : ∀ p, fs'.textAt? p ≠ fs.textAt? p → Copied dir fs fs' p

theorem Filled.of_eq {dir : String} (h : fs' = fs) : Filled dir fs fs' := by
  rw [h]
  exact ⟨rfl, fun p hp => absurd rfl hp⟩

theorem filled_of_receives {dir : String} (h : Receives dir Template.bundled fs fs')
    (hbare : (∃ all, fs.list dir = .ok all ∧ all.filter Template.isTemplate = []) ∨
      fs.list dir = .error .notFound) : Filled dir fs fs' := by
  refine ⟨h.here, fun p hp => ?_⟩
  obtain ⟨b, hb, hplace, htext⟩ := (h.texts p).resolve_left hp
  rw [target_join fs dir (Template.isName_bundled hb)] at hplace
  refine ⟨b, hb, hplace, htext, ?_⟩
  rcases hbare with ⟨all, hlist, hnone⟩ | hmissing
  · refine Or.inl ⟨all, hlist, hnone, ?_⟩
    -- A file there would have been listed, as a template.
    cases hold : fs.textAt? p with
    | none => rfl
    | some text =>
      have hmem : b.1 ∈ all := by
        rw [(list_ok hlist).2.2, ← hplace, textAt?_eq_some.1 hold]
        simp
      have hfilter : b.1 ∈ all.filter Template.isTemplate :=
        List.mem_filter.2 ⟨hmem, Template.isTemplate_bundled hb⟩
      rw [hnone] at hfilter
      simp at hfilter
  · exact Or.inr hmissing

theorem resolve_filled {dir : String} {w w' : World} {r : Except FileError Text.Dictionary}
    (h : (Template.resolve templateStore dir).run.run w = (r, w')) :
    Filled dir w.files w'.files := by
  rcases of_run_bind h with ⟨_, hnames, _⟩ | ⟨found, w₁, hnames, h⟩
  · exact Filled.of_eq (quiet_names dir hnames)
  · have hsame : w₁.files = w.files := quiet_names dir hnames
    by_cases hempty : found.isEmpty
    · rw [if_pos hempty] at h
      have hfilled : ∀ {w₂ : World}, Receives dir Template.bundled w₁.files w₂.files →
          Filled dir w.files w₂.files := by
        intro w₂ hreceives
        rw [hsame] at hreceives
        refine filled_of_receives hreceives ?_
        obtain rfl : found = [] := List.isEmpty_iff.1 hempty
        rcases names_ok hnames with ⟨all, hlist, hnone⟩ | ⟨hmissing, _⟩
        · exact Or.inl ⟨all, hlist, hnone.symm⟩
        · exact Or.inr hmissing
      rcases of_run_bind h with ⟨_, hboot, _⟩ | ⟨_, w₂, hboot, h⟩
      · exact hfilled (receives_bootstrap hboot)
      · have hrest : w'.files = w₂.files :=
          Leads.run_bind (quiet_names dir) (fun _ => quiet_readAll dir _ _) h
        rw [hrest]
        exact hfilled (receives_bootstrap hboot)
    · rw [if_neg hempty] at h
      exact Filled.of_eq ((quiet_readAll dir _ _ h).trans hsame)

theorem resolveTemplates_filled {dir : String} {w w' : World}
    {r : Except Failure Text.Dictionary} (h : (resolveTemplates dir).run w = (r, w')) :
    Filled dir w.files w'.files := by
  obtain ⟨_, hresolve⟩ := exists_of_run_mapError h
  exact resolve_filled hresolve

end EdmxGen.Session
