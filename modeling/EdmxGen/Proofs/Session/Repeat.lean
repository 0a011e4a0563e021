import EdmxGen.Proofs.Config.Toml
import EdmxGen.Proofs.File.Lasting
import EdmxGen.Proofs.Session.Saving

/-!
# Steps that do again what they did

A step on files that the system does not refuse is determined by the files. Templates that were
resolved in one file system are resolved again, without any change, in every later one with the same
files in the template directory (`resolve_ok`, `resolve_run`, `Holds.later`). A configuration that
was saved is loaded again, and can be saved again (`loadConfig_saved`, `saveConfig_again`).
-/

namespace EdmxGen.Session

open FileSystem

variable {α γ : Type} {g : World → γ} {w w' : World}

/-! ## Steps that are not refused -/

/-- A step that the system lets pass. -/
theorem run_nextRefusal_spared (h : w.refusals.head?.join = none) :
    nextRefusal.run w = (none, { w with refusals := w.refusals.tail }) := by
  show (w.refusals.head?.join, _) = _
  rw [h]

theorem run_lookUp_spared (h : w.refusals.head?.join = none)
    (f : FileSystem → Except FileErrorKind α) :
    (lookUp f).run w =
      ((f w.files).mapError fun kind => ⟨kind, none⟩, { w with refusals := w.refusals.tail }) := by
  unfold lookUp
  rw [run_state_bind (run_nextRefusal_spared h)]
  rfl

theorem run_isSeen_spared (h : w.refusals.head?.join = none) (path : String) :
    (isSeen path).run w = (w.files.exists? path, { w with refusals := w.refusals.tail }) := by
  unfold isSeen
  rw [run_state_bind (run_nextRefusal_spared h)]
  rfl

/-- Where nothing is refused any more, a step leaves the refusals as they are. -/
theorem unrefused (h : w.refusals = []) :
    w.refusals.head?.join = none ∧ { w with refusals := w.refusals.tail } = w := by
  obtain ⟨files, refusals, requests, asked, notices, output⟩ := w
  obtain rfl : refusals = [] := h
  exact ⟨rfl, rfl⟩

theorem run_nextRefusal (h : w.refusals = []) : nextRefusal.run w = (none, w) := by
  obtain ⟨hspared, hsame⟩ := unrefused h
  rw [run_nextRefusal_spared hspared, hsame]

theorem run_lookUp (h : w.refusals = []) (f : FileSystem → Except FileErrorKind α) :
    (lookUp f).run w = ((f w.files).mapError fun kind => ⟨kind, none⟩, w) := by
  obtain ⟨hspared, hsame⟩ := unrefused h
  rw [run_lookUp_spared hspared, hsame]

theorem run_isSeen (h : w.refusals = []) (path : String) :
    (isSeen path).run w = (w.files.exists? path, w) := by
  obtain ⟨hspared, hsame⟩ := unrefused h
  rw [run_isSeen_spared hspared, hsame]

theorem run_change (h : w.refusals = []) {f : FileSystem → Except FileErrorKind FileSystem}
    {files : FileSystem} (hf : f w.files = .ok files) :
    (change f).run w = (.ok (), { w with files }) := by
  have hget : (get : Session World).run w = (w, w) := rfl
  unfold change
  rw [run_state_bind (run_nextRefusal h)]
  dsimp only
  rw [run_state_bind hget, hf]
  rfl

theorem run_lift {s : Session α} {a : α} (h : s.run w = (a, w')) :
    (Attempt.lift s).run.run w = (.ok a, w') := by
  show (s >>= fun a => pure (Except.ok a)).run w = _
  rw [run_state_bind h]
  rfl

theorem run_orFileIn {s : Session (Except FileError α)} {a : α} (h : s.run w = (.ok a, w'))
    (context : String) : (Attempt.orFileIn context s).run.run w = (.ok a, w') := run_mapError h

theorem run_orFailIn {s : Session (Except Failure α)} {a : α} (h : s.run w = (.ok a, w'))
    (context : String) : (Attempt.orFailIn context s).run.run w = (.ok a, w') := run_mapError h

theorem run_readFile (h : w.refusals = []) {path text : String}
    (hr : w.files.read path = .ok text) : (readFile path).run w = (.ok text, w) := by
  show (lookUp fun fs => fs.read path).run w = _
  rw [run_lookUp h, hr]
  rfl

/-! ## Reading templates -/

/-- The texts of files in a directory, put into a dictionary. -/
def readIn (fs : FileSystem) (dir : String) (found : Text.Dictionary) :
    List String → Except FileErrorKind Text.Dictionary
  | [] => .ok found
  | name :: names => do
    let text ← fs.read (Path.join dir name)
    readIn fs dir (found.insert name text) names

theorem readAll_ok {dir : String} {found d : Text.Dictionary} {names : List String}
    (h : (Template.readAll templateStore dir found names).run.run w = (.ok d, w')) :
    readIn w.files dir found names = .ok d := by
  induction names generalizing found w with
  | nil => exact congrArg Except.ok (Except.ok.inj (Prod.mk.inj h).1)
  | cons name names ih =>
    obtain ⟨text, w₁, hread, h⟩ := ok_of_run_bind h
    have hfiles : w₁.files = w.files := quiet_lookUp (fun fs => fs.read (Path.join dir name)) hread
    have htext : w.files.read (Path.join dir name) = .ok text :=
      lookUp_ok (f := fun fs => fs.read (Path.join dir name)) hread
    rw [readIn, htext, ← hfiles]
    exact ih h

theorem readAll_run (hw : w.refusals = []) {dir : String} {found d : Text.Dictionary}
    {names : List String} (h : readIn w.files dir found names = .ok d) :
    (Template.readAll templateStore dir found names).run.run w = (.ok d, w) := by
  induction names generalizing found with
  | nil =>
    rw [Except.ok.inj h]
    rfl
  | cons name names ih =>
    obtain ⟨text, hread, h⟩ := ok_of_bind h
    have hrun : (ExceptT.mk (templateStore.read (Path.join dir name))).run.run w = (.ok text, w) :=
      run_readFile hw hread
    unfold Template.readAll
    rw [run_bind_ok hrun]
    exact ih h

/-! ## Resolving templates -/

/-- These are the templates of a directory, which has some. -/
def Holds (fs : FileSystem) (dir : String) (d : Text.Dictionary) : Prop :=
  ∃ all, fs.list dir = .ok all ∧ all.filter Template.isTemplate ≠ [] ∧
    readIn fs dir .empty (all.filter Template.isTemplate) = .ok d

/-- Templates that were resolved are those of the directory, unless there are none. -/
theorem resolve_ok {dir : String} {d : Text.Dictionary}
    (h : (Template.resolve templateStore dir).run.run w = (.ok d, w')) :
    d = .empty ∨ Holds w'.files dir d := by
  -- What was read is in the files from which the names come.
  have hread : ∀ {w₁ w₂ : World} {names : List String},
      (Template.names templateStore dir).run.run w₁ = (.ok names, w₂) →
      (Template.readAll templateStore dir .empty names).run.run w₂ = (.ok d, w') →
      d = .empty ∨ Holds w'.files dir d := by
    intro w₁ w₂ names hnames hall
    have hin := readAll_ok hall
    have hfiles : w'.files = w₂.files := quiet_readAll dir _ _ hall
    rw [hfiles]
    by_cases hnone : names = []
    · rw [hnone] at hin
      exact Or.inl (Except.ok.inj hin).symm
    · have hsame : w₂.files = w₁.files := quiet_names dir hnames
      rcases names_ok hnames with ⟨all, hlist, rfl⟩ | ⟨_, hnil⟩
      · rw [← hsame] at hlist
        exact Or.inr ⟨all, hlist, hnone, hin⟩
      · exact absurd hnil hnone
  obtain ⟨found, w₁, hnames, h⟩ := ok_of_run_bind h
  by_cases hempty : found.isEmpty
  · rw [if_pos hempty] at h
    obtain ⟨_, w₂, _, h⟩ := ok_of_run_bind h
    obtain ⟨copied, w₃, hcopied, h⟩ := ok_of_run_bind h
    exact hread hcopied h
  · rw [if_neg hempty] at h
    exact hread hnames h

/-- Templates that a directory has are resolved without any change. -/
theorem resolve_run (hw : w.refusals = []) {dir : String} {d : Text.Dictionary}
    (h : Holds w.files dir d) : (Template.resolve templateStore dir).run.run w = (.ok d, w) := by
  obtain ⟨all, hlist, hsome, hread⟩ := h
  have hnames : (Template.names templateStore dir).run.run w
      = (.ok (all.filter Template.isTemplate), w) := by
    have hrun : (templateStore.list dir).run w = (.ok all, w) := by
      show (lookUp fun fs => fs.list dir).run w = _
      rw [run_lookUp hw, hlist]
      rfl
    show (templateStore.list dir >>= _).run w = _
    rw [run_state_bind hrun]
    rfl
  unfold Template.resolve
  rw [run_bind_ok hnames, if_neg (by simpa [List.isEmpty_iff] using hsome)]
  exact readAll_run hw hread

theorem readIn_later {fs fs' : FileSystem} {dir : String} {found d : Text.Dictionary}
    {names : List String}
    (hreads : ∀ name ∈ names, ∀ text, fs.read (Path.join dir name) = .ok text →
      fs'.read (Path.join dir name) = .ok text)
    (h : readIn fs dir found names = .ok d) : readIn fs' dir found names = .ok d := by
  induction names generalizing found with
  | nil => exact h
  | cons name names ih =>
    obtain ⟨text, hread, h⟩ := ok_of_bind h
    rw [readIn, hreads name List.mem_cons_self text hread]
    exact ih (fun n hn => hreads n (List.mem_cons_of_mem _ hn)) h

/-- A directory has its templates until something new lies there. -/
theorem Holds.later {fs fs' : FileSystem} {dir : String} {d : Text.Dictionary}
    (h : Holds fs dir d) (hnamed : fs.Named) (hlasts : Lasts fs fs')
    (hlisted : (fs'.listed (fs.target dir)).filter Template.isTemplate
      = (fs.listed (fs.target dir)).filter Template.isTemplate)
    (htexts : ∀ name, Template.isTemplate name = true →
      fs'.textAt? (fs.target dir ++ [name]) = fs.textAt? (fs.target dir ++ [name])) :
    Holds fs' dir d := by
  obtain ⟨all, hlist, hsome, hread⟩ := h
  obtain ⟨hplace, hdir, rfl⟩ := list_iff.1 hlist
  have hlist' : fs'.list dir = .ok (fs'.listed (fs.target dir)) := by
    rw [list_iff, target_congr hlasts.here]
    exact ⟨hlasts.place hplace, hlasts.dir _ hdir, rfl⟩
  refine ⟨_, hlist', hlisted ▸ hsome, ?_⟩
  rw [hlisted]
  refine readIn_later (fun name hname text htext => ?_) hread
  obtain ⟨hmem, htemplate⟩ := List.mem_filter.1 hname
  have hisName :=
    Template.isName_of_isTemplate htemplate (noSlash_of_mem_listed hnamed hmem)
  refine hlasts.read htext ?_
  rw [target_join fs dir hisName]
  exact htexts name htemplate

/-! ## What resolving keeps -/

instance : Steady fun w w' => Reaches w.files w'.files where
  refl _ := Reaches.refl
  trans := Reaches.trans

theorem reaches_of_quiet {x : Session α} (hx : Quiet x) :
    Leads (fun w w' => Reaches w.files w'.files) x := by
  intro w r w' h
  rw [hx h]
  exact Reaches.refl

theorem reaches_change {f : FileSystem → Except FileErrorKind FileSystem}
    (hf : ∀ fs fs', f fs = .ok fs' → Reaches fs fs') :
    Leads (fun w w' => Reaches w.files w'.files) (change f) :=
  leads_change (reaches_of_quiet quiet_nextRefusal) fun _ _ hchange => hf _ _ hchange

theorem reaches_resolve {dir : String} {r : Except FileError Text.Dictionary}
    (h : (Template.resolve templateStore dir).run.run w = (r, w')) :
    Reaches w.files w'.files := by
  have hsteps : Leads (fun w w' => Reaches w.files w'.files)
      (Template.resolve templateStore dir).run :=
    leads_resolve (fun n => reaches_of_quiet (quiet_notify n))
      (reaches_of_quiet quiet_nextRefusal)
      (reaches_change fun fs fs' hmake => Reaches.refl.createDirs hmake)
      fun b _ => reaches_change fun fs fs' hwrite => Reaches.refl.write hwrite
  exact hsteps h

/-! ## Addresses that were given -/

theorem chooseAddress_given {env : Environment} {raw address : String} {config : Config}
    (h : (chooseAddress env (some raw) config).run.run w = (.ok address, w')) :
    Address.normalize raw = .ok address := by
  obtain ⟨hr, _⟩ := Prod.mk.inj h
  cases hnormal : Address.normalize raw with
  | ok a =>
    rw [hnormal] at hr
    exact congrArg Except.ok (Except.ok.inj hr)
  | error f =>
    rw [hnormal] at hr
    simp [Except.mapError] at hr

/-! ## The configuration -/

/-- The directory of a file was there, or it was made. -/
inductive DirReady (path : String) (fs : FileSystem) : FileSystem → Prop
  | rootless (h : Path.parent? path = none) : DirReady path fs fs
  | seen {dir : String} (h : Path.parent? path = some dir) (hseen : fs.exists? dir = true) :
    DirReady path fs fs
  | made {dir : String} {fs' : FileSystem} (h : Path.parent? path = some dir)
    (hmade : fs.createDirs dir = .ok fs') : DirReady path fs fs'

theorem DirReady.lasts {path : String} {fs fs' : FileSystem} (h : DirReady path fs fs') :
    Lasts fs fs' := by
  cases h with
  | rootless _ => exact Lasts.refl fs
  | seen _ _ => exact Lasts.refl fs
  | made _ hmade => exact lasts_makeDirs hmade

theorem DirReady.sameFiles {path : String} {fs fs' : FileSystem} (h : DirReady path fs fs') :
    SameFiles fs fs' := by
  cases h with
  | rootless _ => exact SameFiles.of_eq rfl
  | seen _ _ => exact SameFiles.of_eq rfl
  | made _ hmade => exact sameFiles_makeDirs hmade

theorem isSeen_true {path : String} (h : (isSeen path).run w = (true, w')) :
    w.files.exists? path = true := by
  obtain ⟨refusal, w₁, hrefusal, h⟩ := of_run_state_bind h
  cases refusal with
  | some r =>
    have hseen : false = true := congrArg Prod.fst h
    exact absurd hseen Bool.false_ne_true
  | none =>
    rw [← quiet_nextRefusal hrefusal]
    exact congrArg Prod.fst h

theorem ensureDirOf_ok {path : String} (h : (ensureDirOf path).run.run w = (.ok (), w')) :
    DirReady path w.files w'.files := by
  unfold ensureDirOf at h
  split at h
  · next hroot =>
    obtain ⟨_, rfl⟩ := Prod.mk.inj h
    exact .rootless hroot
  · next dir hdir =>
    obtain ⟨seen, w₁, hsee, h⟩ := of_run_lift_bind h
    have hfiles : w₁.files = w.files := quiet_isSeen dir hsee
    cases seen with
    | true =>
      obtain ⟨_, rfl⟩ := Prod.mk.inj h
      rw [hfiles]
      exact .seen hdir (isSeen_true hsee)
    | false =>
      obtain ⟨_, w₂, hmake, h⟩ := ok_of_run_bind h
      obtain ⟨_, _, hnotify⟩ := of_run_lift h
      rw [quiet_notify _ hnotify, ← hfiles]
      exact .made hdir (change_ok (of_run_orFileIn hmake))

/-- What was saved lies in a directory that was there or was made. -/
theorem saveConfig_ok {path : String} {config : Config}
    (h : (saveConfig path config).run.run w = (.ok (), w')) :
    ∃ fs, DirReady path w.files fs ∧ fs.write path (String.ofList config.write) = .ok w'.files := by
  obtain ⟨_, w₁, hensure, h⟩ := ok_of_run_bind h
  obtain ⟨_, w₂, hwrite, h⟩ := ok_of_run_bind h
  obtain ⟨_, _, hnotify⟩ := of_run_lift h
  rw [quiet_notify _ hnotify]
  exact ⟨w₁.files, ensureDirOf_ok hensure, change_ok (of_run_orFileIn hwrite)⟩

theorem exists?_of_read {fs : FileSystem} {path text : String} (h : fs.read path = .ok text) :
    fs.exists? path = true := by
  obtain ⟨hplace, htext⟩ := read_iff.1 h
  exact exists?_iff.2 ⟨_, _, hplace, textAt?_eq_some.1 htext⟩

/-- A configuration that was saved is loaded where the system lets the two steps of loading pass. -/
theorem loadConfig_spared {path : String} {config : Config}
    (hw : ∀ r ∈ w.refusals.take 2, r = none)
    (h : w.files.read path = .ok (String.ofList config.write)) :
    (loadConfig path).run.run w = (.ok config, { w with refusals := w.refusals.drop 2 }) := by
  have hfirst : w.refusals.head?.join = none ∧ w.refusals.tail.head?.join = none := by
    match hrefusals : w.refusals with
    | [] => exact ⟨rfl, rfl⟩
    | [r] =>
      rw [hrefusals] at hw
      exact ⟨hw r List.mem_cons_self, rfl⟩
    | r :: r' :: _ =>
      rw [hrefusals] at hw
      exact ⟨hw r List.mem_cons_self, hw r' (List.mem_cons_of_mem _ List.mem_cons_self)⟩
  have hseen : (isSeen path).run w = (true, { w with refusals := w.refusals.tail }) := by
    rw [run_isSeen_spared hfirst.1, exists?_of_read h]
  have hread : (readFile path).run { w with refusals := w.refusals.tail } =
      (.ok (String.ofList config.write), { w with refusals := w.refusals.tail.tail }) := by
    show (lookUp fun fs => fs.read path).run _ = _
    rw [run_lookUp_spared hfirst.2, h]
    rfl
  unfold loadConfig
  rw [run_bind_ok (run_lift hseen)]
  show (Attempt.orFileIn _ (readFile path) >>= _).run.run _ = _
  rw [run_bind_ok (run_orFileIn hread _), String.toList_ofList, Config.ofText?_write]
  show (Except.ok config, { w with refusals := w.refusals.tail.tail }) = _
  rw [← List.drop_one, ← List.drop_one, List.drop_drop]

/-- A configuration that was saved is loaded. -/
theorem loadConfig_saved (hw : w.refusals = []) {path : String} {config : Config}
    (h : w.files.read path = .ok (String.ofList config.write)) :
    (loadConfig path).run.run w = (.ok config, w) := by
  rw [loadConfig_spared (by simp [hw]) h]
  obtain ⟨files, refusals, requests, asked, notices, output⟩ := w
  obtain rfl : refusals = [] := hw
  rfl

theorem ensureDirOf_again {v : World} (hv : v.refusals = []) {path : String} {fs fs' : FileSystem}
    (h : DirReady path fs fs') (hlasts : Lasts fs' v.files) :
    ∃ notices, (ensureDirOf path).run.run v = (.ok (), { v with notices }) := by
  unfold ensureDirOf
  split
  · exact ⟨v.notices, rfl⟩
  · next dir hdir =>
    rw [run_bind_ok (run_lift (run_isSeen hv dir))]
    by_cases hseen : v.files.exists? dir = true
    · rw [hseen]
      exact ⟨v.notices, rfl⟩
    · -- A directory that was seen still would be, so it was made and can be made again.
      have hmade : v.files.createDirs dir = .ok v.files := by
        cases h with
        | rootless hroot =>
          rw [hroot] at hdir
          simp at hdir
        | seen hdir' hsome =>
          obtain rfl := Option.some.inj (hdir'.symm.trans hdir)
          exact absurd (hlasts.exists? hsome) hseen
        | made hdir' hmade =>
          rw [Option.some.inj (hdir'.symm.trans hdir)] at hmade
          have hstart := ((lasts_makeDirs hmade).trans hlasts).start dir
          show v.files.makeDirs (v.files.start dir) _ = _
          rw [hstart]
          exact hlasts.makeDirs hmade
      have hcreate : (createDirs dir).run v = (.ok (), v) :=
        run_change (f := fun fs => fs.createDirs dir) hv hmade
      rw [Bool.eq_false_iff.2 hseen]
      show ∃ notices, (Attempt.orFileIn _ (createDirs dir) >>= _ : Attempt Unit).run.run v = _
      rw [run_bind_ok (run_orFileIn hcreate _)]
      exact ⟨_, rfl⟩

/-- A configuration is saved where its directory is and its file can be written. -/
theorem saveConfig_run {v : World} (hv : v.refusals = []) {path : String} {fs fs' : FileSystem}
    (hready : DirReady path fs fs') (hlasts : Lasts fs' v.files) {config : Config}
    {files : FileSystem} (hwrite : v.files.write path (String.ofList config.write) = .ok files) :
    ∃ notices, (saveConfig path config).run.run v = (.ok (), { v with files, notices }) := by
  obtain ⟨notices, hensure⟩ := ensureDirOf_again hv hready hlasts
  have hput : (writeFile path (String.ofList config.write)).run { v with notices }
      = (.ok (), { v with files, notices }) :=
    run_change (w := { v with notices })
      (f := fun fs => fs.write path (String.ofList config.write)) hv hwrite
  refine ⟨notices ++ [.configSaved], ?_⟩
  unfold saveConfig
  rw [run_bind_ok hensure, run_bind_ok (run_orFileIn hput _)]
  rfl

/-- Where a configuration was saved one can be saved again. -/
theorem saveConfig_again {v : World} (hv : v.refusals = []) {path : String} {config : Config}
    (h : (saveConfig path config).run.run w = (.ok (), w')) (hlasts : Lasts w'.files v.files)
    (config' : Config) :
    ∃ files notices, v.files.write path (String.ofList config'.write) = .ok files ∧
      (saveConfig path config').run.run v = (.ok (), { v with files, notices }) := by
  obtain ⟨fs, hready, hwrite⟩ := saveConfig_ok h
  obtain ⟨files, hagain⟩ := hlasts.write hwrite (String.ofList config'.write)
  obtain ⟨notices, hrun⟩ := saveConfig_run hv hready ((lasts_write hwrite).trans hlasts) hagain
  exact ⟨files, notices, hagain, hrun⟩

end EdmxGen.Session
