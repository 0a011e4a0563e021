import EdmxGen.Proofs.File.System

/-!
# What lasts in a file system

Writing files and making directories leaves every directory a directory and every file a file
(`Lasts`). So a path that could be followed still can be, a file can be written again where one was,
and directories that were made need not be made again. The names that a directory lists change only
where something new lies in it (`filter_listed_write`, `filter_listed_makeDirs`).
-/

namespace EdmxGen.FileSystem

variable {fs fs' fs'' : FileSystem}

/-! ## Directories and files that stay -/

/-- Directories stay directories and files stay files. -/
structure Lasts (fs fs' : FileSystem) : Prop where
  here : fs'.here = fs.here
  dir : ∀ p, fs.at? p = some .dir → fs'.at? p = some .dir
  file : ∀ p text, fs.at? p = some (.file text) → ∃ text', fs'.at? p = some (.file text')

theorem Lasts.refl (fs : FileSystem) : Lasts fs fs :=
  ⟨rfl, fun _ h => h, fun _ text h => ⟨text, h⟩⟩

theorem Lasts.trans (h : Lasts fs fs') (h' : Lasts fs' fs'') : Lasts fs fs'' := by
  refine ⟨h'.here.trans h.here, fun p hp => h'.dir p (h.dir p hp), fun p text hp => ?_⟩
  obtain ⟨text', hp'⟩ := h.file p text hp
  exact h'.file p text' hp'

theorem lasts_write {path text : String} (h : fs.write path text = .ok fs') : Lasts fs fs' := by
  obtain ⟨dir, name, hat, rfl⟩ := write_iff.1 h
  have hne : dir ++ [name] ≠ [] := by simp
  refine ⟨rfl, fun p hp => ?_, fun p old hp => ?_⟩
  · rw [at?_put hne, if_neg]
    · exact hp
    · rintro rfl
      exact hat.notDir hp
  · rw [at?_put hne]
    by_cases heq : p = dir ++ [name]
    · rw [if_pos heq]
      exact ⟨text, rfl⟩
    · rw [if_neg heq]
      exact ⟨old, hp⟩

theorem lasts_makeDirs {place parts : List String} (h : fs.makeDirs place parts = .ok fs') :
    Lasts fs fs' := by
  obtain ⟨hhere, hat⟩ := at?_makeDirs h
  refine ⟨hhere, fun p hp => ?_, fun p text hp => ?_⟩
  · rcases hat p with heq | ⟨hnone, _⟩
    · rw [heq, hp]
    · rw [hp] at hnone
      simp at hnone
  · rcases hat p with heq | ⟨hnone, _⟩
    · exact ⟨text, by rw [heq, hp]⟩
    · rw [hp] at hnone
      simp at hnone

theorem Lasts.follow (h : Lasts fs fs') {place parts found : List String}
    (hf : fs.follow place parts = .ok found) : fs'.follow place parts = .ok found := by
  induction parts generalizing place with
  | nil => exact hf
  | cons part parts ih =>
    rw [FileSystem.follow] at hf ⊢
    split at hf
    · simp at hf
    · simp at hf
    · next hdir =>
      rw [h.dir _ hdir]
      dsimp only
      by_cases hdot : part = "" ∨ part = "."
      · rw [if_pos hdot] at hf ⊢
        exact ih hf
      · rw [if_neg hdot] at hf ⊢
        by_cases hup : part = ".."
        · rw [if_pos hup] at hf ⊢
          exact ih hf
        · rw [if_neg hup] at hf ⊢
          exact ih hf

theorem Lasts.start (h : Lasts fs fs') (path : String) : fs'.start path = fs.start path :=
  start_congr h.here path

theorem Lasts.place (h : Lasts fs fs') {path : String} {found : List String}
    (hp : fs.place path = .ok found) : fs'.place path = .ok found := by
  by_cases hempty : path = ""
  · rw [hempty] at hp
    simp [FileSystem.place] at hp
  · rw [place_of_ne_empty hempty] at hp ⊢
    rw [h.start]
    exact h.follow hp

theorem entry?_iff {path : String} {entry : FileEntry} : fs.entry? path = .ok entry ↔
    ∃ p, fs.place path = .ok p ∧ fs.at? p = some entry := by
  unfold entry?
  cases fs.place path with
  | error kind => simp [bind, Except.bind]
  | ok p =>
    cases hp : fs.at? p with
    | none => simp [bind, Except.bind, hp]
    | some found => simp [bind, Except.bind, hp, pure, Except.pure]

theorem exists?_iff {path : String} : fs.exists? path = true ↔
    ∃ p entry, fs.place path = .ok p ∧ fs.at? p = some entry := by
  have hentry : fs.exists? path = true ↔ ∃ entry, fs.entry? path = .ok entry := by
    unfold exists?
    cases fs.entry? path with
    | error kind => simp [Except.toBool]
    | ok entry => simp [Except.toBool]
  rw [hentry]
  simp only [entry?_iff]
  exact exists_comm

/-- What could be seen can still be. -/
theorem Lasts.exists? (h : Lasts fs fs') {path : String} (hp : fs.exists? path = true) :
    fs'.exists? path = true := by
  obtain ⟨p, entry, hplace, hat⟩ := exists?_iff.1 hp
  rw [exists?_iff]
  cases entry with
  | dir => exact ⟨p, _, h.place hplace, h.dir p hat⟩
  | file text =>
    obtain ⟨text', hat'⟩ := h.file p text hat
    exact ⟨p, _, h.place hplace, hat'⟩

/-! ## Reading and writing again -/

theorem read_iff {path text : String} : fs.read path = .ok text ↔
    fs.place path = .ok (fs.target path) ∧ fs.textAt? (fs.target path) = some text := by
  have hread : fs.read path = .ok text ↔ fs.entry? path = .ok (.file text) := by
    unfold read
    cases fs.entry? path with
    | error kind => simp [bind, Except.bind]
    | ok entry =>
      cases entry with
      | dir => simp [bind, Except.bind]
      | file old => simp [bind, Except.bind, pure, Except.pure]
  rw [hread, entry?_iff]
  constructor
  · rintro ⟨p, hplace, hat⟩
    obtain rfl := place_eq hplace
    exact ⟨hplace, textAt?_eq_some.2 hat⟩
  · rintro ⟨hplace, htext⟩
    exact ⟨_, hplace, textAt?_eq_some.1 htext⟩

theorem Lasts.read (h : Lasts fs fs') {path : String} {text : String} (hr : fs.read path = .ok text)
    (hsame : fs'.textAt? (fs.target path) = fs.textAt? (fs.target path)) :
    fs'.read path = .ok text := by
  obtain ⟨hplace, htext⟩ := read_iff.1 hr
  rw [read_iff, target_congr h.here]
  exact ⟨h.place hplace, hsame.trans htext⟩

theorem read_write {path text : String} (h : fs.write path text = .ok fs') :
    fs'.read path = .ok text := by
  obtain ⟨dir, name, hat, hput⟩ := write_iff.1 h
  have hlasts := lasts_write h
  obtain ⟨hhere, htext, _⟩ := textAt?_write h
  rw [read_iff, target_congr hhere]
  refine ⟨?_, htext⟩
  rw [← place_eq hat.place]
  exact hlasts.place hat.place

/-- A file that was written can be written again. -/
theorem Lasts.write (h : Lasts fs' fs'') {path text : String} (hw : fs.write path text = .ok fs')
    (more : String) : ∃ fs₃, fs''.write path more = .ok fs₃ := by
  obtain ⟨dir, name, hat, rfl⟩ := write_iff.1 hw
  obtain ⟨above, hparts, hfollow⟩ := hat.parts
  have hlasts := (lasts_write hw).trans h
  obtain ⟨text', htext⟩ := h.file (dir ++ [name]) text (by rw [at?_put (by simp), if_pos rfl])
  have hagain : fs''.WritesAt path dir name := by
    refine ⟨hat.ne_empty, ⟨above, hparts, ?_⟩, hat.isName, hlasts.dir _ hat.isDir, ?_⟩
    · rw [hlasts.start]
      exact hlasts.follow hfollow
    · rw [htext]
      simp
  exact ⟨_, write_iff.2 ⟨dir, name, hagain, rfl⟩⟩

/-- Directories that were made need not be made again. -/
theorem Lasts.makeDirs (h : Lasts fs' fs'') {place parts : List String}
    (hm : fs.makeDirs place parts = .ok fs') : fs''.makeDirs place parts = .ok fs'' := by
  induction parts generalizing fs place with
  | nil => rfl
  | cons part parts ih =>
    rw [FileSystem.makeDirs] at hm ⊢
    by_cases hdot : part = "" ∨ part = "."
    · rw [if_pos hdot] at hm ⊢
      exact ih hm
    · rw [if_neg hdot] at hm ⊢
      by_cases hup : part = ".."
      · rw [if_pos hup] at hm ⊢
        exact ih hm
      · rw [if_neg hup] at hm ⊢
        dsimp only at hm ⊢
        have hne : place ++ [part] ≠ [] := by simp
        split at hm
        · have hnew := (lasts_makeDirs hm).dir (place ++ [part]) (by rw [at?_put hne, if_pos rfl])
          rw [h.dir _ hnew]
          exact ih hm
        · next hdir =>
          rw [h.dir _ ((lasts_makeDirs hm).dir _ hdir)]
          exact ih hm
        · simp at hm

/-! ## Places that changes avoid -/

/-- Directories and files stay, and what lies at a place is the same. -/
structure Avoids (place : List String) (fs fs' : FileSystem) : Prop where
  lasts : Lasts fs fs'
  same : fs'.at? place = fs.at? place

theorem Avoids.of_eq {place : List String} (h : fs' = fs) : Avoids place fs fs' := by
  rw [h]
  exact ⟨Lasts.refl fs, rfl⟩

theorem Avoids.trans {place : List String} (h : Avoids place fs fs')
    (h' : Avoids place fs' fs'') : Avoids place fs fs'' :=
  ⟨h.lasts.trans h'.lasts, h'.same.trans h.same⟩

theorem avoids_write {place : List String} {path text : String}
    (hw : fs.write path text = .ok fs') (h : fs.target path ≠ place) : Avoids place fs fs' := by
  refine ⟨lasts_write hw, ?_⟩
  obtain ⟨dir, name, hat, rfl⟩ := write_iff.1 hw
  rw [← place_eq hat.place] at h
  rw [at?_put (by simp), if_neg h.symm]

theorem at?_makeDirs_of_not_mem {place start parts : List String}
    (hm : fs.makeDirs start parts = .ok fs') (h : place ∉ passes start parts) :
    fs'.at? place = fs.at? place := by
  induction parts generalizing fs start with
  | nil => rw [Except.ok.inj hm]
  | cons part parts ih =>
    rw [FileSystem.makeDirs] at hm
    rw [passes] at h
    by_cases hdot : part = "" ∨ part = "."
    · rw [if_pos hdot] at hm h
      exact ih hm h
    rw [if_neg hdot] at hm h
    by_cases hup : part = ".."
    · rw [if_pos hup] at hm h
      exact ih hm h
    rw [if_neg hup] at hm h
    obtain ⟨hhere, hrest⟩ := not_or.1 (mt List.mem_cons.2 h)
    dsimp only at hm
    split at hm
    · rw [ih hm hrest, at?_put (by simp), if_neg hhere]
    · exact ih hm hrest
    · simp at hm

/-- Making a directory avoids the places through which its path does not lead. -/
theorem avoids_createDirs {place : List String} {dir : String} (hm : fs.createDirs dir = .ok fs')
    (h : ¬ fs.LeadsThrough dir place) : Avoids place fs fs' :=
  ⟨lasts_makeDirs hm, at?_makeDirs_of_not_mem hm h⟩

/-! ## Listing again -/

/-- The names under which something lies in a place, in the order of the entries. -/
def listed (fs : FileSystem) (place : List String) : List String :=
  (fs.entries.map Prod.fst).filterMap fun p => if p.dropLast == place then p.getLast? else none

theorem list_iff {path : String} {found : List String} : fs.list path = .ok found ↔
    fs.place path = .ok (fs.target path) ∧ fs.at? (fs.target path) = some .dir ∧
      found = fs.listed (fs.target path) := by
  unfold list
  constructor
  · intro h
    obtain ⟨p, hplace, h⟩ := ok_of_bind h
    obtain rfl := place_eq hplace
    split at h
    · simp at h
    · simp at h
    · next hdir => exact ⟨hplace, hdir, (Except.ok.inj h).symm⟩
  · rintro ⟨hplace, hdir, rfl⟩
    rw [hplace]
    dsimp only [bind, Except.bind]
    rw [hdir]
    rfl

/-- The name under which a place lies in another, if it passes a test. -/
def nameIn? (t : String → Bool) (place p : List String) : Option String :=
  (if p.dropLast == place then p.getLast? else none).filter t

theorem filter_listed (t : String → Bool) (fs : FileSystem) (place : List String) :
    (fs.listed place).filter t = fs.entries.filterMap fun e => nameIn? t place e.1 := by
  unfold listed
  rw [List.filter_filterMap, List.filterMap_map]
  rfl

theorem nameIn?_eq_none {t : String → Bool} {place p : List String}
    (h : ∀ name, t name = true → p ≠ place ++ [name]) : nameIn? t place p = none := by
  unfold nameIn?
  by_cases hparent : p.dropLast == place
  · rw [if_pos hparent]
    cases hlast : p.getLast? with
    | none => rfl
    | some name =>
      have hp : p = place ++ [name] := by
        rw [← beq_iff_eq.1 hparent]
        exact (List.dropLast_append_getLast? name hlast).symm
      have hout : ¬ t name = true := fun ht => h name ht hp
      simp [hout]
  · rw [if_neg hparent]
    rfl

theorem filter_listed_put {t : String → Bool} {place q : List String} (entry : FileEntry)
    (h : ∀ name, t name = true → q ≠ place ++ [name]) :
    ((fs.put q entry).listed place).filter t = (fs.listed place).filter t := by
  have hnew : [(q, entry)].filterMap (fun e => nameIn? t place e.1) = [] := by
    simp [nameIn?_eq_none h]
  rw [filter_listed, filter_listed]
  unfold put
  rw [List.filterMap_append, List.filterMap_filter, hnew, List.append_nil]
  apply List.filterMap_congr
  intro e _
  by_cases he : e.1 = q
  · rw [he, nameIn?_eq_none h]
    simp
  · simp [he]

theorem filter_listed_write {t : String → Bool} {place : List String} {path text : String}
    (hw : fs.write path text = .ok fs')
    (h : ∀ name, t name = true → fs.target path ≠ place ++ [name]) :
    (fs'.listed place).filter t = (fs.listed place).filter t := by
  obtain ⟨dir, name, hat, rfl⟩ := write_iff.1 hw
  rw [← place_eq hat.place] at h
  exact filter_listed_put _ h

theorem filter_listed_makeDirs {t : String → Bool} {place start parts : List String}
    (hm : fs.makeDirs start parts = .ok fs')
    (h : ∀ name, t name = true → place ++ [name] ∉ passes start parts) :
    (fs'.listed place).filter t = (fs.listed place).filter t := by
  induction parts generalizing fs start with
  | nil => rw [Except.ok.inj hm]
  | cons part parts ih =>
    rw [FileSystem.makeDirs] at hm
    rw [passes] at h
    by_cases hdot : part = "" ∨ part = "."
    · rw [if_pos hdot] at hm h
      exact ih hm h
    · rw [if_neg hdot] at hm h
      by_cases hup : part = ".."
      · rw [if_pos hup] at hm h
        exact ih hm h
      · rw [if_neg hup] at hm h
        dsimp only at hm
        have hhere : ∀ name, t name = true → start ++ [part] ≠ place ++ [name] := by
          intro name ht heq
          exact h name ht (heq ▸ List.mem_cons_self)
        have hrest : ∀ name, t name = true → place ++ [name] ∉ passes (start ++ [part]) parts :=
          fun name ht hmem => h name ht (List.mem_cons_of_mem _ hmem)
        split at hm
        · rw [ih hm hrest]
          exact filter_listed_put _ hhere
        · exact ih hm hrest
        · simp at hm

/-! ## Operations one after the other -/

/-- Writing files and making directories leads from one file system to another. -/
inductive Reaches (fs : FileSystem) : FileSystem → Prop
  | refl : Reaches fs fs
  | write {fs' fs'' : FileSystem} {path text : String} (h : Reaches fs fs')
      (hw : fs'.write path text = .ok fs'') : Reaches fs fs''
  | createDirs {fs' fs'' : FileSystem} {path : String} (h : Reaches fs fs')
      (hc : fs'.createDirs path = .ok fs'') : Reaches fs fs''

theorem Reaches.trans (h : Reaches fs fs') (h' : Reaches fs' fs'') : Reaches fs fs'' := by
  induction h' with
  | refl => exact h
  | write _ hw ih => exact ih.write hw
  | createDirs _ hc ih => exact ih.createDirs hc

theorem Reaches.lasts (h : Reaches fs fs') : Lasts fs fs' := by
  induction h with
  | refl => exact Lasts.refl fs
  | write _ hw ih => exact ih.trans (lasts_write hw)
  | createDirs _ hc ih => exact ih.trans (lasts_makeDirs hc)

/-- No name has a slash in it. -/
def Named (fs : FileSystem) : Prop :=
  ∀ p entry, (p, entry) ∈ fs.entries → ∀ name, p.getLast? = some name → '/' ∉ name.toList

instance (fs : FileSystem) : Decidable fs.Named :=
  decidable_of_iff (∀ e ∈ fs.entries, ∀ name ∈ e.1.getLast?, '/' ∉ name.toList)
    ⟨fun h p entry he name hname => h (p, entry) he name hname,
      fun h e he name hname => h e.1 e.2 he name hname⟩

theorem named_put (h : fs.Named) {dir : List String} {name : String} (hname : '/' ∉ name.toList)
    (entry : FileEntry) : (fs.put (dir ++ [name]) entry).Named := by
  intro p e hmem last hlast
  rcases List.mem_append.1 hmem with hold | hnew
  · exact h p e (List.mem_of_mem_filter hold) last hlast
  · obtain ⟨rfl, _⟩ := Prod.mk.inj (List.mem_singleton.1 hnew)
    rw [List.getLast?_concat] at hlast
    rw [← Option.some.inj hlast]
    exact hname

theorem named_makeDirs (h : fs.Named) {place parts : List String}
    (hparts : ∀ part ∈ parts, '/' ∉ part.toList) (hm : fs.makeDirs place parts = .ok fs') :
    fs'.Named := by
  induction parts generalizing fs place with
  | nil => exact Except.ok.inj hm ▸ h
  | cons part parts ih =>
    have hrest : ∀ p ∈ parts, '/' ∉ p.toList := fun p hp => hparts p (List.mem_cons_of_mem _ hp)
    rw [makeDirs] at hm
    by_cases hdot : part = "" ∨ part = "."
    · rw [if_pos hdot] at hm
      exact ih h hrest hm
    · rw [if_neg hdot] at hm
      by_cases hup : part = ".."
      · rw [if_pos hup] at hm
        exact ih h hrest hm
      · rw [if_neg hup] at hm
        dsimp only at hm
        split at hm
        · exact ih (named_put h (hparts part List.mem_cons_self) _) hrest hm
        · exact ih h hrest hm
        · simp at hm

theorem Reaches.named (h : Reaches fs fs') (hnamed : fs.Named) : fs'.Named := by
  induction h with
  | refl => exact hnamed
  | write _ hw ih =>
    obtain ⟨dir, name, hat, rfl⟩ := write_iff.1 hw
    obtain ⟨above, hparts, _⟩ := hat.parts
    have hmem : name ∈ above ++ [name] := List.mem_append_right _ (List.mem_singleton_self name)
    rw [← hparts] at hmem
    exact named_put ih (Path.noSlash_of_mem_parts hmem) _
  | createDirs _ hc ih => exact named_makeDirs ih (fun _ => Path.noSlash_of_mem_parts) hc

theorem noSlash_of_mem_listed (h : fs.Named) {place : List String} {name : String}
    (hmem : name ∈ fs.listed place) : '/' ∉ name.toList := by
  obtain ⟨p, hp, hname⟩ := List.mem_filterMap.1 hmem
  obtain ⟨e, he, rfl⟩ := List.mem_map.1 hp
  split at hname
  · exact h e.1 e.2 he name hname
  · simp at hname

end EdmxGen.FileSystem
