import EdmxGen.Proofs.File.Lasting

/-!
# File systems in which everything lies in a directory

Writing files and making directories keeps everything in a directory (`rooted_write`,
`rooted_makeDirs`). In such a file system a path that only leads down can be followed to a directory
if there is one (`Rooted.place`), and a file can be written there (`Rooted.writesAt_join`). If no
file lies in its way, a path that cannot be followed leads to something missing (`follow_clear`),
and its directories can be made (`makeDirs_clear`).
-/

namespace EdmxGen.FileSystem

variable {fs fs' : FileSystem}

/-- Everything lies in a directory, and relative paths begin in one. -/
structure Rooted (fs : FileSystem) : Prop where
  here : fs.at? fs.here = some .dir
  entries : ∀ e ∈ fs.entries, fs.at? e.1.dropLast = some .dir

instance (fs : FileSystem) : Decidable fs.Rooted :=
  decidable_of_iff
    (fs.at? fs.here = some .dir ∧ ∀ e ∈ fs.entries, fs.at? e.1.dropLast = some .dir)
    ⟨fun h => ⟨h.1, h.2⟩, fun h => ⟨h.here, h.entries⟩⟩

theorem Rooted.home (h : fs.Rooted) {p : List String} {name : String} {entry : FileEntry}
    (hat : fs.at? (p ++ [name]) = some entry) : fs.at? p = some .dir := by
  have hdir := h.entries _ (mem_of_at? (by simp) hat)
  rwa [List.dropLast_concat] at hdir

theorem Rooted.dir_of_prefix (h : fs.Rooted) {p q : List String} (hq : q <+: p)
    (hdir : fs.at? p = some .dir) : fs.at? q = some .dir := by
  obtain ⟨more, rfl⟩ := hq
  induction more using List.reverseRecOn with
  | nil => rwa [List.append_nil] at hdir
  | append_singleton more name ih =>
    rw [← List.append_assoc] at hdir
    exact ih (h.home hdir)

/-! ## Changes -/

theorem rooted_put (h : fs.Rooted) {dir : List String} {name : String} {entry : FileEntry}
    (hdir : fs.at? dir = some .dir)
    (hkept : ∀ p, fs.at? p = some .dir → (fs.put (dir ++ [name]) entry).at? p = some .dir) :
    (fs.put (dir ++ [name]) entry).Rooted := by
  refine ⟨hkept _ h.here, fun e he => ?_⟩
  rcases List.mem_append.1 he with hold | hnew
  · exact hkept _ (h.entries e (List.mem_of_mem_filter hold))
  · rw [List.mem_singleton.1 hnew, List.dropLast_concat]
    exact hkept _ hdir

theorem rooted_write (h : fs.Rooted) {path text : String} (hw : fs.write path text = .ok fs') :
    fs'.Rooted := by
  obtain ⟨dir, name, hat, rfl⟩ := write_iff.1 hw
  exact rooted_put h hat.isDir (lasts_write hw).dir

/-- What was to be made is a directory then. -/
theorem rooted_makeDirs (h : fs.Rooted) {place parts : List String}
    (hplace : fs.at? place = some .dir) (hm : fs.makeDirs place parts = .ok fs') :
    fs'.Rooted ∧ fs'.at? (descend place parts) = some .dir := by
  induction parts generalizing fs place with
  | nil =>
    obtain rfl := Except.ok.inj hm
    exact ⟨h, hplace⟩
  | cons part parts ih =>
    rw [makeDirs] at hm
    rw [descend]
    by_cases hdot : part = "" ∨ part = "."
    · rw [if_pos hdot] at hm ⊢
      exact ih h hplace hm
    rw [if_neg hdot] at hm ⊢
    by_cases hup : part = ".."
    · rw [if_pos hup] at hm ⊢
      exact ih h (h.dir_of_prefix (List.dropLast_prefix place) hplace) hm
    rw [if_neg hup] at hm ⊢
    dsimp only at hm
    split at hm
    · have hat : ∀ p, (fs.put (place ++ [part]) .dir).at? p
          = if p = place ++ [part] then some .dir else fs.at? p := at?_put (by simp) .dir
      refine ih (rooted_put h hplace fun p hp => ?_) ?_ hm
      · rw [hat p, hp, ite_self]
      · rw [hat, if_pos rfl]
    · next hdir => exact ih h hdir hm
    · simp at hm

/-! ## Paths that lead down -/

theorem prefix_descend {parts : List String} (hdown : ".." ∉ parts) (place : List String) :
    place <+: descend place parts := by
  induction parts generalizing place with
  | nil => exact List.prefix_rfl
  | cons part parts ih =>
    obtain ⟨hup, hrest⟩ := not_or.1 (mt List.mem_cons.2 hdown)
    rw [descend, if_neg (Ne.symm hup)]
    split
    · exact ih hrest place
    · exact (List.prefix_append place [part]).trans (ih hrest _)

theorem prefix_of_mem_passes {parts place p : List String} (hdown : ".." ∉ parts)
    (hp : p ∈ passes place parts) : p <+: descend place parts := by
  induction parts generalizing place with
  | nil => nomatch hp
  | cons part parts ih =>
    obtain ⟨hup, hrest⟩ := not_or.1 (mt List.mem_cons.2 hdown)
    rw [passes, if_neg (Ne.symm hup)] at hp
    rw [descend, if_neg (Ne.symm hup)]
    split at hp
    · next hdot =>
      rw [if_pos hdot]
      exact ih hrest hp
    · next hdot =>
      rw [if_neg hdot]
      rcases List.mem_cons.1 hp with rfl | hp
      · exact prefix_descend hrest _
      · exact ih hrest hp

theorem Rooted.follow (h : fs.Rooted) {place parts : List String} (hdown : ".." ∉ parts)
    (hdir : fs.at? (descend place parts) = some .dir) :
    fs.follow place parts = .ok (descend place parts) := by
  induction parts generalizing place with
  | nil => rfl
  | cons part parts ih =>
    have hplace := h.dir_of_prefix (prefix_descend hdown place) hdir
    obtain ⟨hup, hrest⟩ := not_or.1 (mt List.mem_cons.2 hdown)
    rw [descend, if_neg (Ne.symm hup)] at hdir ⊢
    rw [FileSystem.follow, hplace]
    dsimp only
    rw [if_neg (Ne.symm hup)]
    split
    · next hdot =>
      rw [if_pos hdot] at hdir
      exact ih hrest hdir
    · next hdot =>
      rw [if_neg hdot] at hdir
      exact ih hrest hdir

/-- A path without a file in its way can be followed, or something is missing. -/
theorem follow_clear {place parts : List String} (hdown : ".." ∉ parts)
    (hclear : ∀ p, p <+: descend place parts → fs.textAt? p = none) :
    fs.follow place parts = .ok (descend place parts) ∨
      fs.follow place parts = .error .notFound := by
  induction parts generalizing place with
  | nil => exact Or.inl rfl
  | cons part parts ih =>
    have hplace := hclear place (prefix_descend hdown place)
    obtain ⟨hup, hrest⟩ := not_or.1 (mt List.mem_cons.2 hdown)
    rw [descend, if_neg (Ne.symm hup)] at hclear ⊢
    rw [FileSystem.follow]
    split
    · exact Or.inr rfl
    · next text hfile =>
      rw [textAt?_eq_some.2 hfile] at hplace
      cases hplace
    · rw [if_neg (Ne.symm hup)]
      split
      · next hdot =>
        rw [if_pos hdot] at hclear
        exact ih hrest hclear
      · next hdot =>
        rw [if_neg hdot] at hclear
        exact ih hrest hclear

/-- Directories can be made where no file is in the way. -/
theorem makeDirs_clear {place parts : List String}
    (hclear : ∀ p ∈ passes place parts, fs.textAt? p = none) :
    ∃ fs', fs.makeDirs place parts = .ok fs' := by
  induction parts generalizing fs place with
  | nil => exact ⟨fs, rfl⟩
  | cons part parts ih =>
    rw [passes] at hclear
    rw [makeDirs]
    by_cases hdot : part = "" ∨ part = "."
    · rw [if_pos hdot] at hclear ⊢
      exact ih hclear
    rw [if_neg hdot] at hclear ⊢
    by_cases hup : part = ".."
    · rw [if_pos hup] at hclear ⊢
      exact ih hclear
    rw [if_neg hup] at hclear ⊢
    have hnext := hclear _ List.mem_cons_self
    have hrest : ∀ p ∈ passes (place ++ [part]) parts, fs.textAt? p = none :=
      fun p hp => hclear p (List.mem_cons_of_mem _ hp)
    dsimp only
    split
    · next hnone =>
      refine ih fun p hp => ?_
      by_cases heq : p = place ++ [part]
      · rw [textAt?, heq, at?_put (by simp), if_pos rfl]
      · rw [textAt?_put_of_ne (by simp) heq, hrest p hp]
    · exact ih hrest
    · next text hfile =>
      rw [textAt?_eq_some.2 hfile] at hnext
      cases hnext

/-! ## Directories and the names in them -/

theorem Rooted.place (h : fs.Rooted) {path : String} (hne : path ≠ "")
    (hdown : ".." ∉ Path.parts path) (hdir : fs.at? (fs.target path) = some .dir) :
    fs.place path = .ok (fs.target path) := by
  rw [place_of_ne_empty hne]
  exact h.follow hdown hdir

/-- A file can be written under every name in a directory that is no directory's. -/
theorem Rooted.writesAt_join (h : fs.Rooted) {dir name : String} (hdown : ".." ∉ Path.parts dir)
    (hname : Path.IsName name) (hdir : fs.at? (fs.target dir) = some .dir)
    (hat : fs.at? (fs.target dir ++ [name]) ≠ some .dir) :
    fs.WritesAt (Path.join dir name) (fs.target dir) name := by
  have hrelative := Path.not_isAbsolute_of_isName hname
  obtain ⟨above, hparts, hsplit⟩ := Path.parts_join dir hrelative
  rw [Path.parts_of_isName hname] at hparts
  have htarget : fs.target dir = descend (fs.start dir) above := by
    unfold target
    rcases hsplit with hsplit | hsplit
    · rw [hsplit]
    · rw [hsplit, descend_append, descend_empty]
  have habove : ".." ∉ above := by
    rcases hsplit with hsplit | hsplit
    · rwa [hsplit] at hdown
    · rw [hsplit] at hdown
      exact fun hmem => hdown (List.mem_append_left _ hmem)
  refine ⟨?_, ⟨above, hparts, ?_⟩, ⟨hname.ne_empty, hname.ne_dot, hname.ne_dots⟩, hdir, hat⟩
  · intro hempty
    have hnil : Path.parts "" = [] ++ [""] := rfl
    rw [hempty, hnil] at hparts
    exact hname.ne_empty (List.singleton_inj.1 (List.append_inj' hparts rfl).2).symm
  · rw [start_join fs dir hrelative, htarget]
    rw [htarget] at hdir
    exact h.follow habove hdir

theorem Rooted.list (h : fs.Rooted) {dir : String} (hne : dir ≠ "") (hdown : ".." ∉ Path.parts dir)
    (hdir : fs.at? (fs.target dir) = some .dir) : fs.list dir = .ok (fs.listed (fs.target dir)) :=
  list_iff.2 ⟨h.place hne hdown hdir, hdir, rfl⟩

theorem list_missing {dir : String} (hne : dir ≠ "") (hdown : ".." ∉ Path.parts dir)
    (hclear : ∀ p, p <+: fs.target dir → fs.textAt? p = none)
    (hmissing : fs.at? (fs.target dir) ≠ some .dir) : fs.list dir = .error .notFound := by
  have hnone : fs.at? (fs.target dir) = none := by
    cases hat : fs.at? (fs.target dir) with
    | none => rfl
    | some entry =>
      cases entry with
      | dir => exact absurd hat hmissing
      | file text =>
        have hfile := hclear _ List.prefix_rfl
        rw [textAt?_eq_some.2 hat] at hfile
        cases hfile
  unfold list
  rw [place_of_ne_empty hne]
  rcases follow_clear hdown hclear with hfollow | hfollow
  · rw [hfollow]
    dsimp only [bind, Except.bind]
    rw [← FileSystem.target, hnone]
  · rw [hfollow]
    rfl

theorem Rooted.read_join (h : fs.Rooted) {dir name text : String} (hdown : ".." ∉ Path.parts dir)
    (hname : Path.IsName name) (htext : fs.textAt? (fs.target dir ++ [name]) = some text) :
    fs.read (Path.join dir name) = .ok text := by
  have hat := textAt?_eq_some.1 htext
  have hwrites := h.writesAt_join hdown hname (h.home hat) (by simp [hat])
  rw [read_iff, target_join fs dir hname]
  exact ⟨hwrites.place, htext⟩

end EdmxGen.FileSystem
