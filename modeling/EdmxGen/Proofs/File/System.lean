import EdmxGen.Proofs.File.Place
import EdmxGen.Proofs.Run

/-!
# What writing changes in a file system

A file that is written lies at the target of its path, in a directory, and nothing else changes
(`write_iff`, `textAt?_write`). Making directories changes no file (`sameFiles_makeDirs`). The names
in a directory are those under which something lies (`list_ok`).
-/

namespace EdmxGen.FileSystem

variable {fs fs' : FileSystem}

def textAt? (fs : FileSystem) (place : List String) : Option String :=
  match fs.at? place with
  | some (.file text) => some text
  | _ => none

theorem textAt?_eq_some {place : List String} {text : String} :
    fs.textAt? place = some text ↔ fs.at? place = some (.file text) := by
  unfold textAt?
  constructor
  · intro h
    split at h
    · next hat => rw [hat, Option.some.inj h]
    · simp at h
  · intro h
    rw [h]

theorem textAt?_congr {place : List String} (h : fs'.at? place = fs.at? place) :
    fs'.textAt? place = fs.textAt? place := by
  unfold textAt?
  rw [h]

/-- The same files lie in both file systems, and relative paths begin at the same place. -/
structure SameFiles (fs fs' : FileSystem) : Prop where
  here : fs'.here = fs.here
  texts : ∀ p, fs'.textAt? p = fs.textAt? p

theorem SameFiles.of_eq (h : fs' = fs) : SameFiles fs fs' := by
  rw [h]
  exact ⟨rfl, fun _ => rfl⟩

theorem SameFiles.trans {fs'' : FileSystem} (h : SameFiles fs fs') (h' : SameFiles fs' fs'') :
    SameFiles fs fs'' :=
  ⟨h'.here.trans h.here, fun p => (h'.texts p).trans (h.texts p)⟩

theorem start_congr (h : fs'.here = fs.here) (path : String) : fs'.start path = fs.start path := by
  unfold start
  rw [h]

theorem target_congr (h : fs'.here = fs.here) (path : String) :
    fs'.target path = fs.target path := by
  unfold target
  rw [start_congr h]

theorem leadsThrough_congr (h : fs'.here = fs.here) {path : String} {place : List String} :
    fs'.LeadsThrough path place ↔ fs.LeadsThrough path place := by
  unfold LeadsThrough
  rw [start_congr h]

/-! ## One entry -/

theorem at?_put {place : List String} (hne : place ≠ []) (entry : FileEntry) (p : List String) :
    (fs.put place entry).at? p = if p = place then some entry else fs.at? p := by
  unfold at? put
  by_cases hp : p = place
  · subst hp
    have hfind : ((fs.entries.filter fun e => e.1 != p) ++ [(p, entry)]).find?
        (fun e => e.1 == p) = some (p, entry) := by
      rw [List.find?_append, List.find?_eq_none.2]
      · simp
      · intro e he
        simpa using (List.mem_filter.1 he).2
    rw [if_pos rfl, if_neg (by simpa using hne), hfind]
    rfl
  · rw [if_neg hp]
    by_cases hnil : p.isEmpty
    · rw [if_pos hnil, if_pos hnil]
    · have hfind : ((fs.entries.filter fun e => e.1 != place) ++ [(place, entry)]).find?
          (fun e => e.1 == p) = fs.entries.find? (fun e => e.1 == p) := by
        have hlast : ¬ (place == p) = true := by simpa using Ne.symm hp
        rw [List.find?_append, List.find?_filter, List.find?_singleton, if_neg hlast,
          Option.or_none]
        congr 1
        funext e
        by_cases he : e.1 = p
        · simp [he, hp]
        · simp [he]
      rw [if_neg hnil, if_neg hnil, hfind]

theorem textAt?_put_self {place : List String} (hne : place ≠ []) (text : String) :
    (fs.put place (.file text)).textAt? place = some text := by
  rw [textAt?_eq_some, at?_put hne, if_pos rfl]

theorem textAt?_put_of_ne {place p : List String} (hne : place ≠ []) (hp : p ≠ place)
    (entry : FileEntry) : (fs.put place entry).textAt? p = fs.textAt? p :=
  textAt?_congr (by rw [at?_put hne, if_neg hp])

/-! ## Writing a file -/

theorem follow_append (fs : FileSystem) (place : List String) (parts more : List String) :
    fs.follow place (parts ++ more) = fs.follow place parts >>= fun p => fs.follow p more := by
  induction parts generalizing place with
  | nil => rfl
  | cons part parts ih =>
    rw [List.cons_append, follow, follow]
    split
    · rfl
    · rfl
    · by_cases hdot : part = "" ∨ part = "."
      · rw [if_pos hdot, if_pos hdot, ih]
      · rw [if_neg hdot, if_neg hdot]
        by_cases hup : part = ".."
        · rw [if_pos hup, if_pos hup, ih]
        · rw [if_neg hup, if_neg hup, ih]

theorem dropWhile_reverse_length {α : Type} {p : α → Bool} {xs : List α}
    (h : ¬ (xs.reverse.dropWhile p).reverse.length < xs.length) :
    (xs.reverse.dropWhile p).reverse = xs := by
  have hsuffix : xs.reverse.dropWhile p <:+ xs.reverse := List.dropWhile_suffix p
  have hlen : xs.reverse.length ≤ (xs.reverse.dropWhile p).length := by
    rw [List.length_reverse] at h ⊢
    omega
  rw [hsuffix.eq_of_length_le hlen, List.reverse_reverse]

theorem writeIn_ok {dir : List String} {name text : String}
    (h : fs.writeIn dir name text = .ok fs') :
    fs.at? dir = some .dir ∧ fs.at? (dir ++ [name]) ≠ some .dir ∧
      (name ≠ "" ∧ name ≠ "." ∧ name ≠ "..") ∧ fs' = fs.put (dir ++ [name]) (.file text) := by
  unfold writeIn at h
  split at h
  · simp at h
  · simp at h
  · next hdir =>
    by_cases hname : name = "" ∨ name = "." ∨ name = ".."
    · rw [if_pos hname] at h
      simp at h
    · rw [if_neg hname] at h
      rw [not_or, not_or] at hname
      split at h
      · simp at h
      · next hat => exact ⟨hdir, hat, hname, (Except.ok.inj h).symm⟩

/-- A file can be written at a path, in a directory under a name that is no directory's. -/
structure WritesAt (fs : FileSystem) (path : String) (dir : List String) (name : String) : Prop where
  ne_empty : path ≠ ""
  parts : ∃ above, Path.parts path = above ++ [name] ∧ fs.follow (fs.start path) above = .ok dir
  isName : name ≠ "" ∧ name ≠ "." ∧ name ≠ ".."
  isDir : fs.at? dir = some .dir
  notDir : fs.at? (dir ++ [name]) ≠ some .dir

theorem place_of_ne_empty {path : String} (h : path ≠ "") :
    fs.place path = fs.follow (fs.start path) (Path.parts path) := by
  unfold place start
  rw [if_neg (by simpa using h)]

theorem follow_name {dir : List String} {name : String} (hdir : fs.at? dir = some .dir)
    (h : name ≠ "" ∧ name ≠ "." ∧ name ≠ "..") : fs.follow dir [name] = .ok (dir ++ [name]) := by
  rw [follow, hdir]
  dsimp only
  rw [if_neg (not_or.2 ⟨h.1, h.2.1⟩), if_neg h.2.2, follow]

theorem WritesAt.place {path : String} {dir : List String} {name : String}
    (h : fs.WritesAt path dir name) : fs.place path = .ok (dir ++ [name]) := by
  obtain ⟨above, hparts, hfollow⟩ := h.parts
  rw [place_of_ne_empty h.ne_empty, hparts, follow_append, hfollow]
  exact follow_name h.isDir h.isName

/-- A file is written where it can be, and nothing else changes. -/
theorem write_iff {path text : String} : fs.write path text = .ok fs' ↔
    ∃ dir name, fs.WritesAt path dir name ∧ fs' = fs.put (dir ++ [name]) (.file text) := by
  constructor
  · intro h
    unfold write at h
    by_cases hempty : path.isEmpty
    · rw [if_pos hempty] at h
      simp at h
    · rw [if_neg hempty] at h
      obtain ⟨dir, hfollow, h⟩ := ok_of_bind h
      obtain ⟨hdir, hat, hname, rfl⟩ := writeIn_ok h
      -- A slash at the end gives an empty name, so the path has none.
      have hlen : ¬ ((Path.parts path).reverse.dropWhile (· == "")).reverse.length <
          (Path.parts path).length := by
        intro hlt
        rw [if_pos hlt] at hname
        exact hname.1 rfl
      rw [if_neg hlen] at hname hat ⊢
      rw [dropWhile_reverse_length hlen] at hname hat hfollow ⊢
      have hlast : Path.parts path
          = (Path.parts path).dropLast ++ [(Path.parts path).getLast?.getD ""] := by
        have hne : Path.parts path ≠ [] := Path.parts_ne_nil path
        rw [List.getLast?_eq_getLast_of_ne_nil hne, Option.getD_some]
        exact (List.dropLast_append_getLast hne).symm
      exact ⟨dir, _, ⟨by simpa using hempty, ⟨_, hlast, hfollow⟩, hname, hdir, hat⟩, rfl⟩
  · rintro ⟨dir, name, h, rfl⟩
    obtain ⟨above, hparts, hfollow⟩ := h.parts
    have hnamed : ((above ++ [name]).reverse.dropWhile (· == "")).reverse = above ++ [name] := by
      rw [List.reverse_append, List.reverse_singleton, List.singleton_append,
        List.dropWhile_cons_of_neg (by simpa using h.isName.1)]
      simp
    unfold write
    rw [if_neg (by simpa using h.ne_empty), hparts, hnamed, List.dropLast_concat]
    show (fs.follow (fs.start path) above >>= fun dir => _) = _
    rw [hfollow, if_neg (Nat.lt_irrefl _), List.getLast?_concat]
    show fs.writeIn dir name text = _
    unfold writeIn
    rw [h.isDir]
    dsimp only
    rw [if_neg (not_or.2 ⟨h.isName.1, not_or.2 h.isName.2⟩)]
    split
    · next hdir => exact absurd hdir h.notDir
    · rfl

/-- The text of a written file lies at its target, and every other text is as it was. -/
theorem textAt?_write {path text : String} (h : fs.write path text = .ok fs') :
    fs'.here = fs.here ∧ fs'.textAt? (fs.target path) = some text ∧
      ∀ p, p ≠ fs.target path → fs'.textAt? p = fs.textAt? p := by
  obtain ⟨dir, name, hat, rfl⟩ := write_iff.1 h
  have hne : dir ++ [name] ≠ [] := by simp
  rw [← place_eq hat.place]
  exact ⟨rfl, textAt?_put_self hne text, fun p hp => textAt?_put_of_ne hne hp _⟩

/-! ## Making directories -/

/-- Directories are made only where nothing lies. -/
theorem at?_makeDirs {place parts : List String} (h : fs.makeDirs place parts = .ok fs') :
    fs'.here = fs.here ∧
      ∀ p, fs'.at? p = fs.at? p ∨ fs.at? p = none ∧ fs'.at? p = some .dir := by
  induction parts generalizing fs place with
  | nil =>
    obtain rfl := Except.ok.inj h
    exact ⟨rfl, fun _ => Or.inl rfl⟩
  | cons part parts ih =>
    rw [makeDirs] at h
    by_cases hdot : part = "" ∨ part = "."
    · rw [if_pos hdot] at h
      exact ih h
    · rw [if_neg hdot] at h
      by_cases hup : part = ".."
      · rw [if_pos hup] at h
        exact ih h
      · rw [if_neg hup] at h
        have hne : place ++ [part] ≠ [] := by simp
        dsimp only at h
        split at h
        · next hnone =>
          obtain ⟨hhere, hat⟩ := ih h
          refine ⟨hhere, fun p => ?_⟩
          have hp := hat p
          rw [at?_put hne] at hp
          by_cases heq : p = place ++ [part]
          · rw [if_pos heq] at hp
            rw [heq, hnone]
            rw [heq] at hp
            rcases hp with hp | ⟨hp, _⟩
            · exact Or.inr ⟨rfl, hp⟩
            · simp at hp
          · rw [if_neg heq] at hp
            exact hp
        · exact ih h
        · simp at h

theorem sameFiles_makeDirs {place parts : List String}
    (h : fs.makeDirs place parts = .ok fs') : SameFiles fs fs' := by
  refine ⟨(at?_makeDirs h).1, fun p => ?_⟩
  rcases (at?_makeDirs h).2 p with hp | ⟨hnone, hdir⟩
  · exact textAt?_congr hp
  · unfold textAt?
    rw [hnone, hdir]

/-! ## Listing a directory -/

theorem mem_of_at? {p : List String} {entry : FileEntry} (hne : p ≠ [])
    (h : fs.at? p = some entry) : (p, entry) ∈ fs.entries := by
  unfold at? at h
  rw [if_neg (by simpa using hne)] at h
  obtain ⟨e, hfind, rfl⟩ := Option.map_eq_some_iff.1 h
  have hp : e.1 = p := by simpa using List.find?_some hfind
  rw [← hp]
  exact List.mem_of_find?_eq_some hfind

theorem at?_ne_none_of_mem {p : List String} {entry : FileEntry} (h : (p, entry) ∈ fs.entries) :
    fs.at? p ≠ none := by
  unfold at?
  by_cases hnil : p.isEmpty
  · rw [if_pos hnil]
    simp
  · rw [if_neg hnil, ne_eq, Option.map_eq_none_iff, List.find?_eq_none]
    intro hnone
    exact hnone _ h (by simp)

theorem list_ok {path : String} {found : List String} (h : fs.list path = .ok found) :
    fs.place path = .ok (fs.target path) ∧ fs.at? (fs.target path) = some .dir ∧
      ∀ name, name ∈ found ↔ fs.at? (fs.target path ++ [name]) ≠ none := by
  obtain ⟨place, hplace, h⟩ := ok_of_bind h
  obtain rfl := place_eq hplace
  split at h
  · simp at h
  · simp at h
  · next hdir =>
    obtain rfl := Except.ok.inj h
    refine ⟨hplace, hdir, fun name => ?_⟩
    rw [List.mem_filterMap]
    constructor
    · rintro ⟨p, hp, hname⟩
      obtain ⟨e, he, rfl⟩ := List.mem_map.1 hp
      split at hname
      · next hparent =>
        have hsplit : e.1 = fs.target path ++ [name] := by
          rw [← beq_iff_eq.1 hparent]
          exact (List.dropLast_append_getLast? name hname).symm
        rw [← hsplit]
        exact at?_ne_none_of_mem he
      · simp at hname
    · intro hat
      obtain ⟨entry, hentry⟩ := Option.ne_none_iff_exists'.1 hat
      refine ⟨_, List.mem_map.2 ⟨_, mem_of_at? (by simp) hentry, rfl⟩, ?_⟩
      rw [List.dropLast_concat, List.getLast?_concat]
      simp

end EdmxGen.FileSystem
