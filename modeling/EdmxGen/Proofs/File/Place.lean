import EdmxGen.File.System
import EdmxGen.Proofs.Text.Cut

/-!
# The places that paths lead to

Without links a path leads to one place, which the path and the working directory alone determine
(`place_eq`); the files only decide whether it can be followed. A plain name joined to a path leads
one step further (`target_join`).
-/

namespace EdmxGen

open Text

/-! ## Parts of paths -/

namespace Path

/-- A name that is a part of a path by itself and leads one step down. -/
structure IsName (name : String) : Prop where
  noSlash : '/' ∉ name.toList
  ne_empty : name ≠ ""
  ne_dot : name ≠ "."
  ne_dots : name ≠ ".."

theorem parts_ne_nil (path : String) : parts path ≠ [] := by
  unfold parts
  rw [ne_eq, List.map_eq_nil_iff]
  exact splitAt_ne_nil _

theorem noSlash_of_mem_parts {path part : String} (h : part ∈ parts path) :
    '/' ∉ part.toList := by
  obtain ⟨piece, hpiece, rfl⟩ := List.mem_map.1 h
  rw [String.toList_ofList]
  intro hslash
  exact absurd (eq_false_of_mem_splitAt hpiece hslash) (by decide)

theorem parts_of_isName {name : String} (h : IsName name) : parts name = [name] := by
  have hslash : ∀ c ∈ name.toList, (c == '/') = false := by
    intro c hc
    rw [beq_eq_false_iff_ne]
    rintro rfl
    exact h.noSlash hc
  rw [parts, splitAt_of_forall hslash, List.map_cons, List.map_nil, String.ofList_toList]

theorem parts_slash (dir name : String) :
    parts (dir ++ "/" ++ name) = parts dir ++ parts name := by
  have hlist : (dir ++ "/" ++ name).toList = dir.toList ++ '/' :: name.toList := by simp
  rw [parts, hlist, splitAt_append (by decide), List.map_append]
  rfl

theorem isAbsolute_append {dir : String} (h : dir ≠ "") (more : String) :
    isAbsolute (dir ++ more) = isAbsolute dir := by
  unfold isAbsolute
  rw [Bool.eq_iff_iff, String.startsWith_string_iff, String.startsWith_string_iff,
    String.toList_append]
  show ['/'] <+: dir.toList ++ more.toList ↔ ['/'] <+: dir.toList
  cases hdir : dir.toList with
  | nil => exact absurd (String.toList_eq_nil_iff.1 hdir) h
  | cons c cs => rw [List.cons_append, List.cons_prefix_cons, List.cons_prefix_cons]; simp

theorem not_isAbsolute_of_isName {name : String} (h : IsName name) : isAbsolute name = false := by
  rw [isAbsolute, Bool.eq_false_iff]
  intro habs
  obtain ⟨rest, hrest⟩ := String.startsWith_string_iff.1 habs
  exact h.noSlash (by rw [← hrest]; simp)

/-- The parts of a path inside a directory follow those of the directory, but for an empty part at
its end. -/
theorem parts_join (dir : String) {more : String} (h : isAbsolute more = false) :
    ∃ above, parts (join dir more) = above ++ parts more ∧
      (parts dir = above ∨ parts dir = above ++ [""]) := by
  have habs : more.startsWith "/" = false := h
  unfold join
  rw [habs, Bool.false_or]
  by_cases hempty : dir.isEmpty
  · obtain rfl : dir = "" := by simpa using hempty
    rw [if_pos hempty]
    exact ⟨[], rfl, Or.inr rfl⟩
  rw [if_neg hempty]
  by_cases hslash : dir.endsWith "/"
  · obtain ⟨above, habove⟩ := String.Slice.endsWith_string_iff.1 hslash
    rw [String.copy_toSlice] at habove
    obtain rfl : String.ofList above ++ "/" = dir := by
      rw [← String.toList_inj, ← habove]
      simp
    have hparts : parts (String.ofList above ++ "/") = parts (String.ofList above) ++ [""] := by
      have hend := parts_slash (String.ofList above) ""
      rw [String.append_empty] at hend
      exact hend
    rw [if_pos hslash]
    exact ⟨_, parts_slash _ _, Or.inr hparts⟩
  · rw [if_neg hslash]
    exact ⟨_, parts_slash _ _, Or.inl rfl⟩

end Path

/-! ## Following paths -/

namespace FileSystem

/-- The place that parts of a path lead to from another. -/
def descend (place : List String) : List String → List String
  | [] => place
  | part :: parts =>
    if part = "" ∨ part = "." then descend place parts
    else if part = ".." then descend place.dropLast parts
    else descend (place ++ [part]) parts

/-- The places to which parts of a path lead down on their way from another. -/
def passes (place : List String) : List String → List (List String)
  | [] => []
  | part :: parts =>
    if part = "" ∨ part = "." then passes place parts
    else if part = ".." then passes place.dropLast parts
    else (place ++ [part]) :: passes (place ++ [part]) parts

/-- The place in which a path begins. -/
def start (fs : FileSystem) (path : String) : List String :=
  if Path.isAbsolute path then [] else fs.here

/-- The place that a path leads to if it can be followed. -/
def target (fs : FileSystem) (path : String) : List String :=
  descend (fs.start path) (Path.parts path)

theorem descend_append (place : List String) (parts more : List String) :
    descend place (parts ++ more) = descend (descend place parts) more := by
  induction parts generalizing place with
  | nil => rfl
  | cons part parts ih =>
    rw [List.cons_append, descend, descend]
    by_cases hdot : part = "" ∨ part = "."
    · rw [if_pos hdot, if_pos hdot, ih]
    · rw [if_neg hdot, if_neg hdot]
      by_cases hup : part = ".."
      · rw [if_pos hup, if_pos hup, ih]
      · rw [if_neg hup, if_neg hup, ih]

theorem descend_name {name : String} (h : Path.IsName name) (place : List String) :
    descend place [name] = place ++ [name] := by
  have hdot : ¬ (name = "" ∨ name = ".") := not_or.2 ⟨h.ne_empty, h.ne_dot⟩
  rw [descend, if_neg hdot, if_neg h.ne_dots, descend]

theorem follow_eq {fs : FileSystem} {place parts found : List String}
    (h : fs.follow place parts = .ok found) : found = descend place parts := by
  induction parts generalizing place with
  | nil => exact (Except.ok.inj h).symm
  | cons part parts ih =>
    rw [follow] at h
    rw [descend]
    split at h
    · simp at h
    · simp at h
    · by_cases hdot : part = "" ∨ part = "."
      · rw [if_pos hdot] at h ⊢
        exact ih h
      · rw [if_neg hdot] at h ⊢
        by_cases hup : part = ".."
        · rw [if_pos hup] at h ⊢
          exact ih h
        · rw [if_neg hup] at h ⊢
          exact ih h

/-- A path that can be followed leads to its target. -/
theorem place_eq {fs : FileSystem} {path : String} {found : List String}
    (h : fs.place path = .ok found) : found = fs.target path := by
  rw [place] at h
  split at h
  · simp at h
  · exact follow_eq h

theorem descend_empty (place : List String) : descend place [""] = place := by
  rw [descend, if_pos (Or.inl rfl), descend]

theorem passes_append (place : List String) (parts more : List String) :
    passes place (parts ++ more) = passes place parts ++ passes (descend place parts) more := by
  induction parts generalizing place with
  | nil => rfl
  | cons part parts ih =>
    rw [List.cons_append, passes, passes, descend]
    by_cases hdot : part = "" ∨ part = "."
    · rw [if_pos hdot, if_pos hdot, if_pos hdot, ih]
    · rw [if_neg hdot, if_neg hdot, if_neg hdot]
      by_cases hup : part = ".."
      · rw [if_pos hup, if_pos hup, if_pos hup, ih]
      · rw [if_neg hup, if_neg hup, if_neg hup, ih, List.cons_append]

theorem passes_empty (place : List String) : passes place [""] = [] := by
  rw [passes, if_pos (Or.inl rfl), passes]

/-- A place on the way ends with the part that leads to it. -/
theorem getLast?_of_mem_passes {place parts p : List String} (h : p ∈ passes place parts) :
    ∃ part ∈ parts, p.getLast? = some part := by
  induction parts generalizing place with
  | nil => nomatch h
  | cons part parts ih =>
    have hrest : ∀ {above : List String}, p ∈ passes above parts →
        ∃ part' ∈ part :: parts, p.getLast? = some part' := by
      intro above hmem
      obtain ⟨part', hpart', hlast⟩ := ih hmem
      exact ⟨part', List.mem_cons_of_mem _ hpart', hlast⟩
    rw [passes] at h
    split at h
    · exact hrest h
    split at h
    · exact hrest h
    · rcases List.mem_cons.1 h with rfl | hmem
      · exact ⟨part, List.mem_cons_self, List.getLast?_concat⟩
      · exact hrest hmem

/-! ## Paths inside a directory -/

/-- A path leads through a place on its way. -/
def LeadsThrough (fs : FileSystem) (path : String) (place : List String) : Prop :=
  place ∈ passes (fs.start path) (Path.parts path)

instance (fs : FileSystem) (path : String) (place : List String) :
    Decidable (fs.LeadsThrough path place) :=
  inferInstanceAs (Decidable (place ∈ passes (fs.start path) (Path.parts path)))

theorem start_join (fs : FileSystem) (dir : String) {more : String}
    (h : Path.isAbsolute more = false) : fs.start (Path.join dir more) = fs.start dir := by
  have habs : more.startsWith "/" = false := h
  unfold start Path.join
  rw [habs, Bool.false_or]
  by_cases hempty : dir.isEmpty
  · obtain rfl : dir = "" := by simpa using hempty
    rw [if_pos hempty, h]
    rfl
  · have hne : dir ≠ "" := by simpa using hempty
    rw [if_neg hempty]
    split
    · rw [Path.isAbsolute_append hne]
    · rw [String.append_assoc, Path.isAbsolute_append hne]

theorem target_join_of_relative (fs : FileSystem) (dir : String) {more : String}
    (h : Path.isAbsolute more = false) :
    fs.target (Path.join dir more) = descend (fs.target dir) (Path.parts more) := by
  obtain ⟨above, hparts, hdir⟩ := Path.parts_join dir h
  unfold target
  rw [start_join fs dir h, hparts, descend_append]
  rcases hdir with hdir | hdir
  · rw [hdir]
  · rw [hdir, descend_append, descend_empty]

/-- A name in a directory leads one step further than the directory. -/
theorem target_join (fs : FileSystem) (dir : String) {name : String} (h : Path.IsName name) :
    fs.target (Path.join dir name) = fs.target dir ++ [name] := by
  rw [target_join_of_relative fs dir (Path.not_isAbsolute_of_isName h), Path.parts_of_isName h,
    descend_name h]

/-- A path inside a directory leads through the places of the directory, then down from there. -/
theorem leadsThrough_join {fs : FileSystem} {dir more : String} {place : List String}
    (h : Path.isAbsolute more = false) : fs.LeadsThrough (Path.join dir more) place ↔
      fs.LeadsThrough dir place ∨ place ∈ passes (fs.target dir) (Path.parts more) := by
  obtain ⟨above, hparts, hdir⟩ := Path.parts_join dir h
  unfold LeadsThrough target
  rw [start_join fs dir h, hparts, passes_append, List.mem_append]
  rcases hdir with hdir | hdir
  · rw [hdir]
  · rw [hdir, passes_append, passes_empty, List.append_nil, descend_append, descend_empty]

end FileSystem

end EdmxGen
