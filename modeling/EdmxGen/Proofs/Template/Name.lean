import EdmxGen.Proofs.File.Place
import EdmxGen.Template.Store

/-!
# Names of templates

A file name is that of a template if it is something, then a dot and the extension
(`isTemplate_iff`). The bundled templates have such names.
-/

namespace EdmxGen

open Text

namespace Path

theorem fileName?_of_isName {name : String} (h : IsName name) : fileName? name = some name := by
  have hnames : names name = [name] := by
    unfold names
    rw [parts_of_isName h, List.head?_cons, List.filter_cons_of_pos]
    · rw [if_neg (by simp [h.ne_dot])]
      rfl
    · simp [h.ne_empty, h.ne_dot]
  unfold fileName?
  rw [hnames, List.getLast?_singleton]
  split
  · next hdots => exact absurd (Option.some.inj hdots) h.ne_dots
  · next hdot => exact absurd (Option.some.inj hdot) h.ne_dot
  · rfl

/-- A name has an extension if that follows a dot behind something. -/
theorem extensionOf?_iff {name extension : String} (hdot : '.' ∉ extension.toList) :
    extensionOf? name = some extension ↔
      ∃ stem, stem ≠ "" ∧ name = stem ++ "." ++ extension := by
  unfold extensionOf?
  constructor
  · intro h
    cases hrest : name.toList.reverse.dropWhile (· != '.') with
    | nil =>
      rw [hrest] at h
      simp at h
    | cons c stem =>
      obtain ⟨-, hsplit⟩ := eq_append_of_dropWhile_ne hrest
      rw [hrest] at h
      cases stem with
      | nil => simp at h
      | cons d stem =>
        have hext := Option.some.inj h
        refine ⟨String.ofList (d :: stem).reverse, by simp, ?_⟩
        rw [← String.toList_inj, ← List.reverse_inj, hsplit, ← hext]
        simp
  · rintro ⟨stem, hstem, rfl⟩
    have hreverse : (stem ++ "." ++ extension).toList.reverse =
        extension.toList.reverse ++ '.' :: stem.toList.reverse := by simp
    have hbefore : ∀ c ∈ extension.toList.reverse, (c != '.') = true := by
      intro c hc
      rw [bne_iff_ne]
      rintro rfl
      exact hdot (List.mem_reverse.1 hc)
    rw [hreverse, List.dropWhile_append_of_pos hbefore, List.dropWhile_cons_of_neg (by simp),
      List.takeWhile_append_of_pos hbefore, List.takeWhile_cons_of_neg (by simp)]
    cases hchars : stem.toList.reverse with
    | nil => exact absurd (by simpa using hchars) hstem
    | cons d stem => simp

end Path

namespace Template

theorem isName_of_isTemplate {name : String} (h : isTemplate name = true)
    (hslash : '/' ∉ name.toList) : Path.IsName name := by
  refine ⟨hslash, ?_, ?_, ?_⟩
  · rintro rfl
    exact absurd h (by decide +kernel)
  · rintro rfl
    exact absurd h (by decide +kernel)
  · rintro rfl
    exact absurd h (by decide +kernel)

/-- The name of a template: something, then a dot and the extension. -/
def IsTemplateName (name : String) : Prop :=
  ∃ stem, stem ≠ "" ∧ name = stem ++ "." ++ fileExtension

theorem IsTemplateName.isName {name : String} (h : IsTemplateName name)
    (hslash : '/' ∉ name.toList) : Path.IsName name := by
  obtain ⟨stem, _, rfl⟩ := h
  have hlast : (stem ++ "." ++ fileExtension).toList.getLast? = some 't' := by
    simp [fileExtension]
  refine ⟨hslash, ?_, ?_, ?_⟩
  · intro hempty
    rw [hempty] at hlast
    nomatch hlast
  · intro hdot
    rw [hdot] at hlast
    exact absurd hlast (by decide)
  · intro hdots
    rw [hdots] at hlast
    exact absurd hlast (by decide)

/-- Names of files are told to be templates by what they end in. -/
theorem isTemplate_iff {name : String} (hslash : '/' ∉ name.toList) :
    isTemplate name = true ↔ IsTemplateName name := by
  have hextension : Path.IsName name → (isTemplate name = true ↔ IsTemplateName name) := by
    intro hname
    unfold isTemplate Path.extension?
    rw [Path.fileName?_of_isName hname, Option.bind_some, beq_iff_eq]
    exact Path.extensionOf?_iff (by decide)
  constructor
  · intro h
    exact (hextension (isName_of_isTemplate h hslash)).1 h
  · intro h
    exact (hextension (h.isName hslash)).2 h

theorem isName_bundled {b : String × String} (h : b ∈ bundled) : Path.IsName b.1 := by
  rcases List.mem_pair.1 h with rfl | rfl
  · exact ⟨by simp, by simp, by simp, by simp⟩
  · exact ⟨by simp, by simp, by simp, by simp⟩

theorem isTemplate_bundled {b : String × String} (h : b ∈ bundled) :
    isTemplate b.1 = true := by
  rcases List.mem_pair.1 h with rfl | rfl
  · decide +kernel
  · decide +kernel

end Template

end EdmxGen
