import EdmxGen.Text.Basic
import Mathlib.Data.List.DropRight

/-!
# The ends of a text

Taking a run of characters off the end of a text leaves one that ends otherwise
(`getLast?_dropEndWhile`), and takes off nothing else (`exists_dropEndWhile`). A text is solid if no
blank stands at its ends. Every text is a solid one between blanks, and trimming gives that one
(`trimmed_trim`, `trim_surrounded`).
-/

namespace EdmxGen.Text

variable {p : Char → Bool} {cs t w w₁ w₂ : List Char}

/-! ## Runs at the end -/

theorem dropEndWhile_append (hw : ∀ c ∈ w, p c = true) :
    dropEndWhile p (cs ++ w) = dropEndWhile p cs := by
  unfold dropEndWhile
  rw [List.reverse_append, List.dropWhile_append_of_pos]
  exact fun c hc => hw c (List.mem_reverse.1 hc)

theorem dropEndWhile_eq_self (h : ∀ c ∈ cs.getLast?, p c = false) : dropEndWhile p cs = cs := by
  refine List.rdropWhile_eq_self_iff.2 fun hne => ?_
  rw [h _ (List.getLast_mem_getLast? hne)]
  exact Bool.false_ne_true

theorem getLast?_dropEndWhile : ∀ c ∈ (dropEndWhile p cs).getLast?, p c = false := by
  intro c hc
  unfold dropEndWhile at hc
  rw [List.getLast?_reverse] at hc
  have hhead := List.head?_dropWhile_not p cs.reverse
  rw [Option.mem_def.1 hc] at hhead
  exact hhead

theorem exists_dropEndWhile (p : Char → Bool) (cs : List Char) :
    ∃ w, cs = dropEndWhile p cs ++ w ∧ ∀ c ∈ w, p c = true :=
  ⟨cs.rtakeWhile p, List.rdropWhile_append_rtakeWhile.symm, fun _ => List.mem_rtakeWhile_imp⟩

/-! ## Blanks at the ends -/

def Blank (cs : List Char) : Prop := ∀ c ∈ cs, isBlank c = true

instance (cs : List Char) : Decidable (Blank cs) :=
  List.decidableBAll _ cs

/-- The text neither begins nor ends with a blank. -/
structure Solid (cs : List Char) : Prop where
  first : ∀ c ∈ cs.head?, isBlank c = false
  last : ∀ c ∈ cs.getLast?, isBlank c = false

instance (cs : List Char) : Decidable (Solid cs) :=
  -- by the one character that there is at an end, not by all characters
  haveI : Decidable (∀ c ∈ cs.head?, isBlank c = false) := Option.decidableForallMem _
  haveI : Decidable (∀ c ∈ cs.getLast?, isBlank c = false) := Option.decidableForallMem _
  decidable_of_iff ((∀ c ∈ cs.head?, isBlank c = false) ∧ ∀ c ∈ cs.getLast?, isBlank c = false)
    ⟨fun h => ⟨h.1, h.2⟩, fun h => ⟨h.first, h.last⟩⟩

/-- A text without the blanks at its ends. -/
structure Trimmed (cs t : List Char) : Prop where
  solid : Solid t
  between : ∃ w₁ w₂, cs = w₁ ++ t ++ w₂ ∧ Blank w₁ ∧ Blank w₂

theorem trimStart_append (hw : Blank w) : trimStart (w ++ cs) = trimStart cs :=
  List.dropWhile_append_of_pos hw

theorem trimStart_eq_self (h : ∀ c ∈ cs.head?, isBlank c = false) : trimStart cs = cs := by
  cases cs with
  | nil => rfl
  | cons c cs =>
    refine List.dropWhile_cons_of_neg ?_
    rw [h c rfl]
    exact Bool.false_ne_true

/-- Trimming takes the blanks around a solid text off. -/
theorem trim_surrounded (ht : Solid t) (h₁ : Blank w₁) (h₂ : Blank w₂) :
    trim (w₁ ++ t ++ w₂) = t := by
  unfold trim trimEnd
  rw [List.append_assoc, trimStart_append h₁]
  cases t with
  | nil =>
    have hnil : trimStart w₂ = [] := List.dropWhile_eq_nil_iff.2 h₂
    rw [List.nil_append, hnil]
    rfl
  | cons c t =>
    have hfirst : trimStart (c :: t ++ w₂) = c :: t ++ w₂ := trimStart_eq_self ht.first
    rw [hfirst, dropEndWhile_append h₂, dropEndWhile_eq_self ht.last]

theorem trim_eq_self (h : Solid t) : trim t = t := by
  have hnil : Blank [] := fun _ hc => nomatch hc
  simpa using trim_surrounded h hnil hnil

theorem trimmed_trim (cs : List Char) : Trimmed cs (trim cs) := by
  obtain ⟨w₂, hend, h₂⟩ := exists_dropEndWhile isBlank (trimStart cs)
  refine ⟨⟨fun c hc => ?_, getLast?_dropEndWhile⟩, cs.takeWhile isBlank, w₂, ?_, ?_, h₂⟩
  · -- what is left at the end begins as the text before it did
    have hhead : c ∈ (trimStart cs).head? := by
      rw [hend]
      exact List.mem_head?_append_of_mem_head? hc
    have hstart := List.head?_dropWhile_not isBlank cs
    rw [← trimStart, Option.mem_def.1 hhead] at hstart
    exact hstart
  · calc cs = cs.takeWhile isBlank ++ trimStart cs := (List.takeWhile_append_dropWhile).symm
      _ = cs.takeWhile isBlank ++ (trim cs ++ w₂) := by
          rw [trim, trimEnd, ← hend]
      _ = cs.takeWhile isBlank ++ trim cs ++ w₂ := (List.append_assoc _ _ _).symm
  · exact fun c hc => List.mem_takeWhile_imp hc

theorem Trimmed.trim_eq (h : Trimmed cs t) : trim cs = t := by
  obtain ⟨w₁, w₂, rfl, h₁, h₂⟩ := h.between
  exact trim_surrounded h.solid h₁ h₂

theorem trim_eq_nil_iff : trim cs = [] ↔ Blank cs := by
  constructor
  · intro h
    obtain ⟨w₁, w₂, hcs, h₁, h₂⟩ := (trimmed_trim cs).between
    rw [h, List.append_nil] at hcs
    intro c hc
    rw [hcs, List.mem_append] at hc
    exact hc.elim (h₁ c) (h₂ c)
  · intro h
    have hnil : Blank [] := fun _ hc => nomatch hc
    simpa using trim_surrounded (t := []) (by decide) h hnil

theorem Solid.append (ht : Solid t) (hw : Solid w) : Solid (t ++ w) := by
  refine ⟨fun c hc => ?_, fun c hc => ?_⟩
  · rw [List.head?_append, Option.mem_def, Option.or_eq_some_iff] at hc
    rcases hc with hc | ⟨-, hc⟩
    · exact ht.first c hc
    · exact hw.first c hc
  · rw [List.getLast?_append, Option.mem_def, Option.or_eq_some_iff] at hc
    rcases hc with hc | ⟨-, hc⟩
    · exact hw.last c hc
    · exact ht.last c hc

end EdmxGen.Text
