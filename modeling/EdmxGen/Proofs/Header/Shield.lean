import EdmxGen.Header
import EdmxGen.Proofs.Json.Spelling

/-!
# Shielded texts

Escaping the slash after an asterisk turns a text of a value into another text of the same value
(`spells_shield`), since an asterisk and a slash next to each other can only stand in a string. What
has neither is seen through the shield.
-/

namespace EdmxGen.Header

open Json Text

/-! ## Pieces -/

theorem shield_cons {c : Char} (hc : c ≠ '*') (cs : List Char) :
    shield (c :: cs) = c :: shield cs := by
  rw [shield]
  rintro ds rfl
  exact absurd rfl hc

theorem shield_star {cs : List Char} (h : cs.head? ≠ some '/') :
    shield ('*' :: cs) = '*' :: shield cs := by
  rw [shield]
  rintro ds - rfl
  exact absurd rfl h

theorem shield_of_not_mem {a : List Char} (h : '*' ∉ a) (b : List Char) :
    shield (a ++ b) = a ++ shield b := by
  induction a with
  | nil => rfl
  | cons c cs ih =>
    rw [List.mem_cons, not_or] at h
    rw [List.cons_append, shield_cons (Ne.symm h.1), ih h.2, List.cons_append]

/-- A text that does not begin with a slash is shielded apart from what precedes it. -/
theorem shield_append (a : List Char) {b : List Char} (h : b.head? ≠ some '/') :
    shield (a ++ b) = shield a ++ shield b := by
  fun_induction shield a with
  | case1 cs ih => rw [List.cons_append, List.cons_append, shield, ih]; rfl
  | case2 c cs hcs ih =>
    by_cases hc : c = '*'
    · subst hc
      have hhead : (cs ++ b).head? ≠ some '/' := by
        cases cs with
        | nil => exact h
        | cons d ds => rintro heq; exact hcs ds rfl (by simpa using heq)
      rw [List.cons_append, shield_star hhead, ih, List.cons_append]
    · rw [List.cons_append, shield_cons hc, ih, List.cons_append]
  | case3 => rfl

theorem shield_eq_of_not_mem {a : List Char} (h : '*' ∉ a) : shield a = a := by
  have := shield_of_not_mem h []
  rwa [List.append_nil, show shield [] = [] from rfl, List.append_nil] at this

/-- What has no asterisk and begins with no slash is seen through the shield. -/
theorem infix_shield {w t : List Char} (hstar : '*' ∉ w) (hne : w ≠ [])
    (hslash : w.head? ≠ some '/') (h : w <:+: t) : w <:+: shield t := by
  obtain ⟨a, b, rfl⟩ := h
  refine ⟨shield a, shield b, ?_⟩
  have hhead : (w ++ b).head? ≠ some '/' := by
    cases w with
    | nil => exact absurd rfl hne
    | cons c cs => exact hslash
  rw [List.append_assoc, List.append_assoc, shield_append a hhead, shield_of_not_mem hstar]

/-! ## Texts of values -/

/-- A string's text that begins with a slash is that of a string that does. -/
theorem literal_slash {cs t : List Char} (h : Literal cs ('/' :: t)) :
    ∃ ds, cs = '/' :: ds ∧ Literal ds t := by
  generalize hr : '/' :: t = r at h
  cases h with
  | close => simp at hr
  | letter hp hl =>
    cases hp with
    | raw _ _ _ =>
      obtain ⟨rfl, rfl⟩ := List.cons.inj hr
      exact ⟨_, rfl, hl⟩
    | short _ => simp at hr
    | unicode _ _ _ => simp at hr

/-- An asterisk before the shielded rest of a string. -/
theorem literal_star {cs t : List Char} (hp : Letter '*' ['*']) (h : Literal cs (shield t)) :
    Literal ('*' :: cs) (shield ('*' :: t)) := by
  by_cases hslash : t.head? = some '/'
  · obtain ⟨t, rfl⟩ : ∃ r, t = '/' :: r := by
      cases t with
      | nil => simp at hslash
      | cons d ds => exact ⟨ds, by simpa using hslash⟩
    rw [shield_cons (by decide)] at h
    obtain ⟨ds, rfl, hds⟩ := literal_slash h
    exact Literal.letter hp (Literal.letter (Letter.short rfl) hds)
  · rw [shield_star hslash]
    exact Literal.letter hp h

theorem literal_shield {cs t : List Char} (h : Literal cs t) : Literal cs (shield t) := by
  induction h with
  | close => exact Literal.close
  | @letter c cs p t hp _ ih =>
    rcases hp.eq_or_not_mem (by decide : inEscape '*' = false) with rfl | hstar
    · by_cases hc : c = '*'
      · subst hc
        exact literal_star hp ih
      · rw [List.singleton_append, shield_cons hc]
        exact Literal.letter hp ih
    · rw [shield_of_not_mem hstar]
      exact Literal.letter hp ih

theorem star_not_mem_gap {ws : List Char} (h : Gap ws) : '*' ∉ ws := fun hmem =>
  absurd (h '*' hmem) (by decide)

/-- A text, blanks and one more character are shielded apart. -/
theorem shield_end {ws : List Char} (hws : Gap ws) (t : List Char) {c : Char} (hstar : c ≠ '*')
    (hslash : c ≠ '/') (x : List Char) :
    shield (t ++ (ws ++ c :: x)) = shield t ++ (ws ++ c :: shield x) := by
  have hhead : (ws ++ c :: x).head? ≠ some '/' := by
    cases ws with
    | nil => simpa using hslash
    | cons d ds =>
      rintro heq
      obtain rfl : d = '/' := by simpa using heq
      exact absurd (hws '/' List.mem_cons_self) (by decide)
  rw [shield_append t hhead, shield_of_not_mem (star_not_mem_gap hws), shield_cons hstar]

theorem key_shield {k : String} {h : List Char} (hk : Key k h) :
    Key k (shield h) ∧ ∀ x, shield (h ++ x) = shield h ++ shield x := by
  obtain ⟨l, ws, hl, hws, rfl⟩ := hk
  have hshield : ∀ x, shield ('"' :: (l ++ (ws ++ ':' :: x))) =
      '"' :: (shield l ++ (ws ++ ':' :: shield x)) := by
    intro x
    rw [shield_cons (by decide), shield_end hws l (by decide) (by decide)]
  refine ⟨⟨shield l, ws, literal_shield hl, hws, hshield []⟩, fun x => ?_⟩
  rw [show '"' :: (l ++ (ws ++ [':'])) ++ x = '"' :: (l ++ (ws ++ ':' :: x)) by simp, hshield,
    hshield]
  simp [shield]

mutual

/-- A shielded text of a value is a text of it. -/
theorem spells_shield : ∀ {v : Json} {t : List Char}, Spells v t → Spells v (shield t)
  | _, _, .null => Spells.null
  | _, _, .yes => Spells.yes
  | _, _, .no => Spells.no
  | _, _, .num => by
    rw [shield_eq_of_not_mem]
    · exact Spells.num
    · exact fun hmem => absurd (isDigit_of_mem_decimal hmem) (by decide)
  | _, _, .str h => by
    rw [shield_cons (by decide)]
    exact Spells.str (literal_shield h)
  | _, _, .noItems hws => by
    rw [shield_cons (by decide), shield_of_not_mem (star_not_mem_gap hws)]
    exact Spells.noItems hws
  | _, _, .arr hws hs => by
    rw [shield_cons (by decide), shield_of_not_mem (star_not_mem_gap hws)]
    exact Spells.arr hws (spellsItems_shield hs)
  | _, _, .noMembers hws => by
    rw [shield_cons (by decide), shield_of_not_mem (star_not_mem_gap hws)]
    exact Spells.noMembers hws
  | _, _, .obj hws hs => by
    rw [shield_cons (by decide), shield_of_not_mem (star_not_mem_gap hws)]
    exact Spells.obj hws (spellsMembers_shield hs)

theorem spellsItems_shield : ∀ {vs : List Json} {t : List Char}, SpellsItems vs t →
    SpellsItems vs (shield t)
  | _, _, .last h hws => by
    rw [shield_end hws _ (by decide) (by decide)]
    exact SpellsItems.last (spells_shield h) hws
  | _, _, .next h hws hws' hs => by
    rw [shield_end hws _ (by decide) (by decide), shield_of_not_mem (star_not_mem_gap hws')]
    exact SpellsItems.next (spells_shield h) hws hws' (spellsItems_shield hs)

theorem spellsMembers_shield : ∀ {ms : List (String × Json)} {t : List Char}, SpellsMembers ms t →
    SpellsMembers ms (shield t)
  | _, _, .last hk hws' h hws => by
    rw [(key_shield hk).2, shield_of_not_mem (star_not_mem_gap hws'),
      shield_end hws _ (by decide) (by decide)]
    exact SpellsMembers.last (key_shield hk).1 hws' (spells_shield h) hws
  | _, _, .next hk hws' h hws hws'' hs => by
    rw [(key_shield hk).2, shield_of_not_mem (star_not_mem_gap hws'),
      shield_end hws _ (by decide) (by decide), shield_of_not_mem (star_not_mem_gap hws'')]
    exact SpellsMembers.next (key_shield hk).1 hws' (spells_shield h) hws hws''
      (spellsMembers_shield hs)

end

end EdmxGen.Header
