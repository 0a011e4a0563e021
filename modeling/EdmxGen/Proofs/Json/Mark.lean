import EdmxGen.Proofs.Json.Spelling
import EdmxGen.Proofs.Text.Cut

/-!
# Marks in texts of values

A mark is a hash with capital letters behind it. In a text of a value it can stand inside a string
only, and then the string holds it (`exists_of_isInfix`); in the indented form every mark that a string
holds is seen (`infix_pretty`).
-/

namespace EdmxGen.Json

open Text

/-- A hash with hashes and capital letters behind it. -/
def Mark (w : List Char) : Prop :=
  w.head? = some '#' ∧ ∀ c ∈ w, (c == '#' || c.isUpper) = true

variable {w : List Char}

theorem Mark.not_mem (hw : Mark w) {c : Char} (hc : (c == '#' || c.isUpper) = false) : c ∉ w := by
  intro h
  rw [hw.2 c h] at hc
  simp at hc

theorem Mark.eq_cons (hw : Mark w) : ∃ cs, w = '#' :: cs := by
  obtain ⟨hw, -⟩ := hw
  cases w with
  | nil => simp at hw
  | cons c cs => exact ⟨cs, by simpa using hw⟩

/-- A mark does not begin in a text without a hash. -/
theorem Mark.infix_append (hw : Mark w) {a b : List Char} (ha : '#' ∉ a) (h : w <:+: a ++ b) :
    w <:+: b := by
  obtain ⟨cs, rfl⟩ := hw.eq_cons
  exact infix_of_append_left ha h

theorem Mark.absent (hw : Mark w) {a : List Char} (ha : '#' ∉ a) : ¬ w <:+: a := by
  obtain ⟨cs, rfl⟩ := hw.eq_cons
  exact fun h => ha (h.subset List.mem_cons_self)

theorem not_mem_gap {ws : List Char} (h : Gap ws) {c : Char} (hc : isSpace c = false) : c ∉ ws := by
  intro hmem
  rw [h c hmem] at hc
  simp at hc

theorem Mark.not_mem_of_isSpace (hw : Mark w) {c : Char} (hc : isSpace c = true) : c ∉ w := by
  apply hw.not_mem
  simp only [isSpace, Bool.or_eq_true, beq_iff_eq] at hc
  rcases hc with ((rfl | rfl) | rfl) | rfl <;> decide

/-- A mark does not reach into the blanks behind a text. -/
theorem Mark.infix_gap (hw : Mark w) {t ws : List Char} (hws : Gap ws) (h : w <:+: t ++ ws) :
    w <:+: t := by
  cases ws with
  | nil => rwa [List.append_nil] at h
  | cons c cs =>
    have hc : c ∉ w := hw.not_mem_of_isSpace (hws c List.mem_cons_self)
    rcases (infix_append_cons_iff hc).1 h with h | h
    · exact h
    · have hcs : Gap cs := fun d hd => hws d (List.mem_cons_of_mem _ hd)
      exact absurd h (hw.absent (not_mem_gap hcs rfl))

/-- A mark in front of a text's end or behind it. -/
theorem Mark.infix_end (hw : Mark w) {t ws x : List Char} {c : Char} (hws : Gap ws)
    (hc : (c == '#' || c.isUpper) = false) (h : w <:+: t ++ (ws ++ c :: x)) :
    w <:+: t ∨ w <:+: x := by
  rw [← List.append_assoc] at h
  exact ((infix_append_cons_iff (hw.not_mem hc)).1 h).imp (hw.infix_gap hws) id

/-! ## Marks are in strings -/

theorem prefix_of_literal {cs t : List Char} (h : Literal cs t) {w : List Char}
    (hquote : '"' ∉ w) (hback : '\\' ∉ w) (hw : w <+: t) : w <+: cs := by
  induction h generalizing w with
  | close =>
    cases w with
    | nil => exact List.nil_prefix
    | cons c cs =>
      rw [List.cons_prefix_cons] at hw
      exact absurd (hw.1 ▸ List.mem_cons_self) hquote
  | @letter c cs p t hp _ ih =>
    cases w with
    | nil => exact List.nil_prefix
    | cons d ds =>
      rw [List.mem_cons, not_or] at hquote hback
      cases hp with
      | raw _ _ _ =>
        rw [List.singleton_append, List.cons_prefix_cons] at hw
        rw [List.cons_prefix_cons]
        exact ⟨hw.1, ih hquote.2 hback.2 hw.2⟩
      | short _ =>
        rw [List.cons_append, List.cons_prefix_cons] at hw
        exact absurd hw.1.symm hback.1
      | unicode _ _ _ =>
        rw [List.cons_append, List.cons_prefix_cons] at hw
        exact absurd hw.1.symm hback.1

theorem infix_of_literal (hw : Mark w) {cs t : List Char} (h : Literal cs t) (ht : w <:+: t) :
    w <:+: cs := by
  induction h with
  | close => exact absurd ht (hw.absent (by simp))
  | @letter c cs p t hp hl ih =>
    rcases hp.eq_or_not_mem (by decide : inEscape '#' = false) with rfl | hhash
    · rcases List.infix_cons_iff.1 ht with ht | ht
      · exact (prefix_of_literal (Literal.letter hp hl) (hw.not_mem rfl) (hw.not_mem rfl)
          ht).isInfix
      · exact (ih ht).trans (List.suffix_cons c cs).isInfix
    · exact (ih (hw.infix_append hhash ht)).trans (List.suffix_cons c cs).isInfix

/-- A mark in a key and what follows it is in the key's string or behind the colon. -/
theorem infix_of_key (hw : Mark w) {k : String} {h x : List Char} (hk : Key k h)
    (ht : w <:+: h ++ x) : w <:+: k.toList ∨ w <:+: x := by
  obtain ⟨l, ws, hl, hws, rfl⟩ := hk
  have ht : w <:+: ['"'] ++ (l ++ (ws ++ ':' :: x)) := by simpa using ht
  exact (hw.infix_end hws rfl (hw.infix_append (by simp) ht)).imp (infix_of_literal hw hl) id

section

variable (hw : Mark w)

include hw

mutual

/-- A mark in a text of a value is in one of its strings. -/
theorem exists_of_isInfix : ∀ {v : Json} {t : List Char}, Spells v t → w <:+: t →
    ∃ s ∈ texts v, w <:+: s.toList
  | _, _, .null, h | _, _, .yes, h | _, _, .no, h => absurd h (hw.absent (by decide))
  | _, _, .num, h => by
    refine absurd h (hw.absent fun hmem => ?_)
    exact absurd (isDigit_of_mem_decimal hmem) (by decide)
  | _, _, @Spells.str s t hl, h => by
    have h : w <:+: ['"'] ++ t := h
    exact ⟨s, List.mem_singleton.2 rfl, infix_of_literal hw hl (hw.infix_append (by simp) h)⟩
  | _, _, @Spells.noItems ws hws, h => by
    have h : w <:+: ['['] ++ (ws ++ [']']) := h
    have h := hw.infix_append (not_mem_gap hws rfl) (hw.infix_append (by simp) h)
    exact absurd h (hw.absent (by simp))
  | _, _, @Spells.arr v vs ws t hws hs, h => by
    have h : w <:+: ['['] ++ (ws ++ t) := h
    have h := hw.infix_append (not_mem_gap hws rfl) (hw.infix_append (by simp) h)
    exact exists_of_infix_items hs h
  | _, _, @Spells.noMembers ws hws, h => by
    have h : w <:+: ['\x7b'] ++ (ws ++ ['\x7d']) := h
    have h := hw.infix_append (not_mem_gap hws rfl) (hw.infix_append (by simp) h)
    exact absurd h (hw.absent (by simp))
  | _, _, @Spells.obj m ms ws t hws hs, h => by
    have h : w <:+: ['\x7b'] ++ (ws ++ t) := h
    have h := hw.infix_append (not_mem_gap hws rfl) (hw.infix_append (by simp) h)
    exact exists_of_infix_members hs h

theorem exists_of_infix_items : ∀ {vs : List Json} {t : List Char}, SpellsItems vs t → w <:+: t →
    ∃ s ∈ textsOfItems vs, w <:+: s.toList
  | _, _, .last hv hws, h => by
    rcases hw.infix_end hws rfl h with h | h
    · obtain ⟨s, hs, h⟩ := exists_of_isInfix hv h
      exact ⟨s, List.mem_append_left _ hs, h⟩
    · exact absurd h (hw.absent (by simp))
  | _, _, .next hv hws hws' hs, h => by
    rcases hw.infix_end hws rfl h with h | h
    · obtain ⟨s, hs, h⟩ := exists_of_isInfix hv h
      exact ⟨s, List.mem_append_left _ hs, h⟩
    · obtain ⟨s, hs, h⟩ := exists_of_infix_items hs (hw.infix_append (not_mem_gap hws' rfl) h)
      exact ⟨s, List.mem_append_right _ hs, h⟩

theorem exists_of_infix_members : ∀ {ms : List (String × Json)} {t : List Char},
    SpellsMembers ms t → w <:+: t → ∃ s ∈ textsOfMembers ms, w <:+: s.toList
  | _, _, @SpellsMembers.last k v h ws' t ws hk hws' hv hws, hin => by
    rcases infix_of_key hw hk hin with h | h
    · exact ⟨k, List.mem_cons_self, h⟩
    · rcases hw.infix_end hws rfl (hw.infix_append (not_mem_gap hws' rfl) h) with h | h
      · obtain ⟨s, hs, h⟩ := exists_of_isInfix hv h
        exact ⟨s, List.mem_append_left _ (List.mem_cons_of_mem _ hs), h⟩
      · exact absurd h (hw.absent (by simp))
  | _, _, @SpellsMembers.next k v ms h ws' t ws ws'' r hk hws' hv hws hws'' hs, hin => by
    rcases infix_of_key hw hk hin with h | h
    · exact ⟨k, List.mem_cons_self, h⟩
    · rcases hw.infix_end hws rfl (hw.infix_append (not_mem_gap hws' rfl) h) with h | h
      · obtain ⟨s, hs, h⟩ := exists_of_isInfix hv h
        exact ⟨s, List.mem_append_left _ (List.mem_cons_of_mem _ hs), h⟩
      · obtain ⟨s, hs, h⟩ := exists_of_infix_members hs (hw.infix_append (not_mem_gap hws'' rfl) h)
        exact ⟨s, List.mem_append_right _ hs, h⟩

end

end

/-! ## Marks of strings are seen -/

theorem escape_of_mark {c : Char} (h : (c == '#' || c.isUpper) = true) : escape c = [c] := by
  have hlow : ¬ c.toNat < 0x20 := by
    rw [Bool.or_eq_true, beq_iff_eq] at h
    rcases h with rfl | h
    · decide
    · have : (65 : Nat) ≤ c.toNat := (of_decide_eq_true h).1
      omega
  unfold escape
  split <;> first | exact absurd h (by decide) | exact if_neg hlow

theorem infix_writeText (hw : Mark w) {s : String} (h : w <:+: s.toList) : w <:+: writeText s := by
  obtain ⟨a, b, hab⟩ := h
  have hflat : w.flatMap escape = w := by
    rw [List.flatMap_congr fun c hc => escape_of_mark (hw.2 c hc)]
    simp
  refine ⟨'"' :: a.flatMap escape, b.flatMap escape ++ ['"'], ?_⟩
  rw [writeText, ← hab, List.flatMap_append, List.flatMap_append, hflat]
  simp

mutual

/-- Every string of a value is seen in its indented form. -/
theorem writeText_isInfix (indent : List Char) : ∀ (v : Json) (depth : Nat) {s : String},
    s ∈ texts v → writeText s <:+: prettyAt indent depth v
  | .null, _, _, h | .bool _, _, _, h | .num _, _, _, h | .arr [], _, _, h | .obj [], _, _, h => by
    simp [texts, textsOfItems, textsOfMembers] at h
  | .str s, _, _, h => by
    obtain rfl := List.mem_singleton.1 h
    exact List.infix_refl _
  | .arr (v :: vs), depth, s, h => by
    rw [prettyAt]
    rcases List.mem_append.1 h with h | h
    · exact (writeText_isInfix indent v (depth + 1) h).trans ⟨_, _, rfl⟩
    · exact (writeText_infix_items indent vs depth h).trans (List.suffix_append _ _).isInfix
  | .obj ((k, v) :: ms), depth, s, h => by
    rw [prettyAt]
    rcases List.mem_append.1 h with h | h
    · rcases List.mem_cons.1 h with rfl | h
      · exact ⟨'\x7b' :: newLine indent (depth + 1),
          [':', ' '] ++ prettyAt indent (depth + 1) v ++ prettyMembers indent depth ms, by simp⟩
      · exact (writeText_isInfix indent v (depth + 1) h).trans ⟨_, _, rfl⟩
    · exact (writeText_infix_members indent ms depth h).trans (List.suffix_append _ _).isInfix

theorem writeText_infix_items (indent : List Char) : ∀ (vs : List Json) (depth : Nat) {s : String},
    s ∈ textsOfItems vs → writeText s <:+: prettyItems indent depth vs
  | [], _, _, h => by simp [textsOfItems] at h
  | v :: vs, depth, s, h => by
    rw [prettyItems]
    rcases List.mem_append.1 h with h | h
    · exact (writeText_isInfix indent v (depth + 1) h).trans ⟨_, _, rfl⟩
    · exact (writeText_infix_items indent vs depth h).trans (List.suffix_append _ _).isInfix

theorem writeText_infix_members (indent : List Char) : ∀ (ms : List (String × Json)) (depth : Nat)
    {s : String}, s ∈ textsOfMembers ms → writeText s <:+: prettyMembers indent depth ms
  | [], _, _, h => by simp [textsOfMembers] at h
  | (k, v) :: ms, depth, s, h => by
    rw [prettyMembers]
    rcases List.mem_append.1 h with h | h
    · rcases List.mem_cons.1 h with rfl | h
      · exact ⟨',' :: newLine indent (depth + 1),
          [':', ' '] ++ prettyAt indent (depth + 1) v ++ prettyMembers indent depth ms, by simp⟩
      · exact (writeText_isInfix indent v (depth + 1) h).trans ⟨_, _, rfl⟩
    · exact (writeText_infix_members indent ms depth h).trans (List.suffix_append _ _).isInfix

end

/-- A mark in one of the strings of a value is seen in its indented form. -/
theorem infix_pretty (hw : Mark w) {v : Json} {s : String} (indent : String) (hs : s ∈ texts v)
    (h : w <:+: s.toList) : w <:+: v.pretty indent :=
  (infix_writeText hw h).trans (writeText_isInfix indent.toList v 0 hs)

/-! ## Values that hold a mark -/

/-- A string of the value holds the word. -/
def Marked (w : List Char) (v : Json) : Prop := ∃ s ∈ texts v, w <:+: s.toList

def MarkedMembers (w : List Char) (ms : List (String × Json)) : Prop :=
  ∃ s ∈ textsOfMembers ms, w <:+: s.toList

@[simp] theorem marked_str {s : String} : Marked w (.str s) ↔ w <:+: s.toList := by
  simp [Marked, texts]

@[simp] theorem marked_obj {ms : List (String × Json)} :
    Marked w (.obj ms) ↔ MarkedMembers w ms := Iff.rfl

@[simp] theorem not_marked_num {n : Number} : ¬ Marked w (.num n) := by simp [Marked, texts]

@[simp] theorem not_marked_bool {b : Bool} : ¬ Marked w (.bool b) := by simp [Marked, texts]

@[simp] theorem not_markedMembers_nil : ¬ MarkedMembers w [] := by
  simp [MarkedMembers, textsOfMembers]

@[simp] theorem markedMembers_cons {m : String × Json} {ms : List (String × Json)} :
    MarkedMembers w (m :: ms) ↔ w <:+: m.1.toList ∨ Marked w m.2 ∨ MarkedMembers w ms := by
  simp [MarkedMembers, Marked, textsOfMembers, or_and_right, exists_or]

@[simp] theorem markedMembers_append {ms ns : List (String × Json)} :
    MarkedMembers w (ms ++ ns) ↔ MarkedMembers w ms ∨ MarkedMembers w ns := by
  simp [MarkedMembers, textsOfMembers_append, or_and_right, exists_or]

theorem markedMembers_memberOf {α : Type} {k : String} {f : α → Json} {o : Option α}
    (hk : ¬ w <:+: k.toList) :
    MarkedMembers w (memberOf k f o) ↔ ∃ a ∈ o.toList, Marked w (f a) := by
  cases o <;> simp [memberOf, hk]

theorem markedMembers_map {α : Type} {f : α → String × Json} {as : List α} :
    MarkedMembers w (as.map f) ↔ ∃ a ∈ as, w <:+: (f a).1.toList ∨ Marked w (f a).2 := by
  induction as with
  | nil => simp
  | cons a as ih => simp [ih, or_assoc]

end EdmxGen.Json
