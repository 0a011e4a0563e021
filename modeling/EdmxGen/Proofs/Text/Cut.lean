import EdmxGen.Text.Basic
import Mathlib.Data.List.Infix
import Mathlib.Data.List.TakeWhile

/-!
# Where a text is cut

`cut?` divides a text at the first place where the needle stands: `cut?_eq_none_iff` says when it
finds none, `cut?_append` and `cut?_append_last` where it cuts, and `length_le_of_cut?` that no
needle begins before. A needle that lacks a character does not reach across it
(`infix_append_cons_iff`), and one that begins with a character stands nowhere in a text without it.
A text begins with a longest run of characters of a kind (`exists_run`).
-/

namespace EdmxGen.Text

variable {needle p q x : List Char} {y : Char}

/-! ## Known beginnings -/

theorem stripPrefix?_eq_some_iff {lead cs rest : List Char} :
    stripPrefix? lead cs = some rest ↔ cs = lead ++ rest := by
  constructor
  · exact eq_append_of_stripPrefix?
  · intro h
    rw [h]
    exact stripPrefix?_append lead rest

theorem stripPrefix?_eq_none_iff {lead cs : List Char} :
    stripPrefix? lead cs = none ↔ ¬ lead <+: cs := by
  rw [Option.eq_none_iff_forall_ne_some]
  constructor
  · rintro h ⟨rest, hrest⟩
    exact h rest (stripPrefix?_eq_some_iff.2 hrest.symm)
  · intro h rest hrest
    exact h ⟨rest, (stripPrefix?_eq_some_iff.1 hrest).symm⟩

theorem startsWith_iff {lead cs : List Char} : startsWith lead cs = true ↔ lead <+: cs := by
  unfold startsWith
  cases h : stripPrefix? lead cs with
  | none => simpa using stripPrefix?_eq_none_iff.1 h
  | some rest => simpa using ⟨rest, (stripPrefix?_eq_some_iff.1 h).symm⟩

/-! ## Known endings -/

theorem stripSuffix?_eq_some_iff {tail cs rest : List Char} :
    stripSuffix? tail cs = some rest ↔ cs = rest ++ tail := by
  unfold stripSuffix?
  rw [Option.map_eq_some_iff]
  constructor
  · rintro ⟨back, hback, rfl⟩
    rw [stripPrefix?_eq_some_iff] at hback
    simpa using congrArg List.reverse hback
  · rintro rfl
    exact ⟨rest.reverse, stripPrefix?_eq_some_iff.2 List.reverse_append, List.reverse_reverse rest⟩

theorem stripSuffix?_eq_none_iff {tail cs : List Char} :
    stripSuffix? tail cs = none ↔ ¬ tail <:+ cs := by
  unfold stripSuffix?
  rw [Option.map_eq_none_iff, stripPrefix?_eq_none_iff, List.reverse_prefix]

/-! ## Needles in texts -/

theorem prefix_of_prefix_append_cons (hy : y ∉ needle) (h : needle <+: p ++ y :: x) :
    needle <+: p := by
  induction needle generalizing p with
  | nil => exact List.nil_prefix
  | cons n ns ih =>
    rw [List.mem_cons, not_or] at hy
    cases p with
    | nil =>
      rw [List.nil_append, List.cons_prefix_cons] at h
      exact absurd h.1.symm hy.1
    | cons c cs =>
      rw [List.cons_append, List.cons_prefix_cons] at h
      rw [List.cons_prefix_cons]
      exact ⟨h.1, ih hy.2 h.2⟩

/-- A needle that lacks a character lies on one side of it. -/
theorem infix_append_cons_iff (hy : y ∉ needle) :
    needle <:+: p ++ y :: x ↔ needle <:+: p ∨ needle <:+: x := by
  constructor
  · intro h
    induction p with
    | nil =>
      rcases List.infix_cons_iff.1 h with h | h
      · exact Or.inl (prefix_of_prefix_append_cons (p := []) hy h).isInfix
      · exact Or.inr h
    | cons c cs ih =>
      rcases List.infix_cons_iff.1 h with h | h
      · exact Or.inl (prefix_of_prefix_append_cons hy h).isInfix
      · exact (ih h).imp_left List.infix_cons
  · rintro (h | h)
    · exact h.trans (List.prefix_append p _).isInfix
    · exact h.trans ((List.suffix_cons y x).trans (List.suffix_append p _)).isInfix

/-- Where the first character of a needle does not stand, the needle does not begin. -/
theorem infix_of_append_left {c : Char} {cs w : List Char} (hw : c ∉ w)
    (h : c :: cs <:+: w ++ x) : c :: cs <:+: x := by
  induction w with
  | nil => exact h
  | cons d ds ih =>
    rw [List.mem_cons, not_or] at hw
    rcases List.infix_cons_iff.1 h with h | h
    · obtain ⟨t, ht⟩ := h
      exact absurd (List.cons.inj ht).1 hw.1
    · exact ih hw.2 h

/-! ## The first place -/

theorem cut?_eq_none_iff : cut? needle p = none ↔ ¬ needle <:+: p := by
  induction p with
  | nil =>
    rw [cut?, Option.map_eq_none_iff, stripPrefix?_eq_none_iff]
    simp
  | cons c cs ih =>
    rw [cut?, List.infix_cons_iff, not_or, ← stripPrefix?_eq_none_iff]
    cases stripPrefix? needle (c :: cs) with
    | none => simpa using ih
    | some rest => simp

/-- A cut is made where the needle stands. -/
theorem eq_append_of_cut? {cs a b : List Char} (h : cut? needle cs = some (a, b)) :
    cs = a ++ needle ++ b := by
  induction cs generalizing a with
  | nil =>
    rw [cut?, Option.map_eq_some_iff] at h
    obtain ⟨rest, hrest, hab⟩ := h
    obtain ⟨rfl, rfl⟩ := Prod.mk.inj hab
    simpa using stripPrefix?_eq_some_iff.1 hrest
  | cons c cs ih =>
    rw [cut?] at h
    cases hs : stripPrefix? needle (c :: cs) with
    | some rest =>
      rw [hs] at h
      obtain ⟨rfl, rfl⟩ := Prod.mk.inj (Option.some.inj h)
      simpa using stripPrefix?_eq_some_iff.1 hs
    | none =>
      rw [hs, Option.map_eq_some_iff] at h
      obtain ⟨⟨a', b'⟩, hcut, hab⟩ := h
      obtain ⟨rfl, rfl⟩ := Prod.mk.inj hab
      rw [ih hcut]
      rfl

/-- No needle begins before the cut. -/
theorem length_le_of_cut? {a b : List Char} (h : cut? needle p = some (a, b))
    (hp : p = q ++ needle ++ x) : a.length ≤ q.length := by
  induction p generalizing a q with
  | nil =>
    have hempty := congrArg List.length (eq_append_of_cut? h)
    simp only [List.length_append, List.length_nil] at hempty
    omega
  | cons c cs ih =>
    rw [cut?] at h
    cases hs : stripPrefix? needle (c :: cs) with
    | some rest =>
      rw [hs] at h
      obtain ⟨rfl, rfl⟩ := Prod.mk.inj (Option.some.inj h)
      exact Nat.zero_le _
    | none =>
      rw [hs] at h
      obtain ⟨⟨a', b'⟩, hcut, hab⟩ := Option.map_eq_some_iff.1 h
      obtain ⟨rfl, rfl⟩ := Prod.mk.inj hab
      cases q with
      | nil => exact absurd ⟨x, hp.symm⟩ (stripPrefix?_eq_none_iff.1 hs)
      | cons d q => exact Nat.succ_le_succ (ih hcut (List.cons.inj hp).2)

/-- A needle whose first character does not come again is cut at, unless it stands before. -/
theorem cut?_append {c : Char} {cs : List Char} (hc : c ∉ cs) (hp : ¬ c :: cs <:+: p) :
    cut? (c :: cs) (p ++ c :: cs ++ q) = some (p, q) := by
  induction p with
  | nil =>
    have h := stripPrefix?_append (c :: cs) q
    rw [List.cons_append] at h
    rw [List.nil_append, List.cons_append, cut?, h]
  | cons d ds ih =>
    rw [List.infix_cons_iff, not_or] at hp
    have hs : stripPrefix? (c :: cs) (d :: (ds ++ c :: cs ++ q)) = none := by
      rw [stripPrefix?_eq_none_iff, List.cons_prefix_cons, List.append_assoc, List.cons_append]
      rintro ⟨rfl, ht⟩
      exact hp.1 (List.cons_prefix_cons.2 ⟨rfl, prefix_of_prefix_append_cons hc ht⟩)
    rw [List.cons_append, List.cons_append, cut?, hs]
    simp only [ih hp.2, Option.map_some]

/-- A needle that ends with a character of its own reaches from a text into a needle behind it only
if it stands in the text. -/
theorem infix_of_prefix_append {m a x : List Char} {y : Char} (hy : y ∉ m) (ha : a ≠ [])
    (h : m ++ [y] <+: a ++ (m ++ [y]) ++ x) : m ++ [y] <:+: a := by
  have hlonger : (m ++ [y]).length ≤ (a ++ m).length := by
    have := List.length_pos_iff.2 ha
    simp only [List.length_append, List.length_singleton]
    omega
  have hbefore : m ++ [y] <+: a ++ m := by
    refine List.prefix_of_prefix_length_le h ?_ hlonger
    rw [List.append_assoc, List.append_assoc, ← List.append_assoc]
    exact List.prefix_append _ _
  by_cases hlength : (m ++ [y]).length ≤ a.length
  · exact (List.prefix_of_prefix_length_le hbefore (List.prefix_append a m) hlength).isInfix
  · obtain ⟨s, hs⟩ := List.prefix_of_prefix_length_le (List.prefix_append a m) hbefore
      (Nat.le_of_not_le hlength)
    rw [← hs, List.prefix_append_right_inj] at hbefore
    have hlast : y ∈ s.getLast? := by
      have hsome : s ≠ [] := by
        rintro rfl
        rw [← hs, List.append_nil] at hlength
        exact hlength (le_refl _)
      have heq := congrArg List.getLast? hs
      rw [List.getLast?_append_of_ne_nil _ hsome, List.getLast?_concat] at heq
      exact heq
    exact absurd (hbefore.subset (List.mem_of_getLast? hlast)) hy

/-- A needle that ends with a character of its own is cut at, unless it stands before. -/
theorem cut?_append_last {m p q : List Char} {y : Char} (hy : y ∉ m) (hp : ¬ m ++ [y] <:+: p) :
    cut? (m ++ [y]) (p ++ (m ++ [y]) ++ q) = some (p, q) := by
  induction p with
  | nil =>
    have hstart := stripPrefix?_append (m ++ [y]) q
    rw [List.nil_append]
    cases hneedle : m ++ [y] with
    | nil => simp at hneedle
    | cons c cs => rw [List.cons_append, cut?, ← List.cons_append, ← hneedle, hstart]
  | cons d ds ih =>
    rw [List.infix_cons_iff, not_or] at hp
    have hs : stripPrefix? (m ++ [y]) (d :: (ds ++ (m ++ [y]) ++ q)) = none := by
      rw [stripPrefix?_eq_none_iff]
      intro hpre
      rcases List.infix_cons_iff.1
        (infix_of_prefix_append (a := d :: ds) hy (List.cons_ne_nil d ds) hpre) with h | h
      · exact hp.1 h
      · exact hp.2 h
    rw [List.cons_append, List.cons_append, cut?, hs]
    simp only [ih hp.2, Option.map_some]

/-- What is cut at a needle is cut there too when more follows. -/
theorem cut?_append_right {a b : List Char} (h : cut? needle p = some (a, b)) :
    cut? needle (p ++ q) = some (a, b ++ q) := by
  induction p generalizing a with
  | nil =>
    obtain ⟨rfl, rfl, rfl⟩ : a = [] ∧ needle = [] ∧ b = [] := by
      have := eq_append_of_cut? h
      simpa [and_assoc] using this
    cases q <;> rfl
  | cons c cs ih =>
    rw [cut?] at h
    rw [List.cons_append, cut?]
    cases hs : stripPrefix? needle (c :: cs) with
    | some rest =>
      obtain ⟨rfl, rfl⟩ : a = [] ∧ rest = b := by simpa [hs, eq_comm] using h
      have hq : stripPrefix? needle (c :: (cs ++ q)) = some (rest ++ q) := by
        rw [stripPrefix?_eq_some_iff, ← List.cons_append, stripPrefix?_eq_some_iff.1 hs,
          List.append_assoc]
      rw [hq]
    | none =>
      rw [hs] at h
      obtain ⟨⟨a', b'⟩, hcut, hab⟩ := Option.map_eq_some_iff.1 h
      obtain ⟨rfl, rfl⟩ := Prod.mk.inj hab
      have hq : stripPrefix? needle (c :: (cs ++ q)) = none := by
        rw [stripPrefix?_eq_none_iff] at hs ⊢
        -- a needle that begins here would end where one that was found later begins
        intro hpre
        have hlen : needle.length ≤ (c :: cs).length := by
          have := congrArg List.length (eq_append_of_cut? hcut)
          simp only [List.length_append] at this
          rw [List.length_cons]
          omega
        exact hs (List.prefix_of_prefix_length_le hpre (List.prefix_append (c :: cs) q) hlen)
      rw [hq, ih hcut]
      rfl

/-- A needle that stands in a text is found there, whatever follows. -/
theorem cut?_of_isInfix (h : needle <:+: p) :
    ∃ a b, cut? needle (p ++ q) = some (a, b ++ q) ∧ p = a ++ needle ++ b := by
  cases hcut : cut? needle p with
  | none => exact absurd h (cut?_eq_none_iff.1 hcut)
  | some parts =>
    exact ⟨parts.1, parts.2, cut?_append_right hcut, eq_append_of_cut? hcut⟩

/-! ## The first place of a character -/

theorem cut?_char_eq_none_iff : cut? [y] p = none ↔ y ∉ p := by
  rw [cut?_eq_none_iff, List.singleton_infix_iff]

theorem cut?_char_eq_some_iff : cut? [y] p = some (q, x) ↔ p = q ++ y :: x ∧ y ∉ q := by
  constructor
  · intro h
    have hp := eq_append_of_cut? h
    rw [List.append_assoc, List.singleton_append] at hp
    refine ⟨hp, fun hy => ?_⟩
    obtain ⟨q₁, q₂, rfl⟩ := List.append_of_mem hy
    have hlength := length_le_of_cut? (q := q₁) (x := q₂ ++ y :: x) h (by
      rw [hp]
      simp only [List.append_assoc, List.cons_append, List.nil_append])
    simp only [List.length_append, List.length_cons] at hlength
    omega
  · rintro ⟨rfl, hy⟩
    have hnil : y ∉ ([] : List Char) := List.not_mem_nil
    have hcut := cut?_append (p := q) (q := x) hnil (by rwa [List.singleton_infix_iff])
    rwa [List.append_assoc, List.singleton_append] at hcut

theorem not_mem_takeWhile_ne (xs : List Char) : y ∉ xs.takeWhile (· != y) := by
  intro h
  have hy := List.mem_takeWhile_imp h
  simp at hy

theorem dropWhile_ne_eq_nil_iff {xs : List Char} : xs.dropWhile (· != y) = [] ↔ y ∉ xs := by
  rw [List.dropWhile_eq_nil_iff]
  exact ⟨fun h hy => by simpa using h y hy, fun h c hc => bne_iff_ne.2 fun heq => h (heq ▸ hc)⟩

/-- What is left of a text from a character on begins with it. -/
theorem eq_append_of_dropWhile_ne {xs rest : List Char} {d : Char}
    (h : xs.dropWhile (· != y) = d :: rest) :
    d = y ∧ xs = xs.takeWhile (· != y) ++ y :: rest := by
  have hd : d = y := by
    have hhead := List.head?_dropWhile_not (· != y) xs
    rw [h] at hhead
    simpa using hhead
  refine ⟨hd, ?_⟩
  rw [← hd, ← h, hd, List.takeWhile_append_dropWhile]

/-! ## Runs of characters -/

section

variable {r : Char → Bool} {run rest : List Char}

theorem takeWhile_run (hrun : ∀ c ∈ run, r c = true) (hrest : ∀ c ∈ rest.head?, r c = false) :
    (run ++ rest).takeWhile r = run := by
  rw [List.takeWhile_append_of_pos hrun]
  cases rest with
  | nil => simp
  | cons c cs => simp [hrest c rfl]

theorem dropWhile_run (hrun : ∀ c ∈ run, r c = true) (hrest : ∀ c ∈ rest.head?, r c = false) :
    (run ++ rest).dropWhile r = rest := by
  rw [List.dropWhile_append_of_pos hrun]
  cases rest with
  | nil => simp
  | cons c cs => simp [hrest c rfl]

/-- A text is a run of characters and a rest that does not continue it. -/
theorem exists_run (r : Char → Bool) (cs : List Char) :
    cs = cs.takeWhile r ++ cs.dropWhile r ∧ (∀ c ∈ cs.takeWhile r, r c = true) ∧
      ∀ c ∈ (cs.dropWhile r).head?, r c = false := by
  refine ⟨List.takeWhile_append_dropWhile.symm, fun c hc => List.mem_takeWhile_imp hc,
    fun c hc => ?_⟩
  have hhead := List.head?_dropWhile_not r cs
  rw [Option.mem_def.1 hc] at hhead
  exact hhead

end

/-! ## Pieces between separators -/

theorem splitAt_ne_nil {p : Char → Bool} (xs : List Char) : splitAt p xs ≠ [] := by
  cases xs with
  | nil => simp [splitAt]
  | cons x xs =>
    rw [splitAt]
    split
    · simp
    · split <;> simp

theorem splitAt_append {p : Char → Bool} {c : Char} (hc : p c = true) (xs ys : List Char) :
    splitAt p (xs ++ c :: ys) = splitAt p xs ++ splitAt p ys := by
  induction xs with
  | nil =>
    show splitAt p (c :: ys) = splitAt p [] ++ splitAt p ys
    have hcut : splitAt p (c :: ys) = [] :: splitAt p ys := by rw [splitAt, if_pos hc]
    rw [hcut]
    rfl
  | cons x xs ih =>
    rw [List.cons_append, splitAt, splitAt, ih]
    by_cases hx : p x
    · rw [if_pos hx, if_pos hx, List.cons_append]
    · rw [if_neg hx, if_neg hx]
      cases hs : splitAt p xs with
      | nil => exact absurd hs (splitAt_ne_nil xs)
      | cons piece pieces => rfl

theorem splitAt_of_forall {p : Char → Bool} {xs : List Char} (h : ∀ c ∈ xs, p c = false) :
    splitAt p xs = [xs] := by
  induction xs with
  | nil => rfl
  | cons x xs ih =>
    have hx : ¬ p x = true := by rw [h x List.mem_cons_self]; decide
    rw [splitAt, if_neg hx, ih fun c hc => h c (List.mem_cons_of_mem _ hc)]

/-- No separator stands in a piece. -/
theorem eq_false_of_mem_splitAt {p : Char → Bool} {xs piece : List Char}
    (h : piece ∈ splitAt p xs) {c : Char} (hc : c ∈ piece) : p c = false := by
  induction xs generalizing piece with
  | nil =>
    rw [splitAt, List.mem_singleton] at h
    rw [h] at hc
    simp at hc
  | cons x xs ih =>
    rw [splitAt] at h
    by_cases hx : p x
    · rw [if_pos hx] at h
      rcases List.mem_cons.1 h with rfl | h
      · simp at hc
      · exact ih h hc
    · rw [if_neg hx] at h
      cases hs : splitAt p xs with
      | nil => exact absurd hs (splitAt_ne_nil xs)
      | cons first pieces =>
        rw [hs] at h ih
        rcases List.mem_cons.1 h with rfl | h
        · rcases List.mem_cons.1 hc with rfl | hc
          · simpa using hx
          · exact ih List.mem_cons_self hc
        · exact ih (List.mem_cons_of_mem _ h) hc

end EdmxGen.Text
