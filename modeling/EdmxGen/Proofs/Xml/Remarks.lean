import EdmxGen.Proofs.Xml.Tags

/-!
# Comments and instructions are read as they are spelled

Both end at a mark. What is read up to a mark does not contain it (`of_readUntil`), and a text
without the mark is read up to it (`readUntil_mark`). So a comment or an instruction is read exactly
if it is spelled (`of_readComment`, `of_readInstruction`, `SpellsRemark.reads`), and outside the
outermost element they are read one after the other (`of_skipMisc`, `skipMisc_append`).
-/

namespace EdmxGen.Xml

open Text

variable {cs rest a b r mark : List Char}

/-! ## Up to a mark -/

theorem expect_iff {word : String} : expect word cs = .ok rest ↔ cs = word.toList ++ rest := by
  unfold expect
  rw [← stripPrefix?_eq_some_iff]
  cases stripPrefix? word.toList cs <;> simp

/-- What is read up to a mark does not contain it, and the mark or nothing follows. -/
theorem of_readUntil (hmark : mark ≠ []) (h : readUntil mark cs = .ok (a, b)) :
    cs = a ++ b ∧ (∀ c ∈ a, isAllowed c = true) ∧ ¬ mark <:+: a ∧ (b = [] ∨ mark <+: b) := by
  induction cs generalizing a with
  | nil =>
    obtain ⟨rfl, rfl⟩ := Prod.mk.inj (Except.ok.inj h)
    exact ⟨rfl, List.forall_mem_nil _, fun hin => hmark (List.infix_nil.1 hin), Or.inl rfl⟩
  | cons c cs ih =>
    unfold readUntil at h
    split at h
    · cases h
    · next hallowed =>
      split at h
      · next hstart =>
        obtain ⟨rfl, rfl⟩ := Prod.mk.inj (Except.ok.inj h)
        exact ⟨rfl, List.forall_mem_nil _, fun hin => hmark (List.infix_nil.1 hin),
          Or.inr (startsWith_iff.1 hstart)⟩
      · next hstart =>
        cases hread : readUntil mark cs with
        | error fault =>
          rw [hread] at h
          cases h
        | ok r =>
          rw [hread] at h
          obtain ⟨rfl, rfl⟩ := Prod.mk.inj (Except.ok.inj h)
          obtain ⟨hcs, hall, hnot, hend⟩ := ih hread
          refine ⟨by rw [hcs]; rfl, List.forall_mem_cons.2 ⟨by simpa using hallowed, hall⟩, ?_,
            hend⟩
          intro hin
          rcases List.infix_cons_iff.1 hin with hin | hin
          · refine hstart (startsWith_iff.2 (hin.trans ?_))
            rw [hcs]
            exact List.prefix_append (c :: r.1) r.2
          · exact hnot hin

/-- Reading ends where the text is cut, if all characters in front are allowed. -/
theorem readUntil_of_cut? {c : Char} {m : List Char} (hc : isAllowed c = true)
    (hcut : cut? (c :: m) cs = some (a, r)) (ha : ∀ d ∈ a, isAllowed d = true) :
    readUntil (c :: m) cs = .ok (a, c :: m ++ r) := by
  induction cs generalizing a with
  | nil =>
    rw [cut?] at hcut
    simp [stripPrefix?] at hcut
  | cons d ds ih =>
    rw [cut?] at hcut
    unfold readUntil
    cases hs : stripPrefix? (c :: m) (d :: ds) with
    | some rest =>
      rw [hs] at hcut
      obtain ⟨rfl, rfl⟩ := Prod.mk.inj (Option.some.inj hcut)
      have htext := stripPrefix?_eq_some_iff.1 hs
      obtain ⟨rfl, -⟩ := List.cons.inj htext
      rw [if_neg (by simp [hc]), if_pos (startsWith_iff.2 ⟨_, htext.symm⟩), htext]
    | none =>
      rw [hs] at hcut
      obtain ⟨parts, hparts, hpair⟩ := Option.map_eq_some_iff.1 hcut
      obtain ⟨rfl, rfl⟩ := Prod.mk.inj hpair
      obtain ⟨hd, ha⟩ := List.forall_mem_cons.1 ha
      have hstart : ¬ startsWith (c :: m) (d :: ds) = true := by
        rw [startsWith_iff]
        exact stripPrefix?_eq_none_iff.1 hs
      rw [if_neg (by simp [hd]), if_neg hstart, ih hparts ha]
      rfl

/-- A mark with a last character of its own is read up to, unless it stands before. -/
theorem readUntil_mark {c y : Char} {m : List Char} (hc : isAllowed c = true) (hy : y ∉ c :: m)
    (ha : ∀ d ∈ a, isAllowed d = true) (hnot : ¬ c :: m ++ [y] <:+: a) :
    readUntil (c :: m ++ [y]) (a ++ (c :: m ++ [y] ++ r)) = .ok (a, c :: m ++ [y] ++ r) := by
  have hcut := cut?_append_last (q := r) hy hnot
  rw [List.append_assoc] at hcut
  exact readUntil_of_cut? hc hcut ha

/-! ## Remarks -/

theorem of_readComment {n : Node} (h : readComment cs = .ok (n, rest)) :
    ∃ w, SpellsRemark n (['<', '!', '-', '-'] ++ w) ∧ cs = w ++ rest := by
  obtain ⟨⟨s, after⟩, hread, h⟩ := ok_of_bind h
  obtain ⟨more, hmark, h⟩ := ok_of_bind h
  obtain ⟨hcs, hallowed, -, -⟩ := of_readUntil (List.cons_ne_nil _ _) hread
  have hafter := expect_iff.1 hmark
  split at h
  · cases h
  · next hinvalid =>
    obtain ⟨rfl, rfl⟩ := Prod.mk.inj (Except.ok.inj h)
    rw [Bool.or_eq_true, not_or] at hinvalid
    obtain ⟨hdouble, hlast⟩ := hinvalid
    refine ⟨s ++ ['-', '-', '>'], .comment hallowed ?_ (by simpa using hlast), ?_⟩
    · rw [← cut?_eq_none_iff]
      simpa using hdouble
    · rw [hcs, hafter]
      simp

theorem readComment_append {s : List Char} (hs : ∀ c ∈ s, isAllowed c = true)
    (hdouble : ¬ ['-', '-'] <:+: s) (hlast : s.getLast? ≠ some '-') :
    readComment (s ++ (['-', '-', '>'] ++ rest)) = .ok (.comment (String.ofList s), rest) := by
  have hmark : ¬ ['-', '-', '>'] <:+: s := fun h =>
    hdouble (List.IsInfix.trans (List.IsPrefix.isInfix ⟨['>'], rfl⟩) h)
  have hread : readUntil ['-', '-', '>'] (s ++ (['-', '-', '>'] ++ rest)) =
      .ok (s, ['-', '-', '>'] ++ rest) :=
    readUntil_mark (m := ['-']) (by decide) (by decide) hs hmark
  have hexpect : expect "-->" (['-', '-', '>'] ++ rest) = .ok rest := expect_iff.2 (by simp)
  have hcut : cut? ['-', '-'] s = none := cut?_eq_none_iff.2 hdouble
  unfold readComment
  rw [hread]
  simp only [bind, Except.bind, hexpect, hcut]
  rw [if_neg (by simpa using hlast)]
  rfl

theorem of_readInstruction {n : Node} (h : readInstruction (['<', '?'] ++ cs) = .ok (n, rest)) :
    ∃ w, SpellsRemark n (['<', '?'] ++ w) ∧ cs = w ++ rest := by
  unfold readInstruction at h
  split at h
  · cases h
  · next hdeclaration =>
    split at h
    · cases h
    · next target after hname =>
      obtain ⟨⟨s, behind⟩, hread, h⟩ := ok_of_bind h
      obtain ⟨more, hmark, h⟩ := ok_of_bind h
      obtain ⟨rfl, rfl⟩ := Prod.mk.inj (Except.ok.inj h)
      obtain ⟨htarget, hcs, hends⟩ := readName_iff.1 hname
      obtain ⟨hafter, hallowed, hnot, -⟩ := of_readUntil (List.cons_ne_nil _ _) hread
      obtain ⟨g, hg, hgap, hsets⟩ := exists_gap after
      have hbehind := expect_iff.1 hmark
      have hstart : ∀ c ∈ (g ++ s).head?, isNameChar c = false := by
        intro c hc
        refine hends c ?_
        rw [hgap, hafter, ← List.append_assoc]
        exact List.mem_head?_append_of_mem_head? hc
      have hspace : ∀ c ∈ s.head?, isSpace c = false := by
        intro c hc
        refine hsets c ?_
        rw [hafter]
        exact List.mem_head?_append_of_mem_head? hc
      have hwhole : cs = target ++ (g ++ (s ++ ['?', '>'])) ++ more := by
        rw [show cs = target ++ after from hcs, hgap, hafter, hbehind]
        simp
      refine ⟨target ++ (g ++ (s ++ ['?', '>'])),
        .instruction htarget hg hallowed hspace hstart hnot ?_, hwhole⟩
      rintro rfl hblank
      obtain ⟨g, rfl⟩ := List.head?_eq_some_iff.1 hblank
      refine hdeclaration (startsWith_iff.2 ⟨g ++ (s ++ ['?', '>']) ++ more, ?_⟩)
      rw [hwhole]
      simp

theorem readInstruction_append {target g s : List Char} (htarget : IsName target) (hg : Gap g)
    (hs : ∀ c ∈ s, isAllowed c = true) (hspace : ∀ c ∈ s.head?, isSpace c = false)
    (hstart : ∀ c ∈ (g ++ s).head?, isNameChar c = false) (hmark : ¬ ['?', '>'] <:+: s)
    (hxml : target = ['x', 'm', 'l'] → g.head? ≠ some ' ') :
    readInstruction (['<', '?'] ++ (target ++ (g ++ (s ++ (['?', '>'] ++ rest))))) =
      .ok (.instruction (String.ofList target) (String.ofList s), rest) := by
  have hends : Ends (g ++ (s ++ (['?', '>'] ++ rest))) := by
    rw [← List.append_assoc]
    cases hgs : g ++ s with
    | nil => exact ends_cons (by decide)
    | cons c cs =>
      rw [hgs] at hstart
      exact ends_cons (hstart c rfl)
  have hsets : Sets (s ++ (['?', '>'] ++ rest)) := by
    cases s with
    | nil => exact sets_cons (by decide)
    | cons c s => exact sets_cons (hspace c rfl)
  -- A target that begins as a declaration would end at the same blank.
  have hdeclaration : ¬ startsWith "<?xml ".toList
      (['<', '?'] ++ (target ++ (g ++ (s ++ (['?', '>'] ++ rest))))) = true := by
    rw [startsWith_iff]
    rintro ⟨t, ht⟩
    have ht : ['x', 'm', 'l'] ++ ' ' :: t = target ++ (g ++ (s ++ (['?', '>'] ++ rest))) :=
      (List.cons.inj (List.cons.inj ht).2).2
    have hname : target = ['x', 'm', 'l'] := by
      rw [← takeWhile_run htarget.chars hends, ← ht, takeWhile_run]
      · exact List.all_eq_true.1 (by decide)
      · exact ends_cons (by decide)
    rw [hname, List.append_cancel_left_eq] at ht
    cases g with
    | nil =>
      have hblank : isSpace ' ' = false :=
        hsets ' ' (by rw [← List.nil_append (s ++ _), ← ht]; rfl)
      cases hblank
    | cons c g =>
      obtain ⟨rfl, -⟩ := List.cons.inj ht
      exact hxml hname rfl
  have hname : readName ((['<', '?'] ++ (target ++ (g ++ (s ++ (['?', '>'] ++ rest))))).drop 2) =
      some (target, g ++ (s ++ (['?', '>'] ++ rest))) := readName_iff.2 ⟨htarget, rfl, hends⟩
  have hread : readUntil ['?', '>'] (s ++ (['?', '>'] ++ rest)) = .ok (s, ['?', '>'] ++ rest) :=
    readUntil_mark (m := []) (by decide) (by decide) hs hmark
  have hexpect : expect "?>" (['?', '>'] ++ rest) = .ok rest := expect_iff.2 (by simp)
  unfold readInstruction
  rw [if_neg hdeclaration, hname]
  simp only [skipSpace_run hg hsets, hread, bind, Except.bind, hexpect]
  rfl

/-- A remark is read as it is spelled. -/
theorem SpellsRemark.reads {n : Node} {w : List Char} (h : SpellsRemark n w) :
    (∃ v, w = ['<', '!', '-', '-'] ++ v ∧ ∀ rest, readComment (v ++ rest) = .ok (n, rest)) ∨
      ∃ v, w = ['<', '?'] ++ v ∧ ∀ rest, readInstruction (w ++ rest) = .ok (n, rest) := by
  cases h with
  | @comment s hs hdouble hlast =>
    refine Or.inl ⟨_, rfl, fun rest => ?_⟩
    rw [List.append_assoc]
    exact readComment_append hs hdouble hlast
  | @instruction target g s htarget hg hs hspace hstart hmark hxml =>
    refine Or.inr ⟨_, rfl, fun rest => ?_⟩
    simp only [List.append_assoc]
    exact readInstruction_append htarget hg hs hspace hstart hmark hxml

theorem of_skipMisc {fuel : Nat} (h : skipMisc fuel cs = .ok rest) :
    ∃ ns w, SpellsRemarks ns w ∧ cs = w ++ rest := by
  induction fuel generalizing cs with
  | zero =>
    obtain rfl := Except.ok.inj h
    exact ⟨[], [], .nil gap_nil, rfl⟩
  | succ fuel ih =>
    obtain ⟨g, hg, hcs, -⟩ := exists_gap cs
    unfold skipMisc at h
    dsimp only at h
    split at h
    · next after hstrip =>
      obtain ⟨⟨n, more⟩, hread, h⟩ := ok_of_bind h
      obtain ⟨w, hw, hafter⟩ := of_readComment hread
      obtain ⟨ns, ws, hns, rfl⟩ := ih h
      refine ⟨n :: ns, _, .cons hg hw hns, ?_⟩
      rw [hcs, stripPrefix?_eq_some_iff.1 hstrip, hafter]
      simp
    · split at h
      · next hstart =>
        obtain ⟨⟨n, more⟩, hread, h⟩ := ok_of_bind h
        obtain ⟨after, hafter⟩ := startsWith_iff.1 hstart
        rw [← hafter] at hread
        obtain ⟨w, hw, hsplit⟩ := of_readInstruction hread
        obtain ⟨ns, ws, hns, rfl⟩ := ih h
        refine ⟨n :: ns, _, .cons hg hw hns, ?_⟩
        rw [hcs, ← hafter, hsplit]
        simp
      · obtain rfl := Except.ok.inj h
        exact ⟨[], g, .nil hg, hcs⟩

/-- Neither a blank nor a remark begins here. -/
structure Bare (cs : List Char) : Prop where
  sets : Sets cs
  comment : ¬ ['<', '!', '-', '-'] <+: cs
  instruction : ¬ ['<', '?'] <+: cs

theorem skipMisc_append {fuel : Nat} {ns : List Node} {w : List Char} (h : SpellsRemarks ns w)
    (hrest : Bare rest) (hfuel : ns.length < fuel) : skipMisc fuel (w ++ rest) = .ok rest := by
  induction h generalizing fuel with
  | @nil g hg =>
    obtain ⟨fuel, rfl⟩ : ∃ n, fuel = n + 1 := ⟨fuel - 1, by omega⟩
    have hcomment : stripPrefix? "<!--".toList rest = none :=
      stripPrefix?_eq_none_iff.2 hrest.comment
    have hinstruction : ¬ startsWith ['<', '?'] rest = true := by
      rw [startsWith_iff]
      exact hrest.instruction
    unfold skipMisc
    dsimp only
    rw [skipSpace_run hg hrest.sets, hcomment]
    exact if_neg hinstruction
  | @cons n ns g w ws hg hw hns ih =>
    rw [List.length_cons] at hfuel
    obtain ⟨fuel, rfl⟩ : ∃ n, fuel = n + 1 := ⟨fuel - 1, by omega⟩
    have hskip : skipSpace (g ++ (w ++ ws) ++ rest) = w ++ (ws ++ rest) := by
      rw [List.append_assoc, List.append_assoc]
      refine skipSpace_run hg ?_
      rcases hw.reads with ⟨v, rfl, -⟩ | ⟨v, rfl, -⟩ <;> exact sets_cons (by decide)
    unfold skipMisc
    dsimp only
    rw [hskip]
    rcases hw.reads with ⟨v, rfl, hread⟩ | ⟨v, rfl, hread⟩
    · have hstrip : stripPrefix? "<!--".toList (['<', '!', '-', '-'] ++ v ++ (ws ++ rest)) =
          some (v ++ (ws ++ rest)) :=
        stripPrefix?_eq_some_iff.2 (List.append_assoc _ _ _)
      rw [hstrip]
      simp only [hread, bind, Except.bind]
      exact ih (by omega)
    · have hstrip : stripPrefix? "<!--".toList (['<', '?'] ++ v ++ (ws ++ rest)) = none := by
        rw [stripPrefix?_eq_none_iff]
        rintro ⟨t, ht⟩
        exact absurd (List.cons.inj (List.cons.inj ht).2).1 (by decide)
      have hstart : startsWith ['<', '?'] (['<', '?'] ++ v ++ (ws ++ rest)) = true :=
        startsWith_iff.2 ⟨v ++ (ws ++ rest), by simp⟩
      rw [hstrip]
      dsimp only
      rw [if_pos hstart, hread]
      exact ih (by omega)

end EdmxGen.Xml
