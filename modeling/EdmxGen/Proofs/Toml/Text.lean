import EdmxGen.Proofs.Text.Cut
import EdmxGen.Toml.Printer

/-!
# Written TOML texts are read back

Whatever form a text is written in, reading it gives the text and what follows it
(`readText_writeText`). On several lines no three marks stand in a row before the closing ones: the
literal form is chosen only for such texts, and the escaped form escapes every third mark of a run.
-/

namespace EdmxGen.Toml

open Text

/-! ## Characters -/

theorem isTextChar_of_not_control {c : Char} (h : isControlChar c = false) (hbreak : c ≠ '\n') :
    isTextChar c = true := by
  unfold isControlChar at h
  unfold isTextChar
  by_cases htab : c = '\t'
  · simp [htab]
  · simp only [Bool.or_eq_false_iff, Bool.and_eq_false_iff, decide_eq_false_iff_not,
      bne_eq_false_iff_eq, beq_eq_false_iff_ne] at h
    obtain ⟨hlow, hdel⟩ := h
    have hge : 0x20 ≤ c.toNat := by
      rcases hlow with (hlow | hlow) | hlow
      · omega
      · exact absurd hlow htab
      · exact absurd hlow hbreak
    simp [hge, hdel]

/-- The four digits of an escaped control character. -/
theorem hexPaddedUpper_control : ∀ n : Fin 0x80, ∃ a b,
    hexPaddedUpper 4 n.val = ['0', '0', a, b] ∧ hexValue? a = some (n.val / 16) ∧
      hexValue? b = some (n.val % 16) := by
  intro n
  refine ⟨(Nat.digitChar (n.val / 16)).toUpper, (Nat.digitChar (n.val % 16)).toUpper, ?_⟩
  revert n
  decide +kernel

/-- A character escapes to itself, or to a backslash and what stands for the character. -/
inductive Escapes (c : Char) : List Char → Prop
  | raw (hquote : c ≠ '"') (hback : c ≠ '\\') (hbreak : c ≠ '\n') (hreturn : c ≠ '\r')
      (htext : isTextChar c = true) : Escapes c [c]
  | short {d : Char} (hd : unescape? d = some c) : Escapes c ['\\', d]
  | control {a b : Char} (ha : hexValue? a = some (c.toNat / 16))
      (hb : hexValue? b = some (c.toNat % 16)) : Escapes c ['\\', 'u', '0', '0', a, b]

theorem escapes_escapeChar (c : Char) : Escapes c (escapeChar c) := by
  unfold escapeChar
  split
  · next h => exact Escapes.short (by rw [h]; rfl)
  split
  · next h => exact Escapes.short (by rw [h]; rfl)
  split
  · next h => exact Escapes.short (by rw [h]; rfl)
  split
  · next h => exact Escapes.short (by rw [h]; rfl)
  split
  · next h => exact Escapes.short (by rw [h]; rfl)
  split
  · next h => exact Escapes.short (by rw [h]; rfl)
  split
  · next h => exact Escapes.short (by rw [h]; rfl)
  next hbreak _ hreturn hquote hback =>
  split
  · next hcontrol =>
    have hlt : c.toNat < 0x80 := by
      unfold isControlChar at hcontrol
      simp only [Bool.or_eq_true, Bool.and_eq_true, decide_eq_true_eq, beq_iff_eq] at hcontrol
      omega
    obtain ⟨a, b, hab, ha, hb⟩ := hexPaddedUpper_control ⟨c.toNat, hlt⟩
    rw [hab]
    exact Escapes.control ha hb
  · next hcontrol =>
    rw [Bool.not_eq_true] at hcontrol
    exact Escapes.raw hquote hback hbreak hreturn (isTextChar_of_not_control hcontrol hbreak)

theorem charOf?_toNat (c : Char) : charOf? c.toNat = some c := by
  have hvalid : c.toNat.isValidChar := c.valid
  unfold charOf?
  rw [if_pos hvalid, Char.ofNat_toNat]

theorem next_letter {c d : Char} (hd : unescape? d = some c) :
    Escape.next .letter d = some (.inr c) := by
  have hx : d ≠ 'x' := by rintro rfl; simp [unescape?] at hd
  have hu : d ≠ 'u' := by rintro rfl; simp [unescape?] at hd
  have hU : d ≠ 'U' := by rintro rfl; simp [unescape?] at hd
  rw [Escape.next, hd]
  · rfl
  · exact hx
  · exact hu
  · exact hU

theorem next_digits {c a b : Char} (ha : hexValue? a = some (c.toNat / 16))
    (hb : hexValue? b = some (c.toNat % 16)) :
    Escape.next (.digits 2 0) a = some (.inl (.digits 1 (c.toNat / 16))) ∧
      Escape.next (.digits 1 (c.toNat / 16)) b = some (.inr c) := by
  have hsum : c.toNat / 16 * 16 + c.toNat % 16 = c.toNat := by omega
  constructor
  · simp [Escape.next, ha]
  · simp [Escape.next, hb, hsum, charOf?_toNat]

/-! ## On one line -/

theorem readBasic_escapes {c : Char} {cs : List Char} (h : Escapes c cs) (rest : List Char) :
    readBasic none (cs ++ rest) = Found.cons c (readBasic none rest) := by
  cases h with
  | raw hquote hback _ _ htext => simp [readBasic, hquote, hback, htext]
  | short hd => simp [readBasic, next_letter hd]
  | control ha hb =>
    obtain ⟨hfirst, hsecond⟩ := next_digits ha hb
    show readBasic (some (.digits 2 0)) (_ :: _ :: rest) = _
    rw [readBasic, hfirst]
    show readBasic (some (.digits 1 _)) (_ :: rest) = _
    rw [readBasic, hsecond]

theorem readBasic_flatMap (cs rest : List Char) :
    readBasic none (cs.flatMap escapeChar ++ '"' :: rest) = some (cs, rest) := by
  induction cs with
  | nil => simp [readBasic]
  | cons c cs ih =>
    rw [List.flatMap_cons, List.append_assoc, readBasic_escapes (escapes_escapeChar c), ih]
    rfl

theorem readLiteral_append {cs : List Char} (h : ∀ c ∈ cs, c ≠ '\'' ∧ isTextChar c = true)
    (rest : List Char) : readLiteral (cs ++ '\'' :: rest) = some (cs, rest) := by
  induction cs with
  | nil => simp [readLiteral]
  | cons c cs ih =>
    obtain ⟨hmark, htext⟩ := h c List.mem_cons_self
    rw [List.cons_append, readLiteral, if_neg hmark, if_pos htext,
      ih fun d hd => h d (List.mem_cons_of_mem _ hd)]
    rfl

/-! ## On several lines without escapes -/

theorem ne_return_of_text {c : Char} (h : c = '\n' ∨ isTextChar c = true) : c ≠ '\r' := by
  rintro rfl
  simp [isTextChar] at h

theorem readLiteralLines_cons {c : Char} (htext : c = '\n' ∨ isTextChar c = true) {cs : List Char}
    (h : ∀ ds, c :: cs ≠ '\'' :: '\'' :: '\'' :: ds) :
    readLiteralLines (c :: cs) = Found.cons c (readLiteralLines cs) := by
  rw [readLiteralLines, if_pos htext]
  · rintro ds rfl rfl
    exact h _ rfl
  · rintro ds rfl rfl
    exact h _ rfl
  · rintro ds rfl rfl
    exact h _ rfl
  · rintro ds rfl _
    exact ne_return_of_text htext rfl

/-- Up to two marks before the closing three belong to the text. -/
theorem readLiteralLines_closing {run : Nat} (hrun : run ≤ 2) {rest : List Char}
    (hrest : ∀ ds, rest ≠ '\'' :: ds) :
    readLiteralLines (List.replicate run '\'' ++ '\'' :: '\'' :: '\'' :: rest)
      = some (List.replicate run '\'', rest) := by
  have hcases : run = 0 ∨ run = 1 ∨ run = 2 := by omega
  rcases hcases with rfl | rfl | rfl
  · show readLiteralLines ('\'' :: '\'' :: '\'' :: rest) = _
    rw [readLiteralLines]
    · rfl
    · intro ds h
      exact hrest _ h
    · exact hrest
  · show readLiteralLines ('\'' :: '\'' :: '\'' :: '\'' :: rest) = _
    rw [readLiteralLines]
    · rfl
    · exact hrest
  · rfl

theorem readLiteralLines_append {cs rest : List Char}
    (hthree : ¬ ['\'', '\'', '\''] <:+: cs) (htext : ∀ c ∈ cs, c = '\n' ∨ isTextChar c = true)
    (hrest : ∀ ds, rest ≠ '\'' :: ds) :
    readLiteralLines (cs ++ '\'' :: '\'' :: '\'' :: rest) = some (cs, rest) := by
  induction cs with
  | nil =>
    have hclosing := readLiteralLines_closing (Nat.zero_le 2) hrest
    exact hclosing
  | cons c cs ih =>
    by_cases hmarks : ∃ run, run ≤ 2 ∧ c :: cs = List.replicate run '\''
    · obtain ⟨run, hrun, heq⟩ := hmarks
      rw [heq]
      exact readLiteralLines_closing hrun hrest
    · have htail : ¬ ['\'', '\'', '\''] <:+: cs := fun h => hthree (List.infix_cons h)
      rw [List.cons_append, readLiteralLines_cons (htext c List.mem_cons_self),
        ih htail fun d hd => htext d (List.mem_cons_of_mem _ hd)]
      · rfl
      -- Three marks here would end the text early, or they are its last ones.
      · intro ds hfirst
        obtain ⟨rfl, hsecond⟩ := List.cons.inj hfirst
        cases cs with
        | nil => exact hmarks ⟨1, by omega, rfl⟩
        | cons d cs =>
          obtain ⟨rfl, hthird⟩ := List.cons.inj hsecond
          cases cs with
          | nil => exact hmarks ⟨2, by omega, rfl⟩
          | cons e cs =>
            obtain ⟨rfl, _⟩ := List.cons.inj hthird
            exact hthree ⟨[], cs, rfl⟩

/-! ## On several lines with escapes -/

theorem readBasicLines_cons {c : Char} (htext : c = '\n' ∨ isTextChar c = true) (hback : c ≠ '\\')
    {cs : List Char} (h : ∀ ds, c :: cs ≠ '"' :: '"' :: '"' :: ds) :
    readBasicLines (.text false) (c :: cs) = Found.cons c (readBasicLines (.text false) cs) := by
  rw [readBasicLines, if_neg hback, if_neg (by simp), if_pos htext]
  · rintro ds rfl rfl
    exact h _ rfl
  · rintro ds rfl rfl
    exact h _ rfl
  · rintro ds rfl rfl
    exact h _ rfl
  · rintro ds rfl _
    exact ne_return_of_text htext rfl

theorem readBasicLines_closing {run : Nat} (hrun : run ≤ 2) {rest : List Char}
    (hrest : ∀ ds, rest ≠ '"' :: ds) :
    readBasicLines (.text false) (List.replicate run '"' ++ '"' :: '"' :: '"' :: rest)
      = some (List.replicate run '"', rest) := by
  have hcases : run = 0 ∨ run = 1 ∨ run = 2 := by omega
  rcases hcases with rfl | rfl | rfl
  · show readBasicLines (.text false) ('"' :: '"' :: '"' :: rest) = _
    rw [readBasicLines]
    · rfl
    · intro ds h
      exact hrest _ h
    · exact hrest
  · show readBasicLines (.text false) ('"' :: '"' :: '"' :: '"' :: rest) = _
    rw [readBasicLines]
    · rfl
    · exact hrest
  · rfl

theorem readBasicLines_escapes {c : Char} {cs : List Char} (h : Escapes c cs) (rest : List Char) :
    readBasicLines (.text false) (cs ++ rest)
      = Found.cons c (readBasicLines (.text false) rest) := by
  cases h with
  | raw hquote hback _ _ htext =>
    refine readBasicLines_cons (Or.inr htext) hback fun ds h => ?_
    exact hquote (List.cons.inj h).1
  | short hd =>
    rename_i d
    have hreturn : d ≠ '\r' := by
      rintro rfl
      simp [unescape?] at hd
    have hbreak : d ≠ '\n' := by
      rintro rfl
      simp [unescape?] at hd
    have hblank : isBlankChar d = false := by
      rw [Bool.eq_false_iff]
      intro h
      rcases (by simpa [isBlankChar] using h : d = ' ' ∨ d = '\t') with rfl | rfl
      · simp [unescape?] at hd
      · simp [unescape?] at hd
    simp [readBasicLines, hreturn, hbreak, hblank, next_letter hd]
  | control ha hb =>
    obtain ⟨hfirst, hsecond⟩ := next_digits ha hb
    simp [readBasicLines, Escape.next, isBlankChar]
    show readBasicLines (.escape (.digits 2 0)) (_ :: _ :: rest) = _
    simp [readBasicLines, hfirst, hsecond]

theorem readBasicLines_replicate {run : Nat} (hrun : run ≤ 2) {d : Char} (hd : d ≠ '"')
    (ds : List Char) : readBasicLines (.text false) (List.replicate run '"' ++ d :: ds)
      = (readBasicLines (.text false) (d :: ds)).map
          fun f => (List.replicate run '"' ++ f.1, f.2) := by
  have hcases : run = 0 ∨ run = 1 ∨ run = 2 := by omega
  have htext : '"' = '\n' ∨ isTextChar '"' = true := Or.inr rfl
  have hone : readBasicLines (.text false) ('"' :: d :: ds)
      = Found.cons '"' (readBasicLines (.text false) (d :: ds)) := by
    refine readBasicLines_cons htext (by decide) fun es h => ?_
    simp [hd] at h
  rcases hcases with rfl | rfl | rfl
  · simp
  · exact hone
  · show readBasicLines (.text false) ('"' :: '"' :: d :: ds) = _
    rw [readBasicLines_cons htext (by decide), hone]
    · unfold Found.cons
      rw [Option.map_map]
      rfl
    · intro es h
      simp [hd] at h

theorem Escapes.head {c : Char} {cs : List Char} (h : Escapes c cs) :
    ∃ d ds, cs = d :: ds ∧ d ≠ '"' ∧ d ≠ '\n' ∧ d ≠ '\r' := by
  cases h with
  | raw hquote _ hbreak hreturn _ => exact ⟨c, [], rfl, hquote, hbreak, hreturn⟩
  | short _ => exact ⟨'\\', _, rfl, by decide, by decide, by decide⟩
  | control _ _ => exact ⟨'\\', _, rfl, by decide, by decide, by decide⟩

/-- Of the marks of a run every third is escaped, so three never stand together. -/
theorem readBasicLines_escapeLines {run : Nat} (hrun : run ≤ 2) (cs : List Char)
    {rest : List Char} (hrest : ∀ ds, rest ≠ '"' :: ds) :
    readBasicLines (.text false)
        (List.replicate run '"' ++ (escapeLines run cs ++ '"' :: '"' :: '"' :: rest))
      = some (List.replicate run '"' ++ cs, rest) := by
  induction cs generalizing run with
  | nil =>
    rw [List.append_nil]
    exact readBasicLines_closing hrun hrest
  | cons c cs ih =>
    have hnext := ih (Nat.zero_le 2)
    rw [List.replicate_zero, List.nil_append, List.nil_append] at hnext
    -- What is written for a character that is no mark of the run ends the run.
    have hpiece : ∀ piece : List Char, (∃ d ds, piece = d :: ds ∧ d ≠ '"') →
        (∀ more, readBasicLines (.text false) (piece ++ more)
          = Found.cons c (readBasicLines (.text false) more)) →
        readBasicLines (.text false)
            (List.replicate run '"' ++ (piece ++ escapeLines 0 cs ++ '"' :: '"' :: '"' :: rest))
          = some (List.replicate run '"' ++ c :: cs, rest) := by
      rintro piece ⟨d, ds, rfl, hd⟩ hread
      have hone := hread (escapeLines 0 cs ++ '"' :: '"' :: '"' :: rest)
      rw [hnext] at hone
      rw [List.append_assoc, List.cons_append] at *
      rw [readBasicLines_replicate hrun hd, hone]
      rfl
    rw [escapeLines]
    by_cases hquote : c = '"'
    · subst hquote
      rw [if_pos rfl]
      by_cases hlt : run < 2
      · have hmore := ih (show run + 1 ≤ 2 by omega)
        rw [List.replicate_succ', List.append_assoc, List.append_assoc] at hmore
        rw [if_pos hlt]
        exact hmore
      · rw [if_neg hlt]
        exact hpiece ['\\', '"'] ⟨_, _, rfl, by decide⟩ (readBasicLines_escapes (Escapes.short rfl))
    · rw [if_neg hquote]
      by_cases hbreak : c = '\n'
      · subst hbreak
        rw [if_pos rfl]
        refine hpiece ['\n'] ⟨_, _, rfl, by decide⟩ fun more => ?_
        exact readBasicLines_cons (Or.inl rfl) (by decide) (by simp)
      · rw [if_neg hbreak]
        obtain ⟨d, ds, heq, hd, _⟩ := (escapes_escapeChar c).head
        exact hpiece (escapeChar c) ⟨d, ds, heq, hd⟩
          (readBasicLines_escapes (escapes_escapeChar c))

/-! ## The form of a text -/

/-- No run of a character is longer than the longest. -/
theorem not_infix_of_longestRun {c : Char} {run n : Nat} {cs : List Char}
    (h : longestRun c run cs < n) : ¬ List.replicate n c <:+: List.replicate run c ++ cs := by
  induction cs generalizing run with
  | nil =>
    intro hpart
    have hlen := hpart.length_le
    rw [List.append_nil, List.length_replicate, List.length_replicate] at hlen
    rw [longestRun] at h
    omega
  | cons d cs ih =>
    rw [longestRun] at h
    by_cases hd : d = c
    · subst hd
      rw [if_pos rfl] at h
      have hmore := ih h
      rw [List.replicate_succ', List.append_assoc] at hmore
      exact hmore
    · rw [if_neg hd] at h
      have hout : d ∉ List.replicate n c := fun hmem => hd (List.eq_of_mem_replicate hmem)
      rw [infix_append_cons_iff hout]
      rintro (hpart | hpart)
      · have hlen := hpart.length_le
        rw [List.length_replicate, List.length_replicate] at hlen
        omega
      · exact ih (show longestRun c 0 cs < n by omega) hpart

theorem dropBreak_cons {c : Char} (hbreak : c ≠ '\n') (hreturn : c ≠ '\r') (cs : List Char) :
    dropBreak (c :: cs) = c :: cs := by
  rw [dropBreak]
  · intro ds h
    exact hbreak (List.cons.inj h).1
  · intro ds h
    exact hreturn (List.cons.inj h).1

/-- The line break in front of a text on several lines is no part of it. -/
theorem dropBreak_start {cs : List Char} {c : Char} {ds : List Char} (hreturn : c ≠ '\r')
    (hbreak : '\n' ∉ cs → c ≠ '\n') :
    dropBreak ((if cs.contains '\n' then ['\n'] else []) ++ c :: ds) = c :: ds := by
  by_cases h : '\n' ∈ cs
  · rw [if_pos (List.contains_iff_mem.2 h)]
    rfl
  · rw [if_neg (fun hc => h (List.contains_iff_mem.1 hc))]
    exact dropBreak_cons (hbreak h) hreturn ds

theorem not_control_of_plain {c : Char} (h : isPlainChar c = true) : ¬ isControlChar c = true := by
  have hlow : ∀ n : Fin 0x20, isPlainChar (Char.ofNat n.val) = false := by decide
  simp only [isControlChar, Bool.or_eq_true, Bool.and_eq_true, decide_eq_true_eq, beq_iff_eq]
  rintro (⟨⟨hc, -⟩, -⟩ | hc)
  · have hplain := hlow ⟨c.toNat, hc⟩
    rw [Char.ofNat_toNat, h] at hplain
    nomatch hplain
  · have hdel : c = Char.ofNat 0x7F := by rw [← hc, Char.ofNat_toNat]
    rw [hdel] at h
    exact absurd h (by decide)

theorem escapeChar_of_plain {c : Char} (h : isPlainChar c = true) : escapeChar c = [c] := by
  have hne : ∀ d : Char, isPlainChar d = false → c ≠ d := by
    rintro d hd rfl
    rw [h] at hd
    nomatch hd
  unfold escapeChar
  rw [if_neg (hne _ (by decide)), if_neg (hne _ (by decide)), if_neg (hne _ (by decide)),
    if_neg (hne _ (by decide)), if_neg (hne _ (by decide)), if_neg (hne _ (by decide)),
    if_neg (hne _ (by decide)), if_neg (not_control_of_plain h)]

theorem flatMap_escapeChar_of_plain {cs : List Char} (h : cs.all isPlainChar = true) :
    cs.flatMap escapeChar = cs := by
  induction cs with
  | nil => rfl
  | cons c cs ih =>
    rw [List.all_cons, Bool.and_eq_true] at h
    rw [List.flatMap_cons, escapeChar_of_plain h.1, ih h.2]
    rfl

theorem escapeLines_head (cs more : List Char) :
    ∃ d ds, escapeLines 0 cs ++ '"' :: more = d :: ds ∧ d ≠ '\r' ∧ ('\n' ∉ cs → d ≠ '\n') := by
  cases cs with
  | nil => exact ⟨'"', more, rfl, by decide, by simp⟩
  | cons c cs =>
    rw [escapeLines]
    by_cases hquote : c = '"'
    · rw [if_pos hquote, if_pos (by omega)]
      exact ⟨'"', _, rfl, by decide, by simp⟩
    · rw [if_neg hquote]
      by_cases hbreak : c = '\n'
      · rw [if_pos hbreak]
        refine ⟨'\n', _, rfl, by decide, fun hnot => ?_⟩
        rw [hbreak] at hnot
        exact absurd List.mem_cons_self hnot
      · rw [if_neg hbreak]
        obtain ⟨d, ds, heq, _, hd, hreturn⟩ := (escapes_escapeChar c).head
        rw [heq]
        exact ⟨d, _, rfl, hreturn, fun _ => hd⟩

theorem text_of_not_control {cs : List Char} (h : cs.any isControlChar = false) {c : Char}
    (hc : c ∈ cs) : c = '\n' ∨ isTextChar c = true := by
  by_cases hbreak : c = '\n'
  · exact Or.inl hbreak
  · have hcontrol : isControlChar c = false := by
      rw [Bool.eq_false_iff]
      intro htrue
      rw [List.any_eq_false] at h
      exact h c hc htrue
    exact Or.inr (isTextChar_of_not_control hcontrol hbreak)

theorem of_literal {cs : List Char} (h : chooseForm cs = .literal) :
    ∀ c ∈ cs, c ≠ '\'' ∧ isTextChar c = true := by
  unfold chooseForm at h
  dsimp only at h
  repeat' split at h
  any_goals simp at h
  next hliteral =>
  simp only [Bool.and_eq_true, Bool.not_eq_true', beq_iff_eq] at hliteral
  obtain ⟨⟨hcontrol, hrun⟩, hbreak⟩ := hliteral
  intro c hc
  constructor
  · rintro rfl
    have hnone := not_infix_of_longestRun (show longestRun '\'' 0 cs < 1 by omega)
    exact hnone ((List.singleton_infix_iff _ _).2 hc)
  · refine (text_of_not_control hcontrol hc).resolve_left ?_
    rintro rfl
    rw [List.contains_iff_mem.2 hc] at hbreak
    simp at hbreak

theorem of_literalLines {cs : List Char} (h : chooseForm cs = .literalLines) :
    ¬ ['\'', '\'', '\''] <:+: cs ∧ ∀ c ∈ cs, c = '\n' ∨ isTextChar c = true := by
  unfold chooseForm at h
  dsimp only at h
  repeat' split at h
  any_goals simp at h
  next hliteral =>
  simp only [Bool.and_eq_true, Bool.not_eq_true', decide_eq_true_eq] at hliteral
  obtain ⟨hcontrol, hrun⟩ := hliteral
  exact ⟨not_infix_of_longestRun (show longestRun '\'' 0 cs < 3 by omega),
    fun c => text_of_not_control hcontrol⟩

/-! ## Any text -/

theorem readText_basic (cs : List Char) {rest : List Char} (hrest : ∀ ds, rest ≠ '"' :: ds) :
    readText ('"' :: (cs.flatMap escapeChar ++ '"' :: rest)) = some (cs, rest) := by
  have hread := readBasic_flatMap cs rest
  have hone : ∀ ds, cs.flatMap escapeChar ++ '"' :: rest ≠ '"' :: '"' :: ds := by
    intro ds h
    cases cs with
    | nil => exact hrest ds (List.cons.inj h).2
    | cons c cs =>
      obtain ⟨d, es, heq, hd, _⟩ := (escapes_escapeChar c).head
      rw [List.flatMap_cons, heq, List.append_assoc, List.cons_append] at h
      exact hd (List.cons.inj h).1
  rw [readText]
  · exact hread
  · exact hone

theorem readText_literal {cs : List Char} (hne : cs ≠ [])
    (h : ∀ c ∈ cs, c ≠ '\'' ∧ isTextChar c = true) (rest : List Char) :
    readText ('\'' :: (cs ++ '\'' :: rest)) = some (cs, rest) := by
  have hone : ∀ ds, cs ++ '\'' :: rest ≠ '\'' :: '\'' :: ds := by
    intro ds heq
    cases cs with
    | nil => exact hne rfl
    | cons c cs => exact (h c List.mem_cons_self).1 (List.cons.inj heq).1
  rw [readText]
  · exact readLiteral_append h rest
  · exact hone

theorem readText_basicLines (cs : List Char) {rest : List Char} (hrest : ∀ ds, rest ≠ '"' :: ds) :
    readText ('"' :: '"' :: '"' :: ((if cs.contains '\n' then ['\n'] else []) ++
      (escapeLines 0 cs ++ '"' :: '"' :: '"' :: rest))) = some (cs, rest) := by
  have hread := readBasicLines_escapeLines (Nat.zero_le 2) cs hrest
  have hdrop : dropBreak ((if cs.contains '\n' then ['\n'] else []) ++
      (escapeLines 0 cs ++ '"' :: '"' :: '"' :: rest)) =
        escapeLines 0 cs ++ '"' :: '"' :: '"' :: rest := by
    obtain ⟨d, ds, heq, hreturn, hbreak⟩ := escapeLines_head cs ('"' :: '"' :: rest)
    rw [heq]
    exact dropBreak_start hreturn hbreak
  rw [readText, hdrop]
  exact hread

theorem readText_literalLines {cs rest : List Char} (hthree : ¬ ['\'', '\'', '\''] <:+: cs)
    (htext : ∀ c ∈ cs, c = '\n' ∨ isTextChar c = true) (hrest : ∀ ds, rest ≠ '\'' :: ds) :
    readText ('\'' :: '\'' :: '\'' :: ((if cs.contains '\n' then ['\n'] else []) ++
      (cs ++ '\'' :: '\'' :: '\'' :: rest))) = some (cs, rest) := by
  have hdrop : dropBreak ((if cs.contains '\n' then ['\n'] else []) ++
      (cs ++ '\'' :: '\'' :: '\'' :: rest)) = cs ++ '\'' :: '\'' :: '\'' :: rest := by
    cases cs with
    | nil => exact dropBreak_start (by decide) (by simp)
    | cons c cs =>
      refine dropBreak_start (ne_return_of_text (htext c List.mem_cons_self)) fun hnot => ?_
      rintro rfl
      exact hnot List.mem_cons_self
  rw [readText, hdrop]
  exact readLiteralLines_append hthree htext hrest

/-- A written text is read back, if no mark follows it. -/
theorem readText_writeText (s : String) {rest : List Char} (hquote : ∀ ds, rest ≠ '"' :: ds)
    (hmark : ∀ ds, rest ≠ '\'' :: ds) :
    readText (writeText s ++ rest) = some (s.toList, rest) := by
  rw [writeText]
  by_cases hplain : s.toList.all isPlainChar
  · rw [if_pos hplain]
    have hbasic := readText_basic s.toList hquote
    rw [flatMap_escapeChar_of_plain hplain] at hbasic
    simpa using hbasic
  · rw [if_neg hplain]
    cases hform : chooseForm s.toList with
    | basic => simpa using readText_basic s.toList hquote
    | literal =>
      have hne : s.toList ≠ [] := fun hnil => hplain (by rw [hnil]; rfl)
      simpa using readText_literal hne (of_literal hform) rest
    | basicLines => simpa using readText_basicLines s.toList hquote
    | literalLines =>
      obtain ⟨hthree, htext⟩ := of_literalLines hform
      simpa using readText_literalLines hthree htext hmark

end EdmxGen.Toml
