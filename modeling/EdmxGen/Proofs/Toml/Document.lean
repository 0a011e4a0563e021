import EdmxGen.Proofs.Text.Digits
import EdmxGen.Proofs.Toml.Text
import EdmxGen.Toml.Reader

/-!
# Written TOML values and lines are read back

Texts, lists of texts and natural numbers are read back as values (`readValue_writeText`,
`readValue_writeTexts`, `readValue_decimal`). A line with a key and such a value adds the value to
the table of the last header (`readStatements_pair`).
-/

namespace EdmxGen.Toml

open Text

/-! ## Gaps -/

theorem dropGap_break (cs : List Char) : dropGap false ('\n' :: cs) = dropGap false cs := by
  rw [dropGap, if_pos rfl]
  simp

theorem dropGap_space (cs : List Char) : dropGap false (' ' :: cs) = dropGap false cs := by
  rw [dropGap, if_neg (by decide), if_neg (by decide), if_pos (by decide)]
  simp

/-- The character begins what a gap is followed by. -/
def isSolid (c : Char) : Bool := c != '\n' && c != '\r' && !isBlankChar c && c != '#'

theorem dropGap_solid {c : Char} (h : isSolid c = true) (cs : List Char) :
    dropGap false (c :: cs) = some (c :: cs) := by
  unfold isSolid at h
  simp only [Bool.and_eq_true, bne_iff_ne, ne_eq, Bool.not_eq_true'] at h
  obtain ⟨⟨⟨hbreak, hreturn⟩, hblank⟩, hcomment⟩ := h
  rw [dropGap, if_neg hbreak, if_neg (by decide), if_neg (by rw [hblank]; decide), if_neg hcomment]
  intro ds hc
  exact absurd hc hreturn

/-! ## Texts and lists of texts -/

theorem writeText_head (s : String) :
    ∃ c cs, writeText s = c :: cs ∧ (c = '"' ∨ c = '\'') := by
  rw [writeText]
  by_cases hplain : s.toList.all isPlainChar
  · rw [if_pos hplain]
    exact ⟨_, _, rfl, Or.inl rfl⟩
  · rw [if_neg hplain]
    cases chooseForm s.toList with
    | basic => exact ⟨_, _, rfl, Or.inl rfl⟩
    | literal => exact ⟨_, _, rfl, Or.inr rfl⟩
    | basicLines => exact ⟨_, _, rfl, Or.inl rfl⟩
    | literalLines => exact ⟨_, _, rfl, Or.inr rfl⟩

theorem readValue_writeText (depth : Nat) (s : String) {rest : List Char}
    (hquote : ∀ ds, rest ≠ '"' :: ds) (hmark : ∀ ds, rest ≠ '\'' :: ds) :
    readValue depth (writeText s ++ rest) = some (.text s, rest) := by
  have hread := readText_writeText s hquote hmark
  obtain ⟨c, cs, hhead, rfl | rfl⟩ := writeText_head s
  · rw [hhead, List.cons_append] at hread ⊢
    rw [readValue, hread, Option.map_some, String.ofList_toList]
  · rw [hhead, List.cons_append] at hread ⊢
    rw [readValue, hread, Option.map_some, String.ofList_toList]

theorem solid_of_mark {c : Char} (h : c = '"' ∨ c = '\'') : isSolid c = true ∧ c ≠ ']' := by
  rcases h with rfl | rfl <;> decide

theorem readItems_closing (read : ValueReader) (fuel : Nat) (rest : List Char) :
    readItems read (fuel + 1) (']' :: rest) = some ([], rest) := by
  rw [readItems, dropGap_solid (by decide)]
  rfl

theorem readItems_comma {read : ValueReader} {fuel : Nat} {c : Char} {cs rest : List Char}
    {v : Toml} (hsolid : isSolid c = true) (hc : c ≠ ']')
    (hread : read (c :: cs) = some (v, ',' :: rest)) : readItems read (fuel + 1) (c :: cs)
      = (readItems read fuel rest).map fun r => (v :: r.1, r.2) := by
  have hcomma : dropGap false (',' :: rest) = some (',' :: rest) := dropGap_solid (by decide) rest
  simp [readItems, dropGap_solid hsolid, hc, hread, hcomma]

theorem readItems_last {read : ValueReader} {fuel : Nat} {c : Char} {cs rest : List Char}
    {v : Toml} (hsolid : isSolid c = true) (hc : c ≠ ']')
    (hread : read (c :: cs) = some (v, ']' :: rest)) :
    readItems read (fuel + 1) (c :: cs) = some ([v], rest) := by
  have hend : dropGap false (']' :: rest) = some (']' :: rest) := dropGap_solid (by decide) rest
  simp [readItems, dropGap_solid hsolid, hc, hread, hend]

theorem readItems_gap {read : ValueReader} {fuel : Nat} {cs ds : List Char}
    (h : dropGap false cs = dropGap false ds) :
    readItems read fuel cs = readItems read fuel ds := by
  cases fuel with
  | zero => rfl
  | succ fuel => rw [readItems, readItems, h]

theorem readItems_flatMap (depth : Nat) {fuel : Nat} {ss : List String} (h : ss.length < fuel)
    (rest : List Char) : readItems (readValue depth) fuel (ss.flatMap writeItem ++ ']' :: rest)
      = some (ss.map Toml.text, rest) := by
  induction ss generalizing fuel with
  | nil =>
    obtain ⟨n, rfl⟩ := Nat.exists_eq_add_of_lt h
    exact readItems_closing _ _ rest
  | cons s ss ih =>
    obtain ⟨n, rfl⟩ : ∃ n, fuel = n + 1 := ⟨fuel - 1, by omega⟩
    have hgap : dropGap false ((s :: ss).flatMap writeItem ++ ']' :: rest)
        = dropGap false (writeText s ++ ',' :: '\n' :: (ss.flatMap writeItem ++ ']' :: rest)) := by
      rw [List.flatMap_cons, writeItem]
      simp only [List.cons_append, List.append_assoc, List.nil_append, dropGap_space]
    have hread := readValue_writeText depth s
      (show ∀ ds, ',' :: '\n' :: (ss.flatMap writeItem ++ ']' :: rest) ≠ '"' :: ds by simp)
      (by simp)
    have hrest := ih (show ss.length < n by simpa using h)
    rw [readItems_gap hgap]
    obtain ⟨c, cs, hhead, hc⟩ := writeText_head s
    rw [hhead, List.cons_append] at hread ⊢
    rw [readItems_comma (solid_of_mark hc).1 (solid_of_mark hc).2 hread,
      readItems_gap (dropGap_break _), hrest]
    rfl

theorem length_le_flatMap (ss : List String) : ss.length ≤ (ss.flatMap writeItem).length := by
  induction ss with
  | nil => exact Nat.le_refl _
  | cons s ss ih =>
    rw [List.flatMap_cons, List.length_append, List.length_cons]
    have hitem : 1 ≤ (writeItem s).length := by simp [writeItem]
    omega

/-- A written list of texts is read back. -/
theorem readValue_writeTexts (depth : Nat) (ss : List String) (rest : List Char) :
    readValue (depth + 1) (writeTexts ss ++ rest) = some (.array (ss.map .text), rest) := by
  match ss with
  | [] =>
    show readValue (depth + 1) ('[' :: ']' :: rest) = _
    rw [readValue, List.length_cons, readItems_closing]
    rfl
  | [s] =>
    have hread := readValue_writeText depth s (show ∀ ds, ']' :: rest ≠ '"' :: ds by simp) (by simp)
    have htext : writeTexts [s] ++ rest = '[' :: (writeText s ++ ']' :: rest) := by
      simp [writeTexts]
    rw [htext, readValue, List.length_cons]
    obtain ⟨c, cs, hhead, hc⟩ := writeText_head s
    rw [hhead, List.cons_append] at hread ⊢
    rw [readItems_last (solid_of_mark hc).1 (solid_of_mark hc).2 hread]
    rfl
  | s :: t :: ss =>
    have htext : writeTexts (s :: t :: ss) ++ rest
        = '[' :: '\n' :: ((s :: t :: ss).flatMap writeItem ++ ']' :: rest) := by
      simp [writeTexts]
    have hfuel : (s :: t :: ss).length <
        ('[' :: '\n' :: ((s :: t :: ss).flatMap writeItem ++ ']' :: rest)).length := by
      have hlen := length_le_flatMap (s :: t :: ss)
      simp only [List.length_cons, List.length_append] at hlen ⊢
      omega
    rw [htext, readValue, readItems_gap (dropGap_break _), readItems_flatMap depth hfuel]
    rfl

/-! ## Natural numbers -/

theorem digits?_decimal (n : Nat) : digits? isDigit (decimal n) = some (decimal n) := by
  have hscore : ∀ c ∈ decimal n, (c == '_') = false := by
    intro c hc
    have hdigit := isDigit_of_mem_decimal hc
    rw [beq_eq_false_iff_ne]
    rintro rfl
    exact absurd hdigit (by decide)
  have hall : (decimal n).all isDigit = true :=
    List.all_eq_true.2 fun c hc => isDigit_of_mem_decimal hc
  unfold digits?
  rw [splitAt_of_forall hscore]
  simp [hall, decimal_ne_nil]

theorem wholeDigits?_decimal (n : Nat) : wholeDigits? (decimal n) = some (decimal n) := by
  rw [wholeDigits?, digits?_decimal]
  split
  · next h => exact absurd (Option.some.inj h) (decimal_ne_zero_cons n _ _)
  · rfl

theorem ne_of_isDigit {c d : Char} (hc : isDigit c = true) (hd : isDigit d = false) : c ≠ d := by
  rintro rfl
  rw [hc] at hd
  simp at hd

theorem integer?_decimal {n : Nat} (h : n < Nat.pow 2 128) :
    integer? (decimal n) = some (n : Int) := by
  have hsign : splitSign (decimal n) = (false, decimal n) := by
    obtain ⟨c, cs, hdec, hc⟩ := decimal_head n
    rw [hdec, splitSign]
    · exact fun ds heq => ne_of_isDigit hc (by decide) (List.cons.inj heq).1
    · exact fun ds heq => ne_of_isDigit hc (by decide) (List.cons.inj heq).1
  have hbound : bounded? n = some (n : Int) := by
    unfold bounded?
    rw [if_pos]
    constructor
    · exact Int.le_trans (by decide) (Int.natCast_nonneg n)
    · exact_mod_cast h
  unfold integer?
  split
  · next heq => exact absurd heq (decimal_ne_zero_cons n _ _)
  · next heq => exact absurd heq (decimal_ne_zero_cons n _ _)
  · next heq => exact absurd heq (decimal_ne_zero_cons n _ _)
  · rw [hsign]
    show (wholeDigits? (decimal n)).bind _ = _
    rw [wholeDigits?_decimal, Option.bind_some, ofDecimal_decimal]
    exact hbound

/-- A word ends at the first character that belongs to none. -/
theorem takeWhile_word {p : Char → Bool} {word rest : List Char} {c : Char}
    (hword : ∀ d ∈ word, p d = true) (hc : p c = false) :
    (word ++ c :: rest).takeWhile p = word := by
  rw [List.takeWhile_append_of_pos hword, List.takeWhile_cons_of_neg (by simp [hc]),
    List.append_nil]

theorem dropWhile_word {p : Char → Bool} {word rest : List Char} {c : Char}
    (hword : ∀ d ∈ word, p d = true) (hc : p c = false) :
    (word ++ c :: rest).dropWhile p = c :: rest := by
  rw [List.dropWhile_append_of_pos hword, List.dropWhile_cons_of_neg (by simp [hc])]

theorem splitScalar_decimal (n : Nat) (rest : List Char) :
    splitScalar (decimal n ++ '\n' :: rest) = (decimal n, '\n' :: rest) := by
  have hword : ∀ c ∈ decimal n, (!endsScalar c) = true := by
    intro c hc
    have hdigit := isDigit_of_mem_decimal hc
    unfold endsScalar
    simp only [Bool.not_eq_true', Bool.or_eq_false_iff, beq_eq_false_iff_ne]
    repeat' apply And.intro
    all_goals exact ne_of_isDigit hdigit (by decide)
  have hend : (!endsScalar '\n') = false := by decide
  unfold splitScalar
  rw [takeWhile_word hword hend, dropWhile_word hword hend]
  rfl

/-- A written natural number of at most 128 bits is read back. -/
theorem readValue_decimal (depth : Nat) {n : Nat} (h : n < Nat.pow 2 128) (rest : List Char) :
    readValue depth (decimal n ++ '\n' :: rest) = some (.integer n, '\n' :: rest) := by
  have hscalar : scalar? (decimal n) = some (.integer n) := by
    obtain ⟨c, cs, hdec, hc⟩ := decimal_head n
    have htrue : decimal n ≠ ['t', 'r', 'u', 'e'] := by
      rw [hdec]
      exact fun heq => ne_of_isDigit hc (by decide) (List.cons.inj heq).1
    have hfalse : decimal n ≠ ['f', 'a', 'l', 's', 'e'] := by
      rw [hdec]
      exact fun heq => ne_of_isDigit hc (by decide) (List.cons.inj heq).1
    rw [scalar?, if_neg htrue, if_neg hfalse, integer?_decimal h]
  have hread : readScalar (decimal n ++ '\n' :: rest) = some (.integer n, '\n' :: rest) := by
    rw [readScalar, splitScalar_decimal, hscalar]
    rfl
  obtain ⟨c, cs, hdec, hc⟩ := decimal_head n
  rw [hdec, List.cons_append] at hread ⊢
  rw [readValue]
  · exact hread
  · exact fun ds heq => ne_of_isDigit hc (by decide) (List.cons.inj heq).1
  · exact fun ds heq => ne_of_isDigit hc (by decide) (List.cons.inj heq).1
  · exact fun ds m heq _ => ne_of_isDigit hc (by decide) (List.cons.inj heq).1
  · exact fun ds m heq _ => ne_of_isDigit hc (by decide) (List.cons.inj heq).1

/-! ## Lines -/

/-- The name can be a key without marks. -/
structure IsKey (key : String) : Prop where
  ne_nil : key.toList ≠ []
  all : key.toList.all isKeyChar = true

theorem IsKey.head {key : String} (h : IsKey key) :
    ∃ c cs, key.toList = c :: cs ∧ isKeyChar c = true := by
  obtain ⟨c, cs, hkey⟩ := List.exists_cons_of_ne_nil h.ne_nil
  have hall := h.all
  rw [hkey, List.all_cons, Bool.and_eq_true] at hall
  exact ⟨c, cs, hkey, hall.1⟩

theorem ne_of_isKeyChar {c d : Char} (hc : isKeyChar c = true) (hd : isKeyChar d = false) :
    c ≠ d := by
  rintro rfl
  rw [hc] at hd
  simp at hd

/-- A key is read up to the character behind it and the blanks there. -/
theorem readKeys_key {key : String} (h : IsKey key) (fuel : Nat) {c d : Char} {more rest : List Char}
    (hc : isKeyChar c = false) (hdrop : dropBlanks (c :: more) = d :: rest) (hd : d ≠ '.') :
    readKeys fuel (key.toList ++ c :: more) = some ([key], d :: rest) := by
  have hall : ∀ e ∈ key.toList, isKeyChar e = true := List.all_eq_true.1 h.all
  have hread : readKey (key.toList ++ c :: more) = some (key.toList, c :: more) := by
    obtain ⟨e, es, hkey, he⟩ := h.head
    rw [readKey, takeWhile_word hall hc, dropWhile_word hall hc, if_neg (by simpa using h.ne_nil)]
    · rw [hkey]
      exact fun ds heq => ne_of_isKeyChar he (by decide) (List.cons.inj heq).1
    · rw [hkey]
      exact fun ds heq => ne_of_isKeyChar he (by decide) (List.cons.inj heq).1
  cases fuel with
  | zero => rw [readKeys, hread, Option.map_some, hdrop, String.ofList_toList]
  | succ fuel =>
    rw [readKeys, hread]
    dsimp only [bind, Option.bind]
    rw [hdrop, String.ofList_toList]
    split
    · next heq => exact absurd (List.cons.inj heq).1 hd
    · rfl

/-- The value is written so at the end of a line. -/
structure Written (v : Toml) (value : List Char) : Prop where
  head : ∃ c cs, value = c :: cs ∧ isBlankChar c = false
  read : ∀ rest, readValue maxDepth (value ++ '\n' :: rest) = some (v, '\n' :: rest)

theorem written_writeText (s : String) : Written (.text s) (writeText s) := by
  refine ⟨?_, fun rest => readValue_writeText _ s (by simp) (by simp)⟩
  obtain ⟨c, cs, hhead, rfl | rfl⟩ := writeText_head s
  · exact ⟨_, _, hhead, by decide⟩
  · exact ⟨_, _, hhead, by decide⟩

theorem written_writeTexts (ss : List String) :
    Written (.array (ss.map .text)) (writeTexts ss) := by
  refine ⟨?_, fun rest => readValue_writeTexts _ ss _⟩
  match ss with
  | [] => exact ⟨_, _, rfl, by decide⟩
  | [s] => exact ⟨_, _, rfl, by decide⟩
  | s :: t :: ss => exact ⟨_, _, rfl, by decide⟩

theorem written_decimal {n : Nat} (h : n < Nat.pow 2 128) : Written (.integer n) (decimal n) := by
  refine ⟨?_, readValue_decimal _ h⟩
  obtain ⟨c, cs, hdec, hc⟩ := decimal_head n
  refine ⟨c, cs, hdec, ?_⟩
  unfold isBlankChar
  rw [Bool.or_eq_false_iff, beq_eq_false_iff_ne, beq_eq_false_iff_ne]
  exact ⟨ne_of_isDigit hc (by decide), ne_of_isDigit hc (by decide)⟩

theorem readStatements_break (fuel : Nat) (p : Progress) (cs : List Char) :
    readStatements fuel p ('\n' :: cs) = readStatements fuel p cs := by
  cases fuel with
  | zero => rfl
  | succ fuel => rw [readStatements, readStatements, dropGap_break]

theorem readPair_line {key : String} (h : IsKey key) {v : Toml} {value : List Char}
    (hv : Written v value) (p : Progress) (rest : List Char) :
    readPair p (key.toList ++ ' ' :: '=' :: ' ' :: (value ++ '\n' :: rest))
      = (Draft.modifyAt (addUnder [key] v) p.header p.entries).map
          fun entries => ({ p with entries }, '\n' :: rest) := by
  have hdrop : dropBlanks (' ' :: '=' :: ' ' :: (value ++ '\n' :: rest))
      = '=' :: ' ' :: (value ++ '\n' :: rest) := by
    unfold dropBlanks
    rw [List.dropWhile_cons_of_pos (by decide), List.dropWhile_cons_of_neg (by decide)]
  have hvalue : dropBlanks (' ' :: (value ++ '\n' :: rest)) = value ++ '\n' :: rest := by
    obtain ⟨c, cs, hhead, hc⟩ := hv.head
    unfold dropBlanks
    rw [List.dropWhile_cons_of_pos (by decide), hhead, List.cons_append,
      List.dropWhile_cons_of_neg (by simp [hc])]
  rw [readPair, readKeys_key h _ (by decide) hdrop (by decide)]
  simp only [Option.bind_eq_bind, Option.bind_some, hvalue, hv.read]
  cases Draft.modifyAt (addUnder [key] v) p.header p.entries with
  | none => rfl
  | some entries => rfl

theorem isSolid_of_isKeyChar {c : Char} (h : isKeyChar c = true) : isSolid c = true := by
  unfold isSolid isBlankChar
  simp only [Bool.and_eq_true, bne_iff_ne, ne_eq, Bool.not_eq_true', Bool.or_eq_false_iff,
    beq_eq_false_iff_ne]
  repeat' apply And.intro
  all_goals exact ne_of_isKeyChar h (by decide)

theorem lineEnd_break (cs : List Char) : lineEnd ('\n' :: cs) = some ('\n' :: cs) := rfl

/-- A line with a key and a value adds the value to the table of the last header. -/
theorem readStatements_pair {key : String} (h : IsKey key) {v : Toml} {value : List Char}
    (hv : Written v value) (fuel : Nat) (p : Progress) (rest : List Char) :
    readStatements (fuel + 1) p (key.toList ++ ' ' :: '=' :: ' ' :: (value ++ '\n' :: rest))
      = (Draft.modifyAt (addUnder [key] v) p.header p.entries).bind
          fun entries => readStatements fuel { p with entries } rest := by
  have hpair := readPair_line h hv p rest
  obtain ⟨c, cs, hkey, hc⟩ := h.head
  have hgap := dropGap_solid (isSolid_of_isKeyChar hc)
    (cs ++ ' ' :: '=' :: ' ' :: (value ++ '\n' :: rest))
  rw [hkey, List.cons_append] at hpair ⊢
  rw [readStatements, hgap]
  simp only [Option.bind_eq_bind, Option.bind_some]
  split
  · next heq => simp at heq
  · next heq => exact absurd (List.cons.inj heq).1 (ne_of_isKeyChar hc (by decide))
  · rw [hpair]
    cases Draft.modifyAt (addUnder [key] v) p.header p.entries with
    | none => rfl
    | some entries =>
      show (lineEnd ('\n' :: rest)).bind _ = _
      rw [lineEnd_break, Option.bind_some]
      exact readStatements_break fuel _ rest

/-- A header begins its table. -/
theorem readStatements_header {key : String} (h : IsKey key) (fuel : Nat) (p : Progress)
    (rest : List Char) :
    readStatements (fuel + 1) p ('[' :: (key.toList ++ ']' :: '\n' :: rest))
      = (Draft.head key p.entries).bind fun entries => readStatements fuel ⟨entries, [key]⟩ rest := by
  have hdrop : dropBlanks (']' :: '\n' :: rest) = ']' :: '\n' :: rest := by
    unfold dropBlanks
    rw [List.dropWhile_cons_of_neg (by decide)]
  have hkeys := readKeys_key h (key.toList ++ ']' :: '\n' :: rest).length (by decide) hdrop (by decide)
  have hheader : readHeader p (key.toList ++ ']' :: '\n' :: rest)
      = (Draft.head key p.entries).map fun entries => (⟨entries, [key]⟩, '\n' :: rest) := by
    obtain ⟨c, cs, hkey, hc⟩ := h.head
    have hblank : isBlankChar c = false := by
      unfold isBlankChar
      rw [Bool.or_eq_false_iff, beq_eq_false_iff_ne, beq_eq_false_iff_ne]
      exact ⟨ne_of_isKeyChar hc (by decide), ne_of_isKeyChar hc (by decide)⟩
    have hstart : dropBlanks (c :: (cs ++ ']' :: '\n' :: rest)) = c :: (cs ++ ']' :: '\n' :: rest) := by
      unfold dropBlanks
      rw [List.dropWhile_cons_of_neg (by simp [hblank])]
    rw [hkey, List.cons_append] at hkeys ⊢
    rw [readHeader]
    · rw [hstart, hkeys]
      show (Draft.head key p.entries).bind
        (fun entries => some ((⟨entries, [key]⟩ : Progress), '\n' :: rest)) = _
      cases Draft.head key p.entries with
      | none => rfl
      | some entries => rfl
    · exact fun ds heq => ne_of_isKeyChar hc (by decide) (List.cons.inj heq).1
  have hgap := dropGap_solid (show isSolid '[' = true by decide) (key.toList ++ ']' :: '\n' :: rest)
  rw [readStatements, hgap]
  simp only [Option.bind_eq_bind, Option.bind_some]
  rw [hheader]
  cases Draft.head key p.entries with
  | none => rfl
  | some entries =>
    show (lineEnd ('\n' :: rest)).bind _ = _
    rw [lineEnd_break, Option.bind_some]
    exact readStatements_break fuel _ rest

theorem readStatements_nil (fuel : Nat) (p : Progress) :
    readStatements (fuel + 1) p [] = some p := by
  rw [readStatements, dropGap]
  rfl

end EdmxGen.Toml
