import EdmxGen.Proofs.Json.Spelling

/-!
# Reading a text of a value

Whoever reads a text of a value, followed by something that does not continue a number, finds the
value and leaves what follows (`scan_spells`); read as a whole text, it has nothing behind it
(`ofText?_spells`).
-/

namespace EdmxGen.Json

open Text

/-! ## Blanks -/

theorem skipSpace_gap {ws : List Char} (h : Gap ws) (cs : List Char) :
    skipSpace (ws ++ cs) = skipSpace cs := List.dropWhile_append_of_pos h

theorem skipSpace_eq_nil {ws : List Char} (h : Gap ws) : skipSpace ws = [] := by
  have := skipSpace_gap h []
  rwa [List.append_nil] at this

theorem skipSpace_cons {c : Char} (h : isSpace c = false) (cs : List Char) :
    skipSpace (c :: cs) = c :: cs := by
  rw [skipSpace, List.dropWhile_cons_of_neg (by simp [h])]

theorem skipSpace_opens {t : List Char} (h : Opens t) : skipSpace t = t := by
  obtain ⟨c, cs, rfl, hc, -⟩ := h
  exact skipSpace_cons hc cs

/-! ## Strings -/

theorem readText_letter {c : Char} {p : List Char} (h : Letter c p) (t : List Char) :
    readText (p ++ t) = (readText t).map fun r => (c :: r.1, r.2) := by
  cases h with
  | raw hc hq hb =>
    rw [List.singleton_append, readText]
    · rw [if_neg (by omega)]
    all_goals simp_all
  | @short _ e he =>
    have hu : e ≠ 'u' := by rintro rfl; simp [unescape?] at he
    rw [List.cons_append, List.singleton_append, readText]
    · simp only [he]
    all_goals simp_all
  | unicode hn hl ht =>
    simp only [List.cons_append, List.nil_append, readText, hn, ht, hl, Bool.false_eq_true,
      if_false]

theorem skipText_letter {c : Char} {p : List Char} (h : Letter c p) (t : List Char) :
    skipText (p ++ t) = skipText t := by
  cases h with
  | raw hc hq hb =>
    rw [List.singleton_append, skipText]
    · rw [if_neg (by omega)]
    all_goals simp_all
  | @short _ e he =>
    have hu : e ≠ 'u' := by rintro rfl; simp [unescape?] at he
    rw [List.cons_append, List.singleton_append, skipText]
    · simp [he]
    all_goals simp_all
  | unicode hn hl ht => simp [skipText, hn]

theorem readText_literal {cs t : List Char} (h : Literal cs t) (rest : List Char) :
    readText (t ++ rest) = .ok (cs, rest) := by
  induction h with
  | close => rfl
  | letter hp _ ih => rw [List.append_assoc, readText_letter hp, ih]; rfl

theorem skipText_literal {cs t : List Char} (h : Literal cs t) (rest : List Char) :
    skipText (t ++ rest) = .ok rest := by
  induction h with
  | close => rfl
  | letter hp _ ih => rw [List.append_assoc, skipText_letter hp, ih]

namespace Draft

theorem ofText_literal {s : String} {t : List Char} (h : Literal s.toList t) (rest : List Char) :
    ofText (t ++ rest) = (.str s, some rest) := by
  simp only [ofText, readText_literal h, skipText_literal h, String.ofList_toList]

/-! ## Numbers -/

/-- What follows does not continue a number. -/
def Closes (rest : List Char) : Prop :=
  ∀ c ∈ rest.head?, isDigit c = false ∧ c ≠ '.' ∧ c ≠ 'e' ∧ c ≠ 'E'

theorem closes_nil : Closes [] := by intro c hc; simp at hc

theorem closes_gap {ws rest : List Char} (h : Gap ws) (hr : Closes rest) : Closes (ws ++ rest) := by
  cases ws with
  | nil => exact hr
  | cons c cs =>
    rintro d hd
    obtain rfl : c = d := by simpa using hd
    have hc := h c List.mem_cons_self
    simp only [isSpace, Bool.or_eq_true, beq_iff_eq] at hc
    rcases hc with ((rfl | rfl) | rfl) | rfl <;> decide

theorem closes_cons {c : Char} {rest : List Char}
    (h : isDigit c = false ∧ c ≠ '.' ∧ c ≠ 'e' ∧ c ≠ 'E') : Closes (c :: rest) := by
  rintro d hd
  obtain rfl : c = d := by simpa using hd
  exact h

theorem accumulate_eq {n : Nat} {digits : List Char}
    (h : Nat.ofDigitChars 10 digits n < UInt64.size) :
    accumulate n digits = (Nat.ofDigitChars 10 digits n, []) := by
  induction digits generalizing n with
  | nil => simp [accumulate]
  | cons c cs ih =>
    rw [Nat.ofDigitChars_cons] at h ⊢
    have hle : 10 * n + digitValue c < UInt64.size := by
      rw [Nat.ofDigitChars_eq_ofDigitChars_zero] at h
      have hpos : 0 < 10 ^ cs.length := Nat.pow_pos (by omega)
      have := Nat.le_mul_of_pos_left (10 * n + (c.toNat - '0'.toNat)) hpos
      exact Nat.lt_of_le_of_lt (by unfold digitValue; omega) h
    rw [accumulate]
    simp only [hle, if_true]
    exact ih h

theorem closes_dot {rest : List Char} (h : Closes rest) (more : List Char) :
    rest ≠ '.' :: more ∧ rest ≠ 'e' :: more ∧ rest ≠ 'E' :: more := by
  refine ⟨?_, ?_, ?_⟩ <;> rintro rfl
  · exact (h '.' rfl).2.1 rfl
  · exact (h 'e' rfl).2.2.1 rfl
  · exact (h 'E' rfl).2.2.2 rfl

theorem readUnsigned_decimal (n : UInt64) {rest : List Char} (h : Closes rest) :
    readUnsigned false (decimal n.toNat ++ rest) = .ok (.natural n, rest) := by
  have hd : ∀ c ∈ rest.head?, isDigit c = false := fun c hc => (h c hc).1
  have hacc : accumulate 0 (decimal n.toNat) = (n.toNat, []) := by
    have hval : Nat.ofDigitChars 10 (decimal n.toNat) 0 = n.toNat := Nat.ofDigitChars_ten_toDigits
    rw [accumulate_eq (by rw [hval]; exact n.toNat_lt), hval]
  have hint : integer false n.toNat = .ok (.natural n) := by simp [integer]
  unfold readUnsigned
  simp only [takeWhile_isDigit_decimal _ hd, dropWhile_isDigit_decimal _ hd]
  split
  · next hnil => exact absurd hnil (decimal_ne_nil _)
  · next hz => exact absurd hz (decimal_ne_zero_cons _ _ _)
  · rw [hacc]
    simp only
    split
    · exact absurd rfl (closes_dot h _).1
    · exact absurd rfl (closes_dot h _).2.1
    · exact absurd rfl (closes_dot h _).2.2
    · rw [hint]; rfl

theorem skipWhole_decimal (n : Nat) {rest : List Char} (h : Closes rest) :
    skipWhole (decimal n ++ rest) = .ok rest := by
  have hd : ∀ c ∈ rest.head?, isDigit c = false := fun c hc => (h c hc).1
  unfold skipWhole
  split
  · next c more hz =>
    cases hdec : decimal n with
    | nil => exact absurd hdec (decimal_ne_nil n)
    | cons d ds =>
      rw [hdec, List.cons_append] at hz
      obtain ⟨rfl, hz⟩ := List.cons.inj hz
      cases ds with
      | nil =>
        obtain rfl : rest = c :: more := (List.cons.inj hz).2
        rw [if_neg (by simp [hd c rfl])]
      | cons e es => exact absurd hdec (decimal_ne_zero_cons n e es)
  · rw [skipDigits, takeWhile_isDigit_decimal _ hd, dropWhile_isDigit_decimal _ hd, if_neg]
    simpa using decimal_ne_nil n

theorem skipExponent_closes {rest : List Char} (h : Closes rest) :
    skipExponent rest = .ok rest := by
  unfold skipExponent
  split
  any_goals rfl
  all_goals simp_all [Closes]

theorem skipUnsigned_decimal (n : Nat) {rest : List Char} (h : Closes rest) :
    skipUnsigned (decimal n ++ rest) = .ok rest := by
  unfold skipUnsigned
  rw [skipWhole_decimal n h]
  dsimp only [bind, Except.bind]
  split
  · exact absurd rfl (closes_dot h _).1
  · exact skipExponent_closes h

theorem ofNumber_decimal (n : UInt64) {rest : List Char} (h : Closes rest) :
    ofNumber (decimal n.toNat ++ rest) = (.num (.natural n), some rest) := by
  obtain ⟨c, cs, hdec, hc⟩ := decimal_head n.toNat
  have hne : c ≠ '-' := by rintro rfl; exact absurd hc (by decide)
  have hread : readNumber (decimal n.toNat ++ rest) = .ok (.natural n, rest) := by
    rw [← readUnsigned_decimal n h, hdec, List.cons_append, readNumber]
    simpa using hne
  have hskip : skipNumber (decimal n.toNat ++ rest) = .ok rest := by
    rw [← skipUnsigned_decimal n.toNat h, hdec, List.cons_append, skipNumber]
    simpa using hne
  simp only [ofNumber, hread, hskip]

/-! ## Values -/

theorem scan_gap {ws : List Char} (h : Gap ws) (fuel : Nat) (cs : List Char) :
    scan fuel (ws ++ cs) = scan fuel cs := by
  cases fuel with
  | zero => simp only [scan]
  | succ fuel => rw [scan, scan, skipSpace_gap h]

theorem readKey_key {k : String} {h : List Char} (hk : Key k h) (rest : List Char) :
    ∃ t, h = '"' :: t ∧ readKey (t ++ rest) = .ok (.ok k, rest) := by
  obtain ⟨l, ws, hl, hws, rfl⟩ := hk
  refine ⟨_, rfl, ?_⟩
  have hassoc : l ++ (ws ++ [':']) ++ rest = l ++ (ws ++ ':' :: rest) := by simp
  simp only [readKey, hassoc, readText_literal hl, skipText_literal hl, skipSpace_gap hws,
    skipSpace_cons (c := ':') rfl]
  simp [Except.map, String.ofList_toList]

/-- An array whose first item begins here is scanned item by item. -/
theorem scan_items {t : List Char} (ht : Opens t) {ws : List Char} (hws : Gap ws) (fuel : Nat) :
    scan (fuel + 1) ('[' :: (ws ++ t)) =
      (.arr (scanItems fuel t).1.1 (scanItems fuel t).1.2, (scanItems fuel t).2) := by
  obtain ⟨c, cs, rfl, hc, hb, -⟩ := ht
  rw [scan, skipSpace_cons (by rfl)]
  simp only [Char.reduceEq, if_false, if_true, false_or, skipSpace_gap hws, skipSpace_cons hc]
  rw [if_neg (by decide)]
  split <;> simp_all

/-- An object whose first member begins here is scanned member by member. -/
theorem scan_members {t : List Char} {ws : List Char} (hws : Gap ws) (fuel : Nat) :
    scan (fuel + 1) ('\x7b' :: (ws ++ '"' :: t)) =
      (.obj (scanMembers fuel ('"' :: t)).1.1 (scanMembers fuel ('"' :: t)).1.2,
        (scanMembers fuel ('"' :: t)).2) := by
  rw [scan, skipSpace_cons (by rfl)]
  simp only [Char.reduceEq, if_false, if_true, false_or, skipSpace_gap hws,
    skipSpace_cons (c := '"') rfl]
  rw [if_neg (by decide)]
  rfl

theorem scan_decimal (n : UInt64) {rest : List Char} (h : Closes rest) (fuel : Nat) :
    scan (fuel + 1) (decimal n.toNat ++ rest) = (.num (.natural n), some rest) := by
  obtain ⟨c, cs, hdec, hc⟩ := decimal_head n.toNat
  have hnot : c ≠ '"' ∧ c ≠ 'n' ∧ c ≠ 't' ∧ c ≠ 'f' := by
    refine ⟨?_, ?_, ?_, ?_⟩ <;> rintro rfl <;> exact absurd hc (by decide)
  rw [scan, skipSpace_opens ((opens_decimal n.toNat).append rest), hdec, List.cons_append]
  simp only [hnot.1, hnot.2.1, hnot.2.2.1, hnot.2.2.2, hc, or_true, if_false, if_true]
  rw [← List.cons_append, ← hdec, ofNumber_decimal n h]

/-! ## Items and members -/

section

variable {key : Except Fault String} {d : Draft} {fuel : Nat} {cs t ws ws' rest : List Char}

/-- An item with the end of the array behind it. -/
theorem scanItems_last (h : scan fuel t = (d, some (ws ++ ']' :: rest))) (hws : Gap ws) :
    scanItems (fuel + 1) t = (([d], none), some rest) := by
  rw [scanItems, h]
  simp only [skipSpace_gap hws, skipSpace_cons (c := ']') rfl]

/-- An item with a comma behind it. -/
theorem scanItems_next (h : scan fuel t = (d, some (ws ++ ',' :: (ws' ++ rest)))) (hws : Gap ws)
    (hws' : Gap ws') (hskip : skipSpace rest = rest) (hclose : ∀ cs, rest ≠ ']' :: cs) :
    scanItems (fuel + 1) t =
      ((d :: (scanItems fuel rest).1.1, (scanItems fuel rest).1.2), (scanItems fuel rest).2) := by
  rw [scanItems, h]
  simp only [skipSpace_gap hws, skipSpace_cons (c := ',') rfl, skipSpace_gap hws', hskip]

/-- A member with the end of the object behind it. -/
theorem scanMembers_last (hkey : readKey cs = .ok (key, t))
    (h : scan fuel t = (d, some (ws ++ '\x7d' :: rest))) (hws : Gap ws) :
    scanMembers (fuel + 1) ('"' :: cs) = (([(key, d)], none), some rest) := by
  simp only [scanMembers, hkey, h, skipSpace_gap hws, skipSpace_cons (c := '\x7d') rfl]

/-- A member with a comma behind it. -/
theorem scanMembers_next (hkey : readKey cs = .ok (key, t))
    (h : scan fuel t = (d, some (ws ++ ',' :: (ws' ++ rest)))) (hws : Gap ws) (hws' : Gap ws')
    (hskip : skipSpace rest = rest) :
    scanMembers (fuel + 1) ('"' :: cs) =
      (((key, d) :: (scanMembers fuel rest).1.1, (scanMembers fuel rest).1.2),
        (scanMembers fuel rest).2) := by
  simp only [scanMembers, hkey, h, skipSpace_gap hws, skipSpace_cons (c := ',') rfl,
    skipSpace_gap hws', hskip]

end

/-! ## Values -/

mutual

/-- A text of a value is scanned to the value and what follows it. -/
theorem scan_spells : ∀ {v : Json} {t : List Char}, Spells v t → ∀ (fuel : Nat) (rest : List Char),
    t.length ≤ fuel → Closes rest → scan fuel (t ++ rest) = (ofJson v, some rest)
  | _, _, .null, fuel + 1, rest, _, _ => by simp [scan, skipSpace, isSpace, ofName, readName, ofJson]
  | _, _, .yes, fuel + 1, rest, _, _ => by simp [scan, skipSpace, isSpace, ofName, readName, ofJson]
  | _, _, .no, fuel + 1, rest, _, _ => by simp [scan, skipSpace, isSpace, ofName, readName, ofJson]
  | _, _, @Spells.num n, fuel, rest, hf, hr => by
    obtain ⟨c, cs, hdec, -⟩ := decimal_head n.toNat
    rw [hdec, List.length_cons] at hf
    obtain ⟨fuel, rfl⟩ : ∃ f, fuel = f + 1 := ⟨fuel - 1, by omega⟩
    rw [scan_decimal n hr, ofJson]
  | _, _, .str h, fuel + 1, rest, _, _ => by
    rw [List.cons_append, scan, skipSpace_cons (by rfl)]
    simp only [if_true]
    rw [ofText_literal h, ofJson]
  | _, _, .noItems hws, fuel + 1, rest, _, _ => by
    rw [List.cons_append, List.append_assoc, scan, skipSpace_cons (by rfl)]
    simp only [Char.reduceEq, if_false, if_true, false_or, skipSpace_gap hws]
    rw [if_neg (by decide), List.singleton_append, skipSpace_cons (by rfl)]
    rfl
  | _, _, .arr hws hs, fuel + 1, rest, hf, _ => by
    rw [List.length_cons, List.length_append] at hf
    rw [List.cons_append, List.append_assoc, scan_items (hs.opens.append rest) hws,
      scanItems_spells hs fuel rest (by omega)]
    rfl
  | _, _, .noMembers hws, fuel + 1, rest, _, _ => by
    rw [List.cons_append, List.append_assoc, scan, skipSpace_cons (by rfl)]
    simp only [Char.reduceEq, if_false, if_true, false_or, skipSpace_gap hws]
    rw [if_neg (by decide), List.singleton_append, skipSpace_cons (by rfl)]
    rfl
  | _, _, .obj hws hs, fuel + 1, rest, hf, _ => by
    rw [List.length_cons, List.length_append] at hf
    have hm := scanMembers_spells hs fuel rest (by omega)
    obtain ⟨r, hr⟩ := hs.eq_cons
    rw [hr, List.cons_append] at hm
    rw [List.cons_append, List.append_assoc, hr, List.cons_append, scan_members hws, hm]
    rfl

theorem scanItems_spells : ∀ {vs : List Json} {t : List Char}, SpellsItems vs t →
    ∀ (fuel : Nat) (rest : List Char), t.length ≤ fuel →
      scanItems fuel (t ++ rest) = ((ofItems vs, none), some rest)
  | _, _, @SpellsItems.last v t ws h hws, fuel, rest, hf => by
    simp only [List.length_append, List.length_cons, List.length_nil] at hf
    obtain ⟨fuel, rfl⟩ : ∃ f, fuel = f + 1 := ⟨fuel - 1, by omega⟩
    have hv := scan_spells h fuel (ws ++ ']' :: rest) (by omega)
      (closes_gap hws (closes_cons (by decide)))
    rw [show t ++ (ws ++ [']']) ++ rest = t ++ (ws ++ ']' :: rest) by simp]
    exact scanItems_last hv hws
  | _, _, @SpellsItems.next v vs t ws ws' r h hws hws' hs, fuel, rest, hf => by
    simp only [List.length_append, List.length_cons] at hf
    obtain ⟨fuel, rfl⟩ : ∃ f, fuel = f + 1 := ⟨fuel - 1, by omega⟩
    have hv := scan_spells h fuel (ws ++ ',' :: (ws' ++ (r ++ rest))) (by omega)
      (closes_gap hws (closes_cons (by decide)))
    have hopens := hs.opens.append rest
    rw [show t ++ (ws ++ ',' :: (ws' ++ r)) ++ rest = t ++ (ws ++ ',' :: (ws' ++ (r ++ rest))) by
      simp, scanItems_next hv hws hws' (skipSpace_opens hopens) hopens.not_closing,
      scanItems_spells hs fuel rest (by omega), ofItems]

theorem scanMembers_spells : ∀ {ms : List (String × Json)} {t : List Char}, SpellsMembers ms t →
    ∀ (fuel : Nat) (rest : List Char), t.length ≤ fuel →
      scanMembers fuel (t ++ rest) = ((ofMembers ms, none), some rest)
  | _, _, @SpellsMembers.last k v h ws' t ws hk hws' hv hws, fuel, rest, hf => by
    simp only [List.length_append, List.length_cons, List.length_nil] at hf
    obtain ⟨fuel, rfl⟩ : ∃ f, fuel = f + 1 := ⟨fuel - 1, by omega⟩
    have hv := scan_spells hv fuel (ws ++ '\x7d' :: rest) (by omega)
      (closes_gap hws (closes_cons (by decide)))
    rw [← scan_gap hws'] at hv
    obtain ⟨l, rfl, hkey⟩ := readKey_key hk (ws' ++ (t ++ (ws ++ '\x7d' :: rest)))
    rw [show '"' :: l ++ (ws' ++ (t ++ (ws ++ ['\x7d']))) ++ rest =
      '"' :: (l ++ (ws' ++ (t ++ (ws ++ '\x7d' :: rest)))) by simp]
    exact scanMembers_last hkey hv hws
  | _, _, @SpellsMembers.next k v ms h ws' t ws ws'' r hk hws' hv hws hws'' hs, fuel, rest, hf => by
    simp only [List.length_append, List.length_cons] at hf
    obtain ⟨fuel, rfl⟩ : ∃ f, fuel = f + 1 := ⟨fuel - 1, by omega⟩
    have hv := scan_spells hv fuel (ws ++ ',' :: (ws'' ++ (r ++ rest))) (by omega)
      (closes_gap hws (closes_cons (by decide)))
    rw [← scan_gap hws'] at hv
    obtain ⟨l, rfl, hkey⟩ := readKey_key hk (ws' ++ (t ++ (ws ++ ',' :: (ws'' ++ (r ++ rest)))))
    rw [show '"' :: l ++ (ws' ++ (t ++ (ws ++ ',' :: (ws'' ++ r)))) ++ rest =
      '"' :: (l ++ (ws' ++ (t ++ (ws ++ ',' :: (ws'' ++ (r ++ rest)))))) by simp,
      scanMembers_next hkey hv hws hws'' (skipSpace_opens (hs.opens.append rest)),
      scanMembers_spells hs fuel rest (by omega), ofMembers]

end

/-! ## Whole texts -/

/-- A whole text of a value, with blanks around it, has nothing behind the value. -/
theorem ofText?_spells {v : Json} {t ws ws' : List Char} (h : Spells v t) (hws : Gap ws)
    (hws' : Gap ws') : ofText? (ws ++ (t ++ ws')) = (ofJson v, false) := by
  have hscan := scan_spells h (2 * (ws ++ (t ++ ws')).length + 1) ws'
    (by simp only [List.length_append]; omega) (by
      have := closes_gap hws' closes_nil
      rwa [List.append_nil] at this)
  rw [ofText?, scan_gap hws, hscan]
  simp only [skipSpace_eq_nil hws', List.isEmpty_nil, Bool.not_true]

mutual

/-- The value of the draft of a value. -/
theorem toJson_ofJson : ∀ (v : Json) {n : Nat}, depth v ≤ n → (ofJson v).toJson n = .ok v
  | .null, n, _ | .bool _, n, _ | .num _, n, _ | .str _, n, _ => by rw [ofJson, toJson]
  | .arr vs, n + 1, hn => by
    rw [depth] at hn
    rw [ofJson, toJson, toItems_ofItems vs (Nat.le_of_succ_le_succ hn)]
    rfl
  | .obj ms, n + 1, hn => by
    rw [depth] at hn
    rw [ofJson, toJson, toMembers_ofMembers ms (Nat.le_of_succ_le_succ hn)]
    rfl

theorem toItems_ofItems : ∀ (vs : List Json) {n : Nat}, depthOfItems vs ≤ n →
    toItems n (ofItems vs) = .ok vs
  | [], n, _ => by rw [ofItems, toItems]
  | v :: vs, n, hn => by
    rw [depthOfItems, Nat.max_le] at hn
    rw [ofItems, toItems, toJson_ofJson v hn.1, toItems_ofItems vs hn.2]
    rfl

theorem toMembers_ofMembers : ∀ (ms : List (String × Json)) {n : Nat}, depthOfMembers ms ≤ n →
    toMembers n (ofMembers ms) = .ok ms
  | [], n, _ => by rw [ofMembers, toMembers]
  | (k, v) :: ms, n, hn => by
    rw [depthOfMembers, Nat.max_le] at hn
    rw [ofMembers, toMembers, toJson_ofJson v hn.1, toMembers_ofMembers ms hn.2]
    rfl

end

end Draft

end EdmxGen.Json
