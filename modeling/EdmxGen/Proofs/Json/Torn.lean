import EdmxGen.Proofs.Json.Reading

/-!
# Texts that break off

A text of a value that breaks off shows a draft of which some beginning stands as it was written and
the rest is missing (`Torn`). Whoever reads all of it learns that the text has ended too early
(`toJson_torn`), wherever it breaks off.
-/

namespace EdmxGen.Json

open Text

/-! ## Strings that break off -/

theorem utf8Size_of_hexValue? {c : Char} (h : (hexValue? c).isSome) : c.utf8Size = 1 := by
  have hle : c ≤ 'f' := by
    unfold hexValue? at h
    split at h
    · next hd =>
      simp only [isDigit, Bool.and_eq_true, decide_eq_true_eq] at hd
      exact Char.le_trans hd.2 (by decide)
    · split at h
      · next hd => exact hd.2
      · split at h
        · next hd => exact Char.le_trans hd.2 (by decide)
        · simp at h
  rw [Char.utf8Size_eq_one_iff]
  exact UInt32.le_trans hle (by decide)

theorem shortEscape_of_hex {cs : List Char} (hcs : ∀ c ∈ cs, (hexValue? c).isSome)
    (h : cs.length < 4) : shortEscape cs = .ended := by
  have hlen : ∀ ds : List Char, (∀ c ∈ ds, (hexValue? c).isSome) →
      Utf8.byteLength ds = ds.length := by
    intro ds hds
    induction ds with
    | nil => rfl
    | cons d ds ih =>
      have hd := utf8Size_of_hexValue? (hds d List.mem_cons_self)
      have := ih fun c hc => hds c (List.mem_cons_of_mem _ hc)
      simp only [Utf8.byteLength, Utf8.encode, List.flatMap_cons, List.length_append,
        String.length_utf8EncodeChar, List.length_cons] at this ⊢
      omega
  rw [shortEscape, List.take_of_length_le (by omega), hlen cs hcs, if_pos h]

theorem hexValue?_of_hex4? {a b c d : Char} {n : Nat} (h : hex4? a b c d = some n) :
    ∀ e ∈ [a, b, c, d], (hexValue? e).isSome := by
  simp only [hex4?, Option.bind_eq_bind, Option.bind_eq_some_iff] at h
  obtain ⟨_, ha, _, hb, _, hc, _, hd, -⟩ := h
  simp [ha, hb, hc, hd]

/-- A string that breaks off inside the spelling of a character. -/
theorem readText_letter_torn {c : Char} {p a b : List Char} (h : Letter c p) (hp : p = a ++ b)
    (hb : b ≠ []) : readText a = .error .ended ∧ skipText a = .error .ended := by
  cases h with
  | raw _ _ _ =>
    cases a with
    | nil => exact ⟨rfl, rfl⟩
    | cons d ds => simp_all
  | short _ =>
    match a with
    | [] => exact ⟨rfl, rfl⟩
    | [d] =>
      obtain ⟨rfl, -⟩ := List.cons.inj hp
      exact ⟨rfl, rfl⟩
    | d :: e :: ds => simp_all
  | unicode hn _ _ =>
    have hhex := hexValue?_of_hex4? hn
    match a with
    | [] => exact ⟨rfl, rfl⟩
    | [d] =>
      obtain ⟨rfl, -⟩ := List.cons.inj hp
      exact ⟨rfl, rfl⟩
    | d :: e :: ds =>
      simp only [List.cons_append, List.cons.injEq] at hp
      obtain ⟨rfl, rfl, hp⟩ := hp
      have hlen : ds.length < 4 := by
        have h4 := congrArg List.length hp
        have hpos := List.length_pos_iff.2 hb
        simp only [List.length_cons, List.length_nil, List.length_append] at h4
        omega
      have hshort : shortEscape ds = .ended :=
        shortEscape_of_hex (fun e he => hhex e (by rw [hp]; exact List.mem_append_left _ he)) hlen
      match ds, hlen with
      | [], _ | [_], _ | [_, _], _ | [_, _, _], _ =>
        simp only [readText, skipText, hshort, and_self]

/-- A string that breaks off before its closing quote. -/
theorem readText_literal_torn {cs t : List Char} (h : Literal cs t) :
    ∀ {a b : List Char}, t = a ++ b → b ≠ [] →
      readText a = .error .ended ∧ skipText a = .error .ended := by
  induction h with
  | close =>
    intro a b ht hb
    cases a with
    | nil => exact ⟨rfl, rfl⟩
    | cons d ds => simp_all
  | @letter c cs p t hp _ ih =>
    intro a b ht hb
    rcases List.append_eq_append_iff.1 ht with ⟨a', rfl, hab⟩ | ⟨b', hpa, -⟩
    · obtain ⟨hr, hs⟩ := ih hab hb
      rw [readText_letter hp, skipText_letter hp, hr, hs]
      exact ⟨rfl, rfl⟩
    · cases b' with
      | nil =>
        rw [List.append_nil] at hpa
        have hr := readText_letter hp []
        have hs := skipText_letter hp []
        rw [List.append_nil, hpa] at hr hs
        exact ⟨hr, hs⟩
      | cons e es => exact readText_letter_torn hp hpa (by simp)

/-! ## Where texts break off -/

/-- A beginning of two texts in a row ends inside the first or behind it. -/
theorem split_append {x y a b : List Char} (h : x ++ y = a ++ b) :
    (∃ r, x = a ++ r ∧ r ≠ []) ∨ ∃ r, a = x ++ r ∧ y = r ++ b := by
  rcases List.append_eq_append_iff.1 h with ⟨r, ha, hy⟩ | ⟨r, hx, hb⟩
  · exact Or.inr ⟨r, ha, hy⟩
  · cases r with
    | nil => exact Or.inr ⟨[], by simpa using hx.symm, by simpa using hb.symm⟩
    | cons c cs => exact Or.inl ⟨_, hx, by simp⟩

/-- A beginning of blanks and a text is some blanks and a beginning of the text. -/
theorem split_gap {ws t a b : List Char} (hws : Gap ws) (ht : t ≠ []) (h : ws ++ t = a ++ b)
    (hb : b ≠ []) : ∃ u q b', Gap u ∧ a = u ++ q ∧ t = q ++ b' ∧ b' ≠ [] := by
  rcases split_append h with ⟨r, hr, -⟩ | ⟨r, hr, hy⟩
  · have ha : Gap a := fun c hc => hws c (by rw [hr]; exact List.mem_append_left _ hc)
    exact ⟨a, [], t, ha, (List.append_nil a).symm, rfl, ht⟩
  · exact ⟨ws, r, b, hws, hr, hy, hb⟩

/-- What stands before the one character that closes a text. -/
theorem gap_of_split {ws a b : List Char} {c : Char} (hws : Gap ws) (h : ws ++ [c] = a ++ b)
    (hb : b ≠ []) : Gap a := by
  obtain ⟨u, q, b', hu, rfl, hq, hb'⟩ := split_gap hws (by simp) h hb
  cases q with
  | nil => rwa [List.append_nil]
  | cons d ds => simp_all

/-- What stands before the next item or member. -/
theorem split_comma {ws ws' r a b : List Char} (hws : Gap ws) (hws' : Gap ws') (hr : r ≠ [])
    (h : ws ++ ',' :: (ws' ++ r) = a ++ b) (hb : b ≠ []) :
    Gap a ∨ ∃ u u' q b', Gap u ∧ Gap u' ∧ a = u ++ ',' :: (u' ++ q) ∧ r = q ++ b' ∧ b' ≠ [] := by
  obtain ⟨u, q, b', hu, rfl, hq, hb'⟩ := split_gap hws (by simp) h hb
  cases q with
  | nil => exact Or.inl (by rwa [List.append_nil])
  | cons d ds =>
    simp only [List.cons_append, List.cons.injEq] at hq
    obtain ⟨rfl, hq⟩ := hq
    obtain ⟨u', q, b'', hu', rfl, hq', hb''⟩ := split_gap hws' hr hq hb'
    exact Or.inr ⟨u, u', q, b'', hu, hu', rfl, hq', hb''⟩

theorem Opens.of_append {t a b : List Char} (h : Opens t) (ht : t = a ++ b) : a = [] ∨ Opens a := by
  obtain ⟨c, cs, rfl, hc⟩ := h
  cases a with
  | nil => exact Or.inl rfl
  | cons d ds =>
    obtain ⟨rfl, -⟩ := List.cons.inj ht
    exact Or.inr ⟨c, ds, rfl, hc⟩

/-- What is left of a text that breaks off begins with neither a blank nor the end of an array. -/
theorem Opens.left_of_append {t a b : List Char} (h : Opens t) (ht : t = a ++ b) :
    skipSpace a = a ∧ ∀ cs, a ≠ ']' :: cs := by
  rcases h.of_append ht with rfl | hopens
  · exact ⟨rfl, fun cs heq => nomatch heq⟩
  · exact ⟨skipSpace_opens hopens, hopens.not_closing⟩

theorem Opens.ne_nil {t : List Char} (h : Opens t) : t ≠ [] := by
  obtain ⟨c, cs, rfl, -⟩ := h
  simp

namespace Draft

/-! ## Drafts of texts that break off -/

/-- What is seen of a value that was read to its end; a number may have lost digits. -/
def Whole (v : Json) (d : Draft) : Prop := d = ofJson v ∨ ∃ m n, v = .num m ∧ d = .num n

mutual

/-- What is seen of a value whose text breaks off. -/
inductive Torn : Json → Draft → Prop
  | ended {v : Json} {flaw : Flaw} : flaw.fault = .ended → Torn v (.flawed flaw)
  | arr {vs : List Json} {ds : List Draft} {stop : Option Flaw} : TornItems vs ds stop →
      Torn (.arr vs) (.arr ds stop)
  | obj {ms : List (String × Json)} {ds : List Member} {stop : Option Flaw} :
      TornMembers ms ds stop → Torn (.obj ms) (.obj ds stop)

inductive TornItems : List Json → List Draft → Option Flaw → Prop
  | stop {vs : List Json} {flaw : Flaw} : flaw.fault = .ended → TornItems vs [] (some flaw)
  | item {v : Json} {vs : List Json} {d : Draft} {stop : Option Flaw} : Torn v d →
      TornItems (v :: vs) [d] stop
  | next {v : Json} {vs : List Json} {d : Draft} {ds : List Draft} {stop : Option Flaw} :
      Whole v d → TornItems vs ds stop → TornItems (v :: vs) (d :: ds) stop

inductive TornMembers : List (String × Json) → List Member → Option Flaw → Prop
  | stop {ms : List (String × Json)} {flaw : Flaw} : flaw.fault = .ended →
      TornMembers ms [] (some flaw)
  | key {ms : List (String × Json)} {d : Draft} {stop : Option Flaw} :
      TornMembers ms [(.error .ended, d)] stop
  | item {k : String} {v : Json} {ms : List (String × Json)} {d : Draft} {stop : Option Flaw} :
      Torn v d → TornMembers ((k, v) :: ms) [(.ok k, d)] stop
  | next {k : String} {v : Json} {ms : List (String × Json)} {d : Draft} {ds : List Member}
      {stop : Option Flaw} : Whole v d → TornMembers ms ds stop →
      TornMembers ((k, v) :: ms) ((.ok k, d) :: ds) stop

end

/-! ## Scanning -/

theorem torn_final {v : Json} : Torn v (.flawed (.final .ended)) := Torn.ended rfl

theorem scan_nil (fuel : Nat) : scan fuel [] = (.flawed (.final .ended), none) := by
  cases fuel <;> simp [scan, skipSpace]

theorem ofText_literal_torn {s : String} {t a b : List Char} (h : Literal s.toList t)
    (ht : t = a ++ b) (hb : b ≠ []) : ∃ d, ofText a = (d, none) ∧ Torn (.str s) d := by
  obtain ⟨hr, hs⟩ := readText_literal_torn h ht hb
  refine ⟨.flawed ⟨.text, .ended, some .ended, none⟩, ?_, Torn.ended rfl⟩
  simp only [ofText, hr, hs]

theorem ofName_torn {v : Json} {value : Draft} {name : String} {cs a b : List Char}
    (hname : name.toList = cs) (h : cs = a ++ b) (hb : b ≠ []) :
    ∃ d, ofName value name a = (d, none) ∧ Torn v d := by
  have hread : ∀ {cs a : List Char}, cs = a ++ b → readName cs a = .error .ended := by
    intro cs a h
    induction a generalizing cs with
    | nil =>
      obtain ⟨c, ds, rfl⟩ := List.exists_cons_of_ne_nil hb
      rw [h, List.nil_append, readName]
    | cons c cs ih => rw [h, List.cons_append, readName, if_pos rfl, ih rfl]
  refine ⟨.flawed ⟨.token, .ended, some .ended, none⟩, ?_, Torn.ended rfl⟩
  simp only [ofName, hname, hread h]

/-- A key that breaks off, up to its colon. -/
theorem readKey_torn {k : String} {h a b : List Char} (hk : Key k h) (ht : h = a ++ b)
    (hb : b ≠ []) :
    a = [] ∨ ∃ cs m, a = '"' :: cs ∧ readKey cs = .error m ∧
      (m.1 = .error .ended ∨ m.1 = .ok k ∧ ∀ v, Torn v m.2) := by
  obtain ⟨l, ws, hl, hws, rfl⟩ := hk
  cases a with
  | nil => exact Or.inl rfl
  | cons c cs =>
    simp only [List.cons_append, List.cons.injEq] at ht
    obtain ⟨rfl, ht⟩ := ht
    refine Or.inr ⟨cs, ?_⟩
    rcases split_append ht with ⟨r, hlr, hr⟩ | ⟨r, rfl, hr⟩
    · obtain ⟨hread, hskip⟩ := readText_literal_torn hl hlr hr
      refine ⟨noKey .ended .ended none, rfl, ?_, Or.inl rfl⟩
      simp only [readKey, hread, hskip, Except.map]
    · -- the string is whole, and blanks are all that follows it
      have hgap : Gap r := gap_of_split hws hr hb
      refine ⟨(.ok k, .flawed (.final .ended)), rfl, ?_, Or.inr ⟨rfl, fun v => torn_final⟩⟩
      simp only [readKey, readText_literal hl, skipText_literal hl, skipSpace_eq_nil hgap,
        Except.map, String.ofList_toList]

/-- What is seen of a value that breaks off: a part, or a number that has lost digits. -/
def Breaks (v : Json) (r : Scanned Draft) : Prop :=
  (∃ d, r = (d, none) ∧ Torn v d) ∨ ∃ m n, v = .num m ∧ r = (.num n, some [])

theorem breaks_nil (v : Json) (fuel : Nat) : Breaks v (scan fuel []) := by
  rw [scan_nil]
  exact Or.inl ⟨_, rfl, torn_final⟩

theorem breaks_decimal (n : UInt64) {a b : List Char} (h : decimal n.toNat = a ++ b) (fuel : Nat)
    (hf : 0 < fuel) : Breaks (.num (.natural n)) (scan fuel a) := by
  by_cases ha : a = []
  · rw [ha]
    exact breaks_nil _ _
  · obtain ⟨m, hle, hm⟩ := exists_of_prefix_decimal ⟨b, h.symm⟩ ha
    obtain ⟨fuel, rfl⟩ : ∃ f, fuel = f + 1 := ⟨fuel - 1, by omega⟩
    have hlt : m < UInt64.size := Nat.lt_of_le_of_lt hle n.toNat_lt
    have hscan := scan_decimal (UInt64.ofNat m) closes_nil fuel
    rw [UInt64.toNat_ofNat_of_lt' hlt, List.append_nil, ← hm] at hscan
    exact Or.inr ⟨_, _, rfl, hscan⟩

/-- Items of which the first is all there, with nothing but blanks behind it. -/
theorem scanItems_gap {fuel : Nat} {a q : List Char} {d : Draft} (h : scan fuel a = (d, some q))
    (hq : Gap q) : scanItems (fuel + 1) a = (([d], some (.final .ended)), none) := by
  rw [scanItems, h]
  simp only [skipSpace_eq_nil hq]

theorem scanItems_breaks {v : Json} {vs : List Json} {fuel : Nat} {a : List Char}
    (h : Breaks v (scan fuel a)) : ∃ ds stop,
      scanItems (fuel + 1) a = ((ds, stop), none) ∧ TornItems (v :: vs) ds stop := by
  rcases h with ⟨d, hd, ht⟩ | ⟨m, n, rfl, hd⟩
  · exact ⟨_, _, by rw [scanItems, hd], TornItems.item ht⟩
  · exact ⟨_, _, scanItems_gap hd gap_nil,
      TornItems.next (Or.inr ⟨m, n, rfl, rfl⟩) (TornItems.stop rfl)⟩

/-- A member that is all there, with nothing but blanks behind it. -/
theorem scanMembers_gap {k : String} {fuel : Nat} {cs a q : List Char} {d : Draft}
    (hk : readKey cs = .ok (.ok k, a)) (h : scan fuel a = (d, some q)) (hq : Gap q) :
    scanMembers (fuel + 1) ('"' :: cs) = (([(.ok k, d)], some (.final .ended)), none) := by
  simp only [scanMembers, hk, h, skipSpace_eq_nil hq]

theorem scanMembers_breaks {k : String} {v : Json} {ms : List (String × Json)} {fuel : Nat}
    {cs a : List Char} (hk : readKey cs = .ok (.ok k, a)) (h : Breaks v (scan fuel a)) :
    ∃ ds stop, scanMembers (fuel + 1) ('"' :: cs) = ((ds, stop), none) ∧
      TornMembers ((k, v) :: ms) ds stop := by
  rcases h with ⟨d, hd, ht⟩ | ⟨m, n, rfl, hd⟩
  · refine ⟨[(.ok k, d)], some (.final .ended), ?_, TornMembers.item ht⟩
    simp only [scanMembers, hk, hd]
  · exact ⟨_, _, scanMembers_gap hk hd gap_nil,
      TornMembers.next (Or.inr ⟨m, n, rfl, rfl⟩) (TornMembers.stop rfl)⟩

/-- An array that breaks off before its first item. -/
theorem scan_items_gap {ws : List Char} (h : Gap ws) (fuel : Nat) :
    scan (fuel + 1) ('[' :: ws) = (.arr [] (some (.final .ended)), none) := by
  rw [scan, skipSpace_cons (by rfl)]
  simp only [Char.reduceEq, if_false, if_true, false_or, skipSpace_eq_nil h]
  rfl

/-- An object that breaks off before its first member. -/
theorem scan_members_gap {ws : List Char} (h : Gap ws) (fuel : Nat) :
    scan (fuel + 1) ('\x7b' :: ws) = (.obj [] (some (.final .ended)), none) := by
  rw [scan, skipSpace_cons (by rfl)]
  simp only [Char.reduceEq, if_false, if_true, false_or, skipSpace_eq_nil h]
  rfl

theorem closes_of_gap {ws : List Char} (h : Gap ws) : Closes ws := by
  have := closes_gap h closes_nil
  rwa [List.append_nil] at this

/-- Members that break off inside a key. -/
theorem scanMembers_key_torn {k : String} {v : Json} {ms : List (String × Json)}
    {h a b : List Char} (hk : Key k h) (ht : h = a ++ b) (hb : b ≠ []) (fuel : Nat) :
    ∃ ds stop, scanMembers (fuel + 1) a = ((ds, stop), none) ∧
      TornMembers ((k, v) :: ms) ds stop := by
  rcases readKey_torn hk ht hb with rfl | ⟨cs, ⟨key, d⟩, rfl, hread, hm⟩
  · exact ⟨_, _, by rw [scanMembers]; rfl, TornMembers.key⟩
  · have hscan : scanMembers (fuel + 1) ('"' :: cs) = (([(key, d)], none), none) := by
      simp only [scanMembers, hread]
    rcases hm with rfl | ⟨rfl, htorn⟩
    · exact ⟨_, _, hscan, TornMembers.key⟩
    · exact ⟨_, _, hscan, TornMembers.item (htorn v)⟩

mutual

/-- A text of a value that breaks off is scanned to what is left of the value. -/
theorem scan_torn : ∀ {v : Json} {t : List Char}, Spells v t → ∀ (fuel : Nat) {a b : List Char},
    t = a ++ b → b ≠ [] → 2 * a.length < fuel → Breaks v (scan fuel a)
  | v, _, _, fuel, [], _, _, _, _ => breaks_nil v fuel
  | _, _, .null, fuel + 1, c :: cs, b, ht, hb, _ => by
    obtain ⟨rfl, hcs⟩ := List.cons.inj ht
    have hname : "ull".toList = ['u', 'l', 'l'] := rfl
    obtain ⟨d, hd, h⟩ := ofName_torn hname hcs hb
    rw [scan, skipSpace_cons (by rfl)]
    exact Or.inl ⟨d, hd, h⟩
  | _, _, .yes, fuel + 1, c :: cs, b, ht, hb, _ => by
    obtain ⟨rfl, hcs⟩ := List.cons.inj ht
    have hname : "rue".toList = ['r', 'u', 'e'] := rfl
    obtain ⟨d, hd, h⟩ := ofName_torn hname hcs hb
    rw [scan, skipSpace_cons (by rfl)]
    exact Or.inl ⟨d, hd, h⟩
  | _, _, .no, fuel + 1, c :: cs, b, ht, hb, _ => by
    obtain ⟨rfl, hcs⟩ := List.cons.inj ht
    have hname : "alse".toList = ['a', 'l', 's', 'e'] := rfl
    obtain ⟨d, hd, h⟩ := ofName_torn hname hcs hb
    rw [scan, skipSpace_cons (by rfl)]
    exact Or.inl ⟨d, hd, h⟩
  | _, _, .num, fuel, c :: cs, b, ht, _, hf => breaks_decimal _ ht fuel (by omega)
  | _, _, .str h, fuel + 1, c :: cs, b, ht, hb, _ => by
    obtain ⟨rfl, hcs⟩ := List.cons.inj ht
    obtain ⟨d, hd, h⟩ := ofText_literal_torn h hcs hb
    rw [scan, skipSpace_cons (by rfl)]
    exact Or.inl ⟨d, hd, h⟩
  | _, _, .noItems hws, fuel + 1, c :: cs, b, ht, hb, _ => by
    obtain ⟨rfl, hcs⟩ := List.cons.inj ht
    rw [scan_items_gap (gap_of_split hws hcs hb)]
    exact Or.inl ⟨_, rfl, Torn.arr (TornItems.stop rfl)⟩
  | _, _, .arr hws hs, fuel + 1, c :: cs, b, ht, hb, hf => by
    obtain ⟨rfl, hcs⟩ := List.cons.inj ht
    obtain ⟨u, q, b', hu, rfl, hq, hb'⟩ := split_gap hws hs.opens.ne_nil hcs hb
    rcases hs.opens.of_append hq with rfl | ho
    · rw [List.append_nil, scan_items_gap hu]
      exact Or.inl ⟨_, rfl, Torn.arr (TornItems.stop rfl)⟩
    · simp only [List.length_cons, List.length_append] at hf
      obtain ⟨ds, stop, hds, htorn⟩ := scanItems_torn hs fuel hq hb' (by omega)
      rw [scan_items ho hu, hds]
      exact Or.inl ⟨_, rfl, Torn.arr htorn⟩
  | _, _, .noMembers hws, fuel + 1, c :: cs, b, ht, hb, _ => by
    obtain ⟨rfl, hcs⟩ := List.cons.inj ht
    rw [scan_members_gap (gap_of_split hws hcs hb)]
    exact Or.inl ⟨_, rfl, Torn.obj (TornMembers.stop rfl)⟩
  | _, _, .obj hws hs, fuel + 1, c :: cs, b, ht, hb, hf => by
    obtain ⟨rfl, hcs⟩ := List.cons.inj ht
    obtain ⟨r, hr⟩ := hs.eq_cons
    obtain ⟨u, q, b', hu, rfl, hq, hb'⟩ := split_gap hws hs.opens.ne_nil hcs hb
    cases q with
    | nil =>
      rw [List.append_nil, scan_members_gap hu]
      exact Or.inl ⟨_, rfl, Torn.obj (TornMembers.stop rfl)⟩
    | cons d q =>
      obtain rfl : '"' = d := (List.cons.inj (hr.symm.trans hq)).1
      simp only [List.length_cons, List.length_append] at hf
      obtain ⟨ds, stop, hds, htorn⟩ :=
        scanMembers_torn hs fuel hq hb' (by simp only [List.length_cons]; omega)
      rw [scan_members hu, hds]
      exact Or.inl ⟨_, rfl, Torn.obj htorn⟩

theorem scanItems_torn : ∀ {vs : List Json} {t : List Char}, SpellsItems vs t →
    ∀ (fuel : Nat) {a b : List Char}, t = a ++ b → b ≠ [] → 2 * a.length + 1 < fuel →
      ∃ ds stop, scanItems fuel a = ((ds, stop), none) ∧ TornItems vs ds stop
  | _, _, @SpellsItems.last v t ws h hws, fuel + 1, a, b, ht, hb, hf => by
    rcases split_append ht with ⟨r, hr, hne⟩ | ⟨r, rfl, hr⟩
    · exact scanItems_breaks (scan_torn h fuel hr hne (by omega))
    · have hgap := gap_of_split hws hr hb
      rw [List.length_append] at hf
      have hv := scan_spells h fuel r (by omega) (closes_of_gap hgap)
      exact ⟨_, _, scanItems_gap hv hgap, TornItems.next (Or.inl rfl) (TornItems.stop rfl)⟩
  | _, _, @SpellsItems.next v vs t ws ws' r h hws hws' hs, fuel + 1, a, b, ht, hb, hf => by
    rcases split_append ht with ⟨r, hr, hne⟩ | ⟨q, rfl, hq⟩
    · exact scanItems_breaks (scan_torn h fuel hr hne (by omega))
    · rw [List.length_append] at hf
      rcases split_comma hws hws' hs.opens.ne_nil hq hb with
        hgap | ⟨u, u', p, b', hu, hu', rfl, hp, hb'⟩
      · have hv := scan_spells h fuel q (by omega) (closes_of_gap hgap)
        exact ⟨_, _, scanItems_gap hv hgap, TornItems.next (Or.inl rfl) (TornItems.stop rfl)⟩
      · simp only [List.length_append, List.length_cons] at hf
        have hv := scan_spells h fuel (u ++ ',' :: (u' ++ p)) (by omega)
          (closes_gap hu (closes_cons (by decide)))
        obtain ⟨ds, stop, hds, htorn⟩ := scanItems_torn hs fuel hp hb' (by omega)
        refine ⟨_, _, ?_, TornItems.next (Or.inl rfl) htorn⟩
        obtain ⟨hskip, hclose⟩ := hs.opens.left_of_append hp
        rw [scanItems_next hv hu hu' hskip hclose, hds]

theorem scanMembers_torn : ∀ {ms : List (String × Json)} {t : List Char}, SpellsMembers ms t →
    ∀ (fuel : Nat) {a b : List Char}, t = a ++ b → b ≠ [] → 2 * a.length + 1 < fuel →
      ∃ ds stop, scanMembers fuel a = ((ds, stop), none) ∧ TornMembers ms ds stop
  | _, _, @SpellsMembers.last k v h ws' t ws hk hws' hv hws, fuel + 1, a, b, ht, hb, hf => by
    rcases split_append ht with ⟨r, hr, hne⟩ | ⟨q, rfl, hq⟩
    · exact scanMembers_key_torn hk hr hne fuel
    · obtain ⟨u, q, b', hu, rfl, hq, hb'⟩ := split_gap hws' (by simp) hq hb
      obtain ⟨l, rfl, hkey⟩ := readKey_key hk (u ++ q)
      simp only [List.length_append, List.length_cons] at hf
      rcases split_append hq with ⟨r, hr, hne⟩ | ⟨q, rfl, hq'⟩
      · refine scanMembers_breaks hkey ?_
        rw [scan_gap hu]
        exact scan_torn hv fuel hr hne (by omega)
      · have hgap := gap_of_split hws hq' hb'
        rw [List.length_append] at hf
        have hv := scan_spells hv fuel q (by omega) (closes_of_gap hgap)
        rw [← scan_gap hu] at hv
        exact ⟨_, _, scanMembers_gap hkey hv hgap,
          TornMembers.next (Or.inl rfl) (TornMembers.stop rfl)⟩
  | _, _, @SpellsMembers.next k v ms h ws' t ws ws'' r hk hws' hv hws hws'' hs, fuel + 1, a, b, ht,
      hb, hf => by
    rcases split_append ht with ⟨r, hr, hne⟩ | ⟨q, rfl, hq⟩
    · exact scanMembers_key_torn hk hr hne fuel
    · obtain ⟨u, q, b', hu, rfl, hq, hb'⟩ := split_gap hws' (by simp) hq hb
      obtain ⟨l, rfl, hkey⟩ := readKey_key hk (u ++ q)
      simp only [List.length_append, List.length_cons] at hf
      rcases split_append hq with ⟨r, hr, hne⟩ | ⟨q, rfl, hq'⟩
      · refine scanMembers_breaks hkey ?_
        rw [scan_gap hu]
        exact scan_torn hv fuel hr hne (by omega)
      · rw [List.length_append] at hf
        rcases split_comma hws hws'' hs.opens.ne_nil hq' hb' with
          hgap | ⟨w, w', p, b'', hw, hw', rfl, hp, hb''⟩
        · have hv := scan_spells hv fuel q (by omega) (closes_of_gap hgap)
          rw [← scan_gap hu] at hv
          exact ⟨_, _, scanMembers_gap hkey hv hgap,
            TornMembers.next (Or.inl rfl) (TornMembers.stop rfl)⟩
        · simp only [List.length_append, List.length_cons] at hf
          have hv := scan_spells hv fuel (w ++ ',' :: (w' ++ p)) (by omega)
            (closes_gap hw (closes_cons (by decide)))
          rw [← scan_gap hu] at hv
          obtain ⟨ds, stop, hds, htorn⟩ := scanMembers_torn hs fuel hp hb'' (by omega)
          refine ⟨_, _, ?_, TornMembers.next (Or.inl rfl) htorn⟩
          obtain ⟨hskip, -⟩ := hs.opens.left_of_append hp
          rw [List.cons_append, scanMembers_next hkey hv hw hw' hskip, hds]

end

/-- A text that breaks off, with blanks before it, shows a part of its value. -/
theorem ofText?_torn {v : Json} {t ws a b : List Char} (h : Spells v t) (hws : Gap ws)
    (ht : t = a ++ b) (hb : b ≠ []) (hv : ∀ n, v ≠ .num n) :
    ∃ d, ofText? (ws ++ a) = (d, false) ∧ Torn v d := by
  have hlen : 2 * a.length < 2 * (ws ++ a).length + 1 := by rw [List.length_append]; omega
  rcases scan_torn h (2 * (ws ++ a).length + 1) ht hb hlen with ⟨d, hd, htorn⟩ | ⟨m, _, hm, -⟩
  · exact ⟨d, by rw [ofText?, scan_gap hws, hd], htorn⟩
  · exact absurd hm (hv m)

/-! ## Reading what is left -/

theorem toJson_whole {v : Json} {d : Draft} (h : Whole v d) {n : Nat} (hn : depth v ≤ n) :
    ∃ w, d.toJson n = .ok w := by
  rcases h with rfl | ⟨m, k, rfl, rfl⟩
  · exact ⟨v, toJson_ofJson v hn⟩
  · exact ⟨_, by rw [toJson]⟩

mutual

/-- Whoever reads all that is left of a value learns that its text has ended too early. -/
theorem toJson_torn : ∀ {v : Json} {d : Draft}, Torn v d → ∀ {n : Nat}, depth v ≤ n →
    d.toJson n = .error .ended
  | _, _, .ended h, n, _ => by rw [toJson, h]
  | _, _, @Torn.arr vs ds stop h, n + 1, hn => by
    rw [depth] at hn
    rw [toJson]
    rcases toItems_torn h (Nat.le_of_succ_le_succ hn) with hi | ⟨⟨ws, hi⟩, hs⟩
    · rw [hi]; rfl
    · rw [hi]
      simp only [hs, bind, Except.bind]
  | _, _, @Torn.obj ms ds stop h, n + 1, hn => by
    rw [depth] at hn
    rw [toJson]
    rcases toMembers_torn h (Nat.le_of_succ_le_succ hn) with hi | ⟨⟨ws, hi⟩, hs⟩
    · rw [hi]; rfl
    · rw [hi]
      simp only [hs, bind, Except.bind]

theorem toItems_torn : ∀ {vs : List Json} {ds : List Draft} {stop : Option Flaw},
    TornItems vs ds stop → ∀ {n : Nat}, depthOfItems vs ≤ n →
      toItems n ds = .error .ended ∨
        (∃ ws, toItems n ds = .ok ws) ∧ checkFlaw stop = .error .ended
  | _, _, _, .stop h, n, _ => Or.inr ⟨⟨[], by rw [toItems]⟩, by rw [checkFlaw, h]⟩
  | _, _, _, .item h, n, hn => by
    rw [depthOfItems, Nat.max_le] at hn
    rw [toItems, toJson_torn h hn.1]
    exact Or.inl rfl
  | _, _, _, .next hw h, n, hn => by
    rw [depthOfItems, Nat.max_le] at hn
    obtain ⟨w, hw⟩ := toJson_whole hw hn.1
    rw [toItems, hw]
    rcases toItems_torn h hn.2 with hi | ⟨⟨ws, hi⟩, hs⟩
    · rw [hi]; exact Or.inl rfl
    · rw [hi]; exact Or.inr ⟨⟨_, rfl⟩, hs⟩

theorem toMembers_torn : ∀ {ms : List (String × Json)} {ds : List Member} {stop : Option Flaw},
    TornMembers ms ds stop → ∀ {n : Nat}, depthOfMembers ms ≤ n →
      toMembers n ds = .error .ended ∨
        (∃ ws, toMembers n ds = .ok ws) ∧ checkFlaw stop = .error .ended
  | _, _, _, .stop h, n, _ => Or.inr ⟨⟨[], by rw [toMembers]⟩, by rw [checkFlaw, h]⟩
  | _, _, _, .key, n, _ => by rw [toMembers]; exact Or.inl rfl
  | _, _, _, .item h, n, hn => by
    rw [depthOfMembers, Nat.max_le] at hn
    rw [toMembers, toJson_torn h hn.1]
    exact Or.inl rfl
  | _, _, _, .next hw h, n, hn => by
    rw [depthOfMembers, Nat.max_le] at hn
    obtain ⟨w, hw⟩ := toJson_whole hw hn.1
    rw [toMembers, hw]
    rcases toMembers_torn h hn.2 with hi | ⟨⟨ws, hi⟩, hs⟩
    · rw [hi]; exact Or.inl rfl
    · rw [hi]; exact Or.inr ⟨⟨_, rfl⟩, hs⟩

end

end Draft

end EdmxGen.Json
