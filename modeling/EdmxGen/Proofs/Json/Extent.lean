import EdmxGen.Proofs.Json.Scalar

/-!
# What a reader of values takes

Whoever reads a value takes a part of the text and leaves the rest, and what was taken is read the
same wherever it stands, as long as nothing continues a number (`takes`). Each reader is looked at
by itself: those of items and of members take as much as they did (`TakesAll`), and so does what
stands between two brackets (`Encloses.takes`).
-/

namespace EdmxGen.Json

open Text

namespace Draft

variable {fuel : Nat} {cs t x : List Char} {c : Char} {v : Json} {r : Option (List Char)}

/-! ## Blanks -/

theorem exists_gap (t : List Char) : ∃ ws, Gap ws ∧ t = ws ++ skipSpace t :=
  ⟨t.takeWhile isSpace, List.all_eq_true.1 List.all_takeWhile,
    List.takeWhile_append_dropWhile.symm⟩

theorem isSpace_of_skipSpace (h : skipSpace t = c :: cs) : isSpace c = false := by
  have := List.head?_dropWhile_not isSpace t
  rw [show t.dropWhile isSpace = c :: cs from h] at this
  simpa using this

theorem gap_of_skipSpace (h : skipSpace t = []) : Gap t := by
  obtain ⟨ws, hws, ht⟩ := exists_gap t
  rw [h, List.append_nil] at ht
  rwa [ht]

/-! ## Tokens -/

/-- What a value is read from, by the character with which it begins. -/
inductive Token (c : Char) : Prop
  | text (hc : c = '"') (h : ∀ fuel cs, scan (fuel + 1) (c :: cs) = ofText cs)
  | name (value : Draft) (name : String) (hv : value = .null ∨ ∃ b, value = .bool b)
      (h : ∀ fuel cs, scan (fuel + 1) (c :: cs) = ofName value name cs)
  | number (h : ∀ fuel cs, scan (fuel + 1) (c :: cs) = ofNumber (c :: cs))
  | array (hc : c = '[')
  | object (hc : c = '\x7b')
  | none (h : ∀ fuel cs, scan (fuel + 1) (c :: cs) = (.flawed (.final .malformed), none))

theorem token (hc : isSpace c = false) : Token c := by
  by_cases htext : c = '"'
  · exact .text htext fun fuel cs => by rw [scan, skipSpace_cons hc]; simp [htext]
  by_cases hnull : c = 'n'
  · exact .name .null "ull" (.inl rfl) fun fuel cs => by rw [scan, skipSpace_cons hc]; simp [hnull]
  by_cases hyes : c = 't'
  · exact .name (.bool true) "rue" (.inr ⟨_, rfl⟩) fun fuel cs => by
      rw [scan, skipSpace_cons hc]; simp [hyes]
  by_cases hno : c = 'f'
  · exact .name (.bool false) "alse" (.inr ⟨_, rfl⟩) fun fuel cs => by
      rw [scan, skipSpace_cons hc]; simp [hno]
  by_cases hnum : c = '-' ∨ isDigit c = true
  · exact .number fun fuel cs => by
      rw [scan, skipSpace_cons hc]; simp [htext, hnull, hyes, hno, hnum]
  by_cases harr : c = '['
  · exact .array harr
  by_cases hobj : c = '\x7b'
  · exact .object hobj
  exact .none fun fuel cs => by
    rw [scan, skipSpace_cons hc]; simp [htext, hnull, hyes, hno, hnum, harr, hobj]

/-- Values of one kind stand between two brackets: none, or those that an inner reader finds from
the first of them on. -/
structure Encloses {α : Type} (left right : Char)
    (inner : Nat → List Char → Scanned (List α × Option Flaw))
    (wrap : List α → Option Flaw → Draft) : Prop where
  scan (fuel : Nat) (cs : List Char) : scan (fuel + 1) (left :: cs) =
    match skipSpace cs with
    | [] => (wrap [] (some (.final .ended)), none)
    | d :: ds =>
      if d = right then (wrap [] none, some ds)
      else (wrap (inner fuel (d :: ds)).1.1 (inner fuel (d :: ds)).1.2, (inner fuel (d :: ds)).2)
  right_token : isSpace right = false
  wrap_inj {xs ys : List α} {stop stop' : Option Flaw} :
    wrap xs stop = wrap ys stop' → xs = ys ∧ stop = stop'

theorem encloses_array : Encloses '[' ']' scanItems .arr where
  scan fuel cs := by
    rw [Draft.scan, skipSpace_cons (by rfl)]
    simp only [Char.reduceEq, if_false, if_true, false_or]
    rw [if_neg (by decide)]
    cases skipSpace cs with
    | nil => rfl
    | cons d ds => split <;> simp_all
  right_token := by decide
  wrap_inj h := Draft.arr.inj h

theorem encloses_object : Encloses '\x7b' '\x7d' scanMembers .obj where
  scan fuel cs := by
    rw [Draft.scan, skipSpace_cons (by rfl)]
    simp only [Char.reduceEq, if_false, if_true, false_or]
    rw [if_neg (by decide)]
    cases skipSpace cs with
    | nil => rfl
    | cons d ds => split <;> simp_all
  right_token := by decide
  wrap_inj h := Draft.obj.inj h

/-! ## What reading takes -/

/-- The text is read as the value where nothing continues a number. -/
def Stays (fuel : Nat) (v : Json) (l : List Char) : Prop :=
  ∀ rest, Closes rest → scan fuel (l ++ rest) = (ofJson v, some rest)

/-- What is read as a value with so many steps is read so wherever it stands. -/
def Takes (fuel : Nat) : Prop := ∀ {t : List Char} {v : Json} {r : Option (List Char)},
  scan fuel t = (ofJson v, r) →
    ∃ l x, t = l ++ x ∧ r = some x ∧ ∀ fuel', fuel ≤ fuel' → Stays fuel' v l

/-- What an inner reader reads as these values up to the closing bracket is read so whatever
follows. -/
def TakesAll {α : Type} (inner : Nat → List Char → Scanned (List α × Option Flaw)) (fuel : Nat)
    (xs : List α) : Prop :=
  ∀ {t : List Char} {r : Option (List Char)}, inner fuel t = ((xs, none), r) →
  ∃ c l x, t = c :: l ++ x ∧ r = some x ∧ ∀ fuel', fuel ≤ fuel' → ∀ rest,
    inner fuel' (c :: l ++ rest) = ((xs, none), some rest)

/-- What is read as the items of an array is read so whatever follows. -/
def TakesItems (fuel : Nat) : Prop := ∀ vs, TakesAll scanItems fuel (ofItems vs)

/-- What is read as the members of an object is read so whatever follows. -/
def TakesMembers (fuel : Nat) : Prop := ∀ ms, TakesAll scanMembers fuel (ofMembers ms)

theorem ofJson_ne_flawed (v : Json) (flaw : Flaw) : ofJson v ≠ .flawed flaw := by
  intro h
  cases v <;> cases h

theorem takes_text (h : ofText cs = (ofJson v, r)) :
    ∃ s l x, v = .str s ∧ cs = l ++ x ∧ r = some x ∧ IsText s.toList l ∧
      ∀ rest, ofText (l ++ rest) = (ofJson v, some rest) := by
  unfold ofText at h
  split at h
  · next s y x hread hskip =>
    obtain ⟨l, rfl, hl⟩ := of_readText hread
    obtain rfl := Except.ok.inj (hskip.symm.trans (hl y).2)
    obtain ⟨hv, rfl⟩ := Prod.mk.inj h
    cases v with
    | str s' =>
      obtain rfl : String.ofList s = s' := Draft.str.inj hv
      refine ⟨_, l, x, rfl, rfl, rfl, by rwa [String.toList_ofList], fun rest => ?_⟩
      rw [ofText, (hl rest).1, (hl rest).2]
      rfl
    | _ => cases hv
  all_goals exact absurd (Prod.mk.inj h).1.symm (ofJson_ne_flawed v _)

theorem takes_name {value : Draft} {name : String} (h : ofName value name cs = (ofJson v, r)) :
    value = ofJson v ∧ ∃ x, cs = name.toList ++ x ∧ r = some x := by
  unfold ofName at h
  split at h
  · next x hread =>
    obtain ⟨hv, rfl⟩ := Prod.mk.inj h
    exact ⟨hv, x, of_readName hread, rfl⟩
  · exact absurd (Prod.mk.inj h).1.symm (ofJson_ne_flawed v _)

theorem takes_number (h : ofNumber (c :: cs) = (ofJson v, r)) :
    ∃ l x, (∃ n, v = .num n) ∧ cs = l ++ x ∧ r = some x ∧
      ∀ rest, Closes rest → ofNumber (c :: (l ++ rest)) = (ofJson v, some rest) := by
  unfold ofNumber at h
  split at h
  · next n y x hread hskip =>
    obtain ⟨hskip', d, l, hl, hstands⟩ := of_readNumber hread
    obtain rfl := Except.ok.inj (hskip.symm.trans hskip')
    obtain ⟨rfl, rfl⟩ := List.cons.inj hl
    obtain ⟨hv, rfl⟩ := Prod.mk.inj h
    cases v with
    | num n' =>
      obtain rfl : n = n' := Draft.num.inj hv
      refine ⟨l, x, ⟨n, rfl⟩, rfl, rfl, fun rest hrest => ?_⟩
      have hread := hstands rest hrest
      rw [ofNumber, ← List.cons_append, hread, (of_readNumber hread).1]
      rfl
    | _ => cases hv
  all_goals exact absurd (Prod.mk.inj h).1.symm (ofJson_ne_flawed v _)

section

variable {α : Type} {left right : Char} {inner : Nat → List Char → Scanned (List α × Option Flaw)}
  {wrap : List α → Option Flaw → Draft}

theorem Encloses.exists_wrap (he : Encloses left right inner wrap) (fuel : Nat) (cs : List Char) :
    ∃ xs stop, (Draft.scan (fuel + 1) (left :: cs)).1 = wrap xs stop := by
  rw [he.scan]
  split
  · exact ⟨_, _, rfl⟩
  · split <;> exact ⟨_, _, rfl⟩

theorem Encloses.takes (he : Encloses left right inner wrap) {xs : List α}
    (hall : TakesAll inner fuel xs) (h : Draft.scan (fuel + 1) (left :: cs) = (wrap xs none, r)) :
    ∃ l x, cs = l ++ x ∧ r = some x ∧ ∀ fuel', fuel + 1 ≤ fuel' → ∀ rest,
      Draft.scan fuel' (left :: (l ++ rest)) = (wrap xs none, some rest) := by
  obtain ⟨ws, hws, hcs⟩ := exists_gap cs
  rw [he.scan] at h
  split at h
  · cases (he.wrap_inj (Prod.mk.inj h).1).2
  next d ds hskip =>
  rw [hskip] at hcs
  split at h
  · next hright =>
    obtain ⟨hwrap, rfl⟩ := Prod.mk.inj h
    rw [hright] at hcs
    refine ⟨ws ++ [right], ds, by rw [hcs]; simp, rfl, fun fuel' hf rest => ?_⟩
    obtain ⟨f, rfl⟩ : ∃ f, fuel' = f + 1 := ⟨fuel' - 1, by omega⟩
    rw [← hwrap, he.scan, List.append_assoc, skipSpace_gap hws, List.singleton_append,
      skipSpace_cons he.right_token]
    exact if_pos rfl
  · next hright =>
    obtain ⟨hwrap, hr⟩ := Prod.mk.inj h
    obtain ⟨hxs, hstop⟩ := he.wrap_inj hwrap
    obtain ⟨c, l, x, hl, hx, htakes⟩ := hall (Prod.ext (Prod.ext hxs hstop) hr)
    obtain ⟨rfl, rfl⟩ := List.cons.inj hl
    refine ⟨ws ++ d :: l, x, by rw [hcs]; simp, hx, fun fuel' hf rest => ?_⟩
    obtain ⟨f, rfl⟩ : ∃ f, fuel' = f + 1 := ⟨fuel' - 1, by omega⟩
    have hgo := htakes f (by omega) rest
    rw [List.cons_append] at hgo
    rw [he.scan, List.append_assoc, skipSpace_gap hws, List.cons_append,
      skipSpace_cons (isSpace_of_skipSpace hskip)]
    dsimp only
    rw [if_neg hright, hgo]

end

theorem takes_succ (hi : TakesItems fuel) (hm : TakesMembers fuel) : Takes (fuel + 1) := by
  intro t v r h
  obtain ⟨ws, hws, ht⟩ := exists_gap t
  -- the blanks in front are passed over, so what matters is the first token
  have hreduce : (∃ l x, skipSpace t = l ++ x ∧ r = some x ∧
      ∀ fuel', fuel + 1 ≤ fuel' → Stays fuel' v l) →
      ∃ l x, t = l ++ x ∧ r = some x ∧ ∀ fuel', fuel + 1 ≤ fuel' → Stays fuel' v l := by
    rintro ⟨l, x, hl, hr, hstays⟩
    refine ⟨ws ++ l, x, by rw [ht, hl, List.append_assoc], hr, fun fuel' hf rest hrest => ?_⟩
    rw [List.append_assoc, scan_gap hws]
    exact hstays fuel' hf rest hrest
  apply hreduce
  rw [ht, scan_gap hws] at h
  cases hskip : skipSpace t with
  | nil =>
    rw [hskip] at h
    exact absurd (Prod.mk.inj h).1.symm (ofJson_ne_flawed v _)
  | cons c cs =>
    rw [hskip] at h
    cases token (isSpace_of_skipSpace hskip) with
    | text _ hscan =>
      rw [hscan] at h
      obtain ⟨s, l, x, -, rfl, hr, -, hstays⟩ := takes_text h
      refine ⟨c :: l, x, rfl, hr, fun fuel' hf rest hrest => ?_⟩
      obtain ⟨f, rfl⟩ : ∃ f, fuel' = f + 1 := ⟨fuel' - 1, by omega⟩
      rw [List.cons_append, hscan]
      exact hstays rest
    | name value name _ hscan =>
      rw [hscan] at h
      obtain ⟨hv, x, rfl, hr⟩ := takes_name h
      refine ⟨c :: name.toList, x, rfl, hr, fun fuel' hf rest hrest => ?_⟩
      obtain ⟨f, rfl⟩ : ∃ f, fuel' = f + 1 := ⟨fuel' - 1, by omega⟩
      rw [List.cons_append, hscan, ofName, readName_append, hv]
    | number hscan =>
      rw [hscan] at h
      obtain ⟨l, x, -, rfl, hr, hstays⟩ := takes_number h
      refine ⟨c :: l, x, rfl, hr, fun fuel' hf rest hrest => ?_⟩
      obtain ⟨f, rfl⟩ : ∃ f, fuel' = f + 1 := ⟨fuel' - 1, by omega⟩
      rw [List.cons_append, hscan]
      exact hstays rest hrest
    | array hc =>
      subst hc
      cases v with
      | arr vs =>
        obtain ⟨l, x, rfl, hr, hstays⟩ := encloses_array.takes (hi vs) h
        exact ⟨'[' :: l, x, rfl, hr, fun fuel' hf rest _ => hstays fuel' hf rest⟩
      | _ =>
        obtain ⟨ds, stop, hds⟩ := encloses_array.exists_wrap fuel cs
        cases hds.symm.trans (congrArg Prod.fst h)
    | object hc =>
      subst hc
      cases v with
      | obj ms =>
        obtain ⟨l, x, rfl, hr, hstays⟩ := encloses_object.takes (hm ms) h
        exact ⟨'\x7b' :: l, x, rfl, hr, fun fuel' hf rest _ => hstays fuel' hf rest⟩
      | _ =>
        obtain ⟨ds, stop, hds⟩ := encloses_object.exists_wrap fuel cs
        cases hds.symm.trans (congrArg Prod.fst h)
    | none hscan =>
      rw [hscan] at h
      exact absurd (Prod.mk.inj h).1.symm (ofJson_ne_flawed v _)

theorem ofItems_cons {vs : List Json} {d : Draft} {ds : List Draft} (h : ofItems vs = d :: ds) :
    ∃ v vs', vs = v :: vs' ∧ d = ofJson v ∧ ds = ofItems vs' := by
  cases vs with
  | nil => cases h
  | cons v vs' => exact ⟨v, vs', rfl, (List.cons.inj h).1.symm, (List.cons.inj h).2.symm⟩

theorem ofItems_nil {vs : List Json} (h : ofItems vs = []) : vs = [] := by
  cases vs with
  | nil => rfl
  | cons v vs => cases h

theorem takesItems_succ (hs : Takes fuel) (hi : TakesItems fuel) : TakesItems (fuel + 1) := by
  intro vs t r h
  rw [scanItems] at h
  split at h
  · cases (Prod.mk.inj (Prod.mk.inj h).1).2
  next item y hitem =>
  obtain ⟨ws, hws, hy⟩ := exists_gap y
  have hvalue : ∀ {v : Json}, item = ofJson v →
      ∃ l, t = l ++ y ∧ ∀ fuel', fuel ≤ fuel' → Stays fuel' v l := by
    intro v hv
    rw [hv] at hitem
    obtain ⟨l, x, hl, hx, hstays⟩ := hs hitem
    obtain rfl := Option.some.inj hx
    exact ⟨l, hl, hstays⟩
  split at h
  · cases (Prod.mk.inj (Prod.mk.inj h).1).2
  · -- the end of the array
    next more hskip =>
    obtain ⟨hvs, rfl⟩ := Prod.mk.inj h
    obtain ⟨v, vs', rfl, hv, hnil⟩ := ofItems_cons (Prod.mk.inj hvs).1.symm
    obtain rfl := ofItems_nil hnil.symm
    obtain ⟨l, rfl, hstays⟩ := hvalue hv
    rw [hskip] at hy
    obtain ⟨c, cs, hcs⟩ := List.exists_cons_of_ne_nil (by simp : l ++ (ws ++ [']']) ≠ [])
    refine ⟨c, cs, more, by rw [← hcs, hy]; simp, rfl, fun fuel' hf rest => ?_⟩
    obtain ⟨f, rfl⟩ : ∃ f, fuel' = f + 1 := ⟨fuel' - 1, by omega⟩
    have hgo := hstays f (by omega) (ws ++ ']' :: rest) (closes_gap hws (closes_cons (by decide)))
    rw [← hcs, show l ++ (ws ++ [']']) ++ rest = l ++ (ws ++ ']' :: rest) by simp]
    exact scanItems_last hgo hws
  · -- a comma and another item
    next more hskip =>
    obtain ⟨ws', hws', hmore⟩ := exists_gap more
    split at h
    · cases (Prod.mk.inj (Prod.mk.inj h).1).2
    next hclose =>
    obtain ⟨hvs, hr⟩ := Prod.mk.inj h
    obtain ⟨hvs, hstop⟩ := Prod.mk.inj hvs
    obtain ⟨v, vs', rfl, hv, hitems⟩ := ofItems_cons hvs.symm
    obtain ⟨l, rfl, hstays⟩ := hvalue hv
    obtain ⟨d, k, x, hk, hx, htakes⟩ := hi _ (Prod.ext (Prod.ext hitems hstop) hr)
    rw [hskip] at hy
    rw [hk] at hmore
    have hd : isSpace d = false := isSpace_of_skipSpace hk
    obtain ⟨c, cs, hcs⟩ :=
      List.exists_cons_of_ne_nil (by simp : l ++ (ws ++ ',' :: (ws' ++ d :: k)) ≠ [])
    refine ⟨c, cs, x, by rw [← hcs, hy, hmore]; simp, hx, fun fuel' hf rest => ?_⟩
    obtain ⟨f, rfl⟩ : ∃ f, fuel' = f + 1 := ⟨fuel' - 1, by omega⟩
    have hgo := hstays f (by omega) (ws ++ ',' :: (ws' ++ (d :: k ++ rest)))
      (closes_gap hws (closes_cons (by decide)))
    have hnot : ∀ more, d :: k ++ rest ≠ ']' :: more := by
      intro more heq
      obtain ⟨rfl, -⟩ := List.cons.inj heq
      exact hclose (k ++ x) hk
    rw [← hcs, show l ++ (ws ++ ',' :: (ws' ++ d :: k)) ++ rest =
      l ++ (ws ++ ',' :: (ws' ++ (d :: k ++ rest))) by simp,
      scanItems_next hgo hws hws' (skipSpace_cons hd _) hnot, htakes f (by omega) rest, ofItems]
  · cases (Prod.mk.inj (Prod.mk.inj h).1).2

/-! ## What reading takes of members -/

theorem readKey_text {s l ws : List Char} (hl : IsText s l) (hws : Gap ws) (rest : List Char) :
    readKey (l ++ (ws ++ ':' :: rest)) = .ok (.ok (String.ofList s), rest) := by
  simp only [readKey, (hl _).1, (hl _).2, skipSpace_gap hws, skipSpace_cons (c := ':') rfl]
  rfl

theorem of_readKey {k : String} (h : readKey cs = .ok (.ok k, x)) :
    ∃ l, cs = l ++ x ∧ ∀ rest, readKey (l ++ rest) = .ok (.ok k, rest) := by
  unfold readKey at h
  dsimp only at h
  split at h
  · split at h <;> cases h
  next y hskip =>
  split at h
  · next value hvalue =>
    obtain ⟨hkey, rfl⟩ := Prod.mk.inj (Except.ok.inj h)
    obtain ⟨⟨s, x'⟩, hread, rfl⟩ := map_eq_ok hkey
    obtain ⟨l, rfl, hl⟩ := of_readText hread
    obtain rfl := Except.ok.inj (hskip.symm.trans (hl x').2)
    obtain ⟨ws, hws, hy⟩ := exists_gap y
    rw [hvalue] at hy
    refine ⟨l ++ (ws ++ [':']), by rw [hy]; simp, fun rest => ?_⟩
    rw [show l ++ (ws ++ [':']) ++ rest = l ++ (ws ++ ':' :: rest) by simp]
    exact readKey_text hl hws rest
  all_goals cases h

/-- What stands in place of a member without a key is no member of a value. -/
theorem readKey_error {m : Member} (h : readKey cs = .error m) (k : String) (v : Json) :
    m ≠ (.ok k, ofJson v) := by
  rintro rfl
  unfold readKey at h
  dsimp only at h
  split at h
  · split at h <;> cases (Prod.mk.inj (Except.error.inj h)).1
  · split at h
    · cases h
    all_goals exact absurd (Prod.mk.inj (Except.error.inj h)).2.symm (ofJson_ne_flawed v _)

theorem ofMembers_cons {ms : List (String × Json)} {m : Member} {ds : List Member}
    (h : ofMembers ms = m :: ds) :
    ∃ k v ms', ms = (k, v) :: ms' ∧ m = (.ok k, ofJson v) ∧ ds = ofMembers ms' := by
  cases ms with
  | nil => cases h
  | cons m' ms' => exact ⟨m'.1, m'.2, ms', rfl, (List.cons.inj h).1.symm, (List.cons.inj h).2.symm⟩

theorem ofMembers_nil {ms : List (String × Json)} (h : ofMembers ms = []) : ms = [] := by
  cases ms with
  | nil => rfl
  | cons m ms => cases h

theorem takesMembers_succ (hs : Takes fuel) (hm : TakesMembers fuel) : TakesMembers (fuel + 1) := by
  intro ms t r h
  unfold scanMembers at h
  split at h
  · obtain ⟨k, v, ms', -, hkey, -⟩ := ofMembers_cons (Prod.mk.inj (Prod.mk.inj h).1).1.symm
    cases (Prod.mk.inj hkey).1
  · next text =>
    split at h
    · next m hkey =>
      obtain ⟨k, v, ms', -, hmember, -⟩ := ofMembers_cons (Prod.mk.inj (Prod.mk.inj h).1).1.symm
      exact absurd hmember (readKey_error hkey k v)
    next key value hkey =>
    split at h
    · cases (Prod.mk.inj (Prod.mk.inj h).1).2
    next item y hitem =>
    obtain ⟨ws, hws, hy⟩ := exists_gap y
    have hmember : ∀ {k : String} {v : Json}, (key, item) = (.ok k, ofJson v) →
        ∃ l l', text = l ++ (l' ++ y) ∧ (∀ rest, readKey (l ++ rest) = .ok (.ok k, rest)) ∧
          ∀ fuel', fuel ≤ fuel' → Stays fuel' v l' := by
      intro k v hkv
      obtain ⟨rfl, rfl⟩ := Prod.mk.inj hkv
      obtain ⟨l, rfl, hl⟩ := of_readKey hkey
      obtain ⟨l', x, rfl, hx, hstays⟩ := hs hitem
      obtain rfl := Option.some.inj hx
      exact ⟨l, l', rfl, hl, hstays⟩
    split at h
    · cases (Prod.mk.inj (Prod.mk.inj h).1).2
    · -- the end of the object
      next more hskip =>
      obtain ⟨hms, rfl⟩ := Prod.mk.inj h
      obtain ⟨k, v, ms', rfl, hkv, hnil⟩ := ofMembers_cons (Prod.mk.inj hms).1.symm
      obtain rfl := ofMembers_nil hnil.symm
      obtain ⟨l, l', rfl, hl, hstays⟩ := hmember hkv
      rw [hskip] at hy
      refine ⟨'"', l ++ (l' ++ (ws ++ ['\x7d'])), more, by rw [hy]; simp, rfl,
        fun fuel' hf rest => ?_⟩
      obtain ⟨f, rfl⟩ : ∃ f, fuel' = f + 1 := ⟨fuel' - 1, by omega⟩
      have hgo := hstays f (by omega) (ws ++ '\x7d' :: rest)
        (closes_gap hws (closes_cons (by decide)))
      rw [show '"' :: (l ++ (l' ++ (ws ++ ['\x7d']))) ++ rest =
        '"' :: (l ++ (l' ++ (ws ++ '\x7d' :: rest))) by simp]
      exact scanMembers_last (hl _) hgo hws
    · -- a comma and another member
      next more hskip =>
      obtain ⟨ws', hws', hmore⟩ := exists_gap more
      obtain ⟨hms, hr⟩ := Prod.mk.inj h
      obtain ⟨hms, hstop⟩ := Prod.mk.inj hms
      obtain ⟨k, v, ms', rfl, hkv, hmembers⟩ := ofMembers_cons hms.symm
      obtain ⟨l, l', rfl, hl, hstays⟩ := hmember hkv
      obtain ⟨d, q, x, hq, hx, htakes⟩ := hm _ (Prod.ext (Prod.ext hmembers hstop) hr)
      rw [hskip] at hy
      rw [hq] at hmore
      have hd : isSpace d = false := isSpace_of_skipSpace hq
      refine ⟨'"', l ++ (l' ++ (ws ++ ',' :: (ws' ++ d :: q))), x, by rw [hy, hmore]; simp, hx,
        fun fuel' hf rest => ?_⟩
      obtain ⟨f, rfl⟩ : ∃ f, fuel' = f + 1 := ⟨fuel' - 1, by omega⟩
      have hgo := hstays f (by omega) (ws ++ ',' :: (ws' ++ (d :: q ++ rest)))
        (closes_gap hws (closes_cons (by decide)))
      rw [show '"' :: (l ++ (l' ++ (ws ++ ',' :: (ws' ++ d :: q)))) ++ rest =
        '"' :: (l ++ (l' ++ (ws ++ ',' :: (ws' ++ (d :: q ++ rest))))) by simp,
        scanMembers_next (hl _) hgo hws hws' (skipSpace_cons hd _), htakes f (by omega) rest,
        ofMembers]
    · cases (Prod.mk.inj (Prod.mk.inj h).1).2
  · obtain ⟨k, v, ms', -, hkey, -⟩ := ofMembers_cons (Prod.mk.inj (Prod.mk.inj h).1).1.symm
    cases (Prod.mk.inj hkey).1

/-- Whatever is read of a text is read the same wherever it stands. -/
theorem takes (fuel : Nat) : Takes fuel ∧ TakesItems fuel ∧ TakesMembers fuel := by
  induction fuel with
  | zero =>
    refine ⟨?_, ?_, ?_⟩
    · intro t v r h
      exact absurd (Prod.mk.inj h).1.symm (ofJson_ne_flawed v _)
    · intro vs t r h
      cases (Prod.mk.inj (Prod.mk.inj h).1).2
    · intro ms t r h
      cases (Prod.mk.inj (Prod.mk.inj h).1).2
  | succ fuel ih =>
    obtain ⟨hs, hi, hm⟩ := ih
    exact ⟨takes_succ hi hm, takesItems_succ hs hi, takesMembers_succ hs hm⟩

end Draft

end EdmxGen.Json
