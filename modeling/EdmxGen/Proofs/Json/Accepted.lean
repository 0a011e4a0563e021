import EdmxGen.Proofs.Json.Extent
import EdmxGen.Proofs.Run

/-!
# Texts that are accepted

A text is accepted as a value if reading the whole of it gives the value (`Accepted`). Since what is
read does not depend on what follows, the text of an object can be put together from texts that are
accepted by themselves (`Written`), and is accepted as the object of their values
(`Written.isAccepted`).
-/

namespace EdmxGen.Json

open Text

namespace Draft

/-! ## Drafts that are values -/

mutual

/-- A draft that has a value is the draft of that value. -/
theorem eq_ofJson : ∀ (d : Draft) {n : Nat} {v : Json}, d.toJson n = .ok v →
    d = ofJson v ∧ depth v ≤ n
  | .null, n, v, h | .bool _, n, v, h | .num _, n, v, h | .str _, n, v, h => by
    rw [toJson] at h
    obtain rfl := Except.ok.inj h
    exact ⟨rfl, Nat.zero_le n⟩
  | .arr items stop, 0, v, h => by rw [toJson] at h; cases h
  | .obj members stop, 0, v, h => by rw [toJson] at h; cases h
  | .arr items stop, n + 1, v, h => by
    rw [toJson] at h
    obtain ⟨vs, hvs, h⟩ := ok_of_bind h
    obtain ⟨_, hstop, h⟩ := ok_of_bind h
    obtain rfl := Except.ok.inj h
    obtain ⟨hitems, hdepth⟩ := eq_ofItems items hvs
    cases stop with
    | some flaw => cases hstop
    | none => exact ⟨by rw [hitems, ofJson], Nat.succ_le_succ hdepth⟩
  | .obj members stop, n + 1, v, h => by
    rw [toJson] at h
    obtain ⟨ms, hms, h⟩ := ok_of_bind h
    obtain ⟨_, hstop, h⟩ := ok_of_bind h
    obtain rfl := Except.ok.inj h
    obtain ⟨hmembers, hdepth⟩ := eq_ofMembers members hms
    cases stop with
    | some flaw => cases hstop
    | none => exact ⟨by rw [hmembers, ofJson], Nat.succ_le_succ hdepth⟩
  | .flawed flaw, n, v, h => by rw [toJson] at h; cases h

theorem eq_ofItems : ∀ (ds : List Draft) {n : Nat} {vs : List Json}, toItems n ds = .ok vs →
    ds = ofItems vs ∧ depthOfItems vs ≤ n
  | [], n, vs, h => by
    rw [toItems] at h
    obtain rfl := Except.ok.inj h
    exact ⟨rfl, Nat.zero_le n⟩
  | d :: ds, n, vs, h => by
    rw [toItems] at h
    obtain ⟨v, hv, h⟩ := ok_of_bind h
    obtain ⟨vs', hvs, h⟩ := ok_of_bind h
    obtain rfl := Except.ok.inj h
    obtain ⟨rfl, hdepth⟩ := eq_ofJson d hv
    obtain ⟨rfl, hdepth'⟩ := eq_ofItems ds hvs
    exact ⟨rfl, Nat.max_le.2 ⟨hdepth, hdepth'⟩⟩

theorem eq_ofMembers : ∀ (ds : List Member) {n : Nat} {ms : List (String × Json)},
    toMembers n ds = .ok ms → ds = ofMembers ms ∧ depthOfMembers ms ≤ n
  | [], n, ms, h => by
    rw [toMembers] at h
    obtain rfl := Except.ok.inj h
    exact ⟨rfl, Nat.zero_le n⟩
  | (key, d) :: ds, n, ms, h => by
    rw [toMembers] at h
    obtain ⟨k, hk, h⟩ := ok_of_bind h
    obtain ⟨v, hv, h⟩ := ok_of_bind h
    obtain ⟨ms', hms, h⟩ := ok_of_bind h
    obtain rfl := Except.ok.inj h
    obtain rfl : key = .ok k := hk
    obtain ⟨hd, hdepth⟩ := eq_ofJson d hv
    obtain ⟨rfl, hdepth'⟩ := eq_ofMembers ds hms
    exact ⟨by rw [hd, ofMembers], Nat.max_le.2 ⟨hdepth, hdepth'⟩⟩

end

end Draft

/-! ## Whole texts -/

/-- A whole text is read as a value, where so many arrays and objects may lie within each other. -/
def Accepted (n : Nat) (v : Json) (t : List Char) : Prop :=
  ∃ d, Draft.ofText? t = (d, false) ∧ d.toJson n = .ok v

/-- The text has a part that is read as the value with anything behind it, and then only blanks. -/
def Reads (n : Nat) (v : Json) (t : List Char) : Prop :=
  depth v ≤ n ∧ ∃ l ws, t = l ++ ws ∧ Gap ws ∧
    ∀ fuel, 2 * t.length + 1 ≤ fuel → Draft.Stays fuel v l

theorem accepted_iff {n : Nat} {v : Json} {t : List Char} : Accepted n v t ↔ Reads n v t := by
  constructor
  · rintro ⟨d, hd, hv⟩
    obtain ⟨rfl, hdepth⟩ := Draft.eq_ofJson d hv
    refine ⟨hdepth, ?_⟩
    unfold Draft.ofText? at hd
    split at hd
    · next d hscan =>
      obtain rfl := (Prod.mk.inj hd).1
      obtain ⟨l, x, -, hx, -⟩ := (Draft.takes _).1 hscan
      cases hx
    · next d ws hscan =>
      obtain ⟨rfl, hblank⟩ := Prod.mk.inj hd
      obtain ⟨l, x, ht, hx, hstays⟩ := (Draft.takes _).1 hscan
      obtain rfl := Option.some.inj hx
      refine ⟨l, ws, ht, Draft.gap_of_skipSpace ?_, hstays⟩
      simpa using hblank
  · rintro ⟨hdepth, l, ws, ht, hws, hstays⟩
    refine ⟨Draft.ofJson v, ?_, Draft.toJson_ofJson v hdepth⟩
    have hscan := hstays _ (Nat.le_refl _) ws (by
      have := Draft.closes_gap hws Draft.closes_nil
      rwa [List.append_nil] at this)
    rw [← ht] at hscan
    rw [Draft.ofText?, hscan]
    simp only [skipSpace_eq_nil hws, List.isEmpty_nil, Bool.not_true]

theorem accepted_spells {v : Json} {t ws ws' : List Char} {n : Nat} (h : Spells v t) (hws : Gap ws)
    (hws' : Gap ws') (hv : depth v ≤ n) : Accepted n v (ws ++ (t ++ ws')) :=
  ⟨_, Draft.ofText?_spells h hws hws', Draft.toJson_ofJson v hv⟩

/-! ## Texts of objects -/

mutual

/-- A text of a value that is accepted, or is put together as an object: any blanks, and between
braces its members with commas between them. -/
inductive Written : Nat → Json → List Char → Prop
  | accepted {n : Nat} {v : Json} {t : List Char} : Accepted n v t → Written n v t
  | obj {n : Nat} {ms : List (String × Json)} {ws t ws' : List Char} : Gap ws →
      WrittenMembers n ms t → Gap ws' →
      Written (n + 1) (.obj ms) (ws ++ '\x7b' :: (t ++ '\x7d' :: ws'))

/-- A text of members: accepted texts of the keys, each with a colon and a text of the value. -/
inductive WrittenMembers : Nat → List (String × Json) → List Char → Prop
  | last {n : Nat} {k : String} {v : Json} {h t : List Char} : Accepted 0 (.str k) h →
      Written n v t → WrittenMembers n [(k, v)] (h ++ ':' :: t)
  | next {n : Nat} {k : String} {v : Json} {ms : List (String × Json)} {h t r : List Char} :
      Accepted 0 (.str k) h → Written n v t → WrittenMembers n ms r →
      WrittenMembers n ((k, v) :: ms) (h ++ ':' :: (t ++ ',' :: r))

end

/-- An accepted text of a string is a quote and what is read after it, with blanks around. -/
theorem Accepted.text {n : Nat} {s : String} {t : List Char} (h : Accepted n (.str s) t) :
    ∃ ws l ws', t = ws ++ '"' :: (l ++ ws') ∧ Gap ws ∧ IsText s.toList l ∧ Gap ws' := by
  obtain ⟨-, l, ws', ht, hws', hstays⟩ := accepted_iff.1 h
  have hscan := hstays _ (Nat.le_refl _) [] Draft.closes_nil
  rw [List.append_nil] at hscan
  obtain ⟨ws, hws, hl⟩ := Draft.exists_gap l
  rw [hl, Draft.scan_gap hws] at hscan
  cases hskip : skipSpace l with
  | nil =>
    rw [hskip] at hscan
    cases hscan
  | cons c cs =>
    rw [hskip] at hl hscan
    cases Draft.token (Draft.isSpace_of_skipSpace hskip) with
    | text hc hread =>
      rw [hread] at hscan
      obtain ⟨s', k, x, hs, rfl, hx, hk, -⟩ := Draft.takes_text hscan
      obtain rfl := Json.str.inj hs
      obtain rfl := Option.some.inj hx
      exact ⟨ws, k, ws', by rw [ht, hl, hc]; simp, hws, hk, hws'⟩
    | name value name hv hread =>
      rw [hread] at hscan
      rcases hv with rfl | ⟨b, rfl⟩ <;> cases (Draft.takes_name hscan).1
    | number hread =>
      rw [hread] at hscan
      obtain ⟨k, x, ⟨m, hm⟩, -⟩ := Draft.takes_number hscan
      cases hm
    | array hc =>
      obtain ⟨ds, stop, hds⟩ := Draft.encloses_array.exists_wrap _ cs
      rw [hc] at hscan
      cases hds.symm.trans (congrArg Prod.fst hscan)
    | object hc =>
      obtain ⟨ds, stop, hds⟩ := Draft.encloses_object.exists_wrap _ cs
      rw [hc] at hscan
      cases hds.symm.trans (congrArg Prod.fst hscan)
    | none hread =>
      rw [hread] at hscan
      cases (Prod.mk.inj hscan).1

open Draft in
mutual

theorem Written.reads : ∀ {n : Nat} {v : Json} {t : List Char}, Written n v t → Reads n v t
  | _, _, _, .accepted h => accepted_iff.1 h
  | _, _, _, @Written.obj n ms ws t ws' hws h hws' => by
    obtain ⟨hdepth, gap, l, ht, hgap, hscan⟩ := WrittenMembers.scans h
    refine ⟨Nat.succ_le_succ hdepth, ws ++ '\x7b' :: (t ++ ['\x7d']), ws', by simp, hws',
      fun fuel hf rest _ => ?_⟩
    simp only [List.length_append, List.length_cons] at hf
    obtain ⟨f, rfl⟩ : ∃ f, fuel = f + 1 := ⟨fuel - 1, by omega⟩
    rw [List.append_assoc, scan_gap hws, ht]
    rw [show '\x7b' :: (gap ++ '"' :: l ++ ['\x7d']) ++ rest =
      '\x7b' :: (gap ++ '"' :: (l ++ '\x7d' :: rest)) by simp, scan_members hgap,
      hscan f rest (by omega)]
    rfl

theorem WrittenMembers.scans : ∀ {n : Nat} {ms : List (String × Json)} {t : List Char},
    WrittenMembers n ms t → depthOfMembers ms ≤ n ∧ ∃ ws l, t = ws ++ '"' :: l ∧ Gap ws ∧
      ∀ fuel rest, 2 * t.length ≤ fuel →
        scanMembers fuel ('"' :: (l ++ '\x7d' :: rest)) = ((ofMembers ms, none), some rest)
  | _, _, _, @WrittenMembers.last n k v h t hk hv => by
    obtain ⟨ws, l, ws', rfl, hws, hl, hws'⟩ := hk.text
    obtain ⟨hdepth, lv, gap, rfl, hgap, hstays⟩ := Written.reads hv
    refine ⟨Nat.max_le.2 ⟨hdepth, Nat.zero_le n⟩, ws, l ++ (ws' ++ ':' :: (lv ++ gap)), by simp,
      hws, fun fuel rest hf => ?_⟩
    simp only [List.length_append, List.length_cons] at hf
    obtain ⟨f, rfl⟩ : ∃ f, fuel = f + 1 := ⟨fuel - 1, by omega⟩
    have hgo := hstays f (by simp only [List.length_append]; omega) (gap ++ '\x7d' :: rest)
      (closes_gap hgap (closes_cons (by decide)))
    rw [show l ++ (ws' ++ ':' :: (lv ++ gap)) ++ '\x7d' :: rest =
      l ++ (ws' ++ ':' :: (lv ++ (gap ++ '\x7d' :: rest))) by simp, scanMembers]
    simp only [readKey_text hl hws', String.ofList_toList, hgo, skipSpace_gap hgap,
      skipSpace_cons (c := '\x7d') rfl, ofMembers]
  | _, _, _, @WrittenMembers.next n k v ms h t r hk hv hms => by
    obtain ⟨ws, l, ws', rfl, hws, hl, hws'⟩ := hk.text
    obtain ⟨hdepth, lv, gap, rfl, hgap, hstays⟩ := Written.reads hv
    obtain ⟨hdepth', gap', q, rfl, hgap', hscan⟩ := WrittenMembers.scans hms
    refine ⟨Nat.max_le.2 ⟨hdepth, hdepth'⟩, ws,
      l ++ (ws' ++ ':' :: (lv ++ (gap ++ ',' :: (gap' ++ '"' :: q)))), by simp, hws,
      fun fuel rest hf => ?_⟩
    simp only [List.length_append, List.length_cons] at hf
    obtain ⟨f, rfl⟩ : ∃ f, fuel = f + 1 := ⟨fuel - 1, by omega⟩
    have hgo := hstays f (by simp only [List.length_append]; omega)
      (gap ++ ',' :: (gap' ++ '"' :: (q ++ '\x7d' :: rest)))
      (closes_gap hgap (closes_cons (by decide)))
    have hmore := hscan f rest (by simp only [List.length_append, List.length_cons]; omega)
    rw [show l ++ (ws' ++ ':' :: (lv ++ (gap ++ ',' :: (gap' ++ '"' :: q)))) ++ '\x7d' :: rest =
      l ++ (ws' ++ ':' :: (lv ++ (gap ++ ',' :: (gap' ++ '"' :: (q ++ '\x7d' :: rest))))) by simp,
      scanMembers]
    simp only [readKey_text hl hws', String.ofList_toList, hgo, skipSpace_gap hgap,
      skipSpace_cons (c := ',') rfl, skipSpace_gap hgap', skipSpace_cons (c := '"') rfl, hmore,
      ofMembers]

end

/-- A text that is put together from accepted ones is accepted. -/
theorem Written.isAccepted {n : Nat} {v : Json} {t : List Char} (h : Written n v t) :
    Accepted n v t := accepted_iff.2 h.reads

end EdmxGen.Json
