import EdmxGen.Proofs.Json.Reading

/-!
# What a reader of scalars takes

Whoever reads a string, a number or a literal name takes a part of the text and leaves the rest, and
what was taken is read the same wherever it stands: a string or name always (`of_readText`,
`of_readName`), a number where nothing continues it (`of_readNumber`). Passing over a scalar that
can be read takes the same part.
-/

namespace EdmxGen.Json

open Text Draft

variable {cs x : List Char}

theorem map_eq_ok {ε α β : Type} {r : Except ε α} {f : α → β} {b : β} (h : r.map f = .ok b) :
    ∃ a, r = .ok a ∧ f a = b := by
  cases r with
  | ok a => exact ⟨a, rfl, Except.ok.inj h⟩
  | error e => nomatch h

/-! ## Strings -/

/-- The characters stand for one character of a string, whatever follows them. -/
def Piece (c : Char) (p : List Char) : Prop :=
  ∀ t, readText (p ++ t) = (readText t).map (fun r => (c :: r.1, r.2)) ∧
    skipText (p ++ t) = skipText t

theorem Letter.piece {c : Char} {p : List Char} (h : Letter c p) : Piece c p :=
  fun t => ⟨readText_letter h t, skipText_letter h t⟩

theorem piece_pair {a b c d e f g h : Char} {n m : Nat} (hn : hex4? a b c d = some n)
    (hlead : isLeading n = true) (hm : hex4? e f g h = some m) (htrail : isTrailing m = true) :
    Piece (joinPair n m) ['\\', 'u', a, b, c, d, '\\', 'u', e, f, g, h] := by
  have hfirst : isTrailing n = false := by
    simp only [isLeading, isTrailing, Bool.and_eq_true, decide_eq_true_eq] at hlead ⊢
    simp only [Bool.and_eq_false_iff, decide_eq_false_iff_not]
    omega
  intro t
  constructor
  · simp [readText, hn, hlead, hfirst, hm, htrail]
  · simp [skipText, hn, hm]

/-- A text that is read as a string after its opening quote up to the closing one. -/
def IsText (s l : List Char) : Prop :=
  ∀ t, readText (l ++ t) = .ok (s, t) ∧ skipText (l ++ t) = .ok t

theorem Piece.isText {c : Char} {p s l : List Char} (hp : Piece c p) (hl : IsText s l) :
    IsText (c :: s) (p ++ l) := by
  intro t
  rw [List.append_assoc, (hp (l ++ t)).1, (hp (l ++ t)).2, (hl t).1, (hl t).2]
  exact ⟨rfl, rfl⟩

/-- What is read of a string depends on no more than what it leaves behind. -/
theorem of_readText {s : List Char} (h : readText cs = .ok (s, x)) :
    ∃ l, cs = l ++ x ∧ IsText s l := by
  have step : ∀ {c : Char} {p cs s x : List Char}, Piece c p →
      (∀ {s x : List Char}, readText cs = .ok (s, x) → ∃ l, cs = l ++ x ∧ IsText s l) →
      (readText cs).map (fun r => (c :: r.1, r.2)) = .ok (s, x) →
      ∃ l, p ++ cs = l ++ x ∧ IsText s l := by
    intro c p cs s x hp ih h
    obtain ⟨⟨s', x'⟩, hread, heq⟩ := map_eq_ok h
    obtain ⟨rfl, rfl⟩ := Prod.mk.inj heq
    obtain ⟨l, rfl, hl⟩ := ih hread
    exact ⟨p ++ l, (List.append_assoc _ _ _).symm, hp.isText hl⟩
  fun_induction readText cs generalizing s x with
  | case2 cs =>
    obtain ⟨rfl, rfl⟩ := Prod.mk.inj (Except.ok.inj h)
    exact ⟨['"'], rfl, fun t => ⟨rfl, rfl⟩⟩
  | case7 a b c d n hn _ hlead e f g h' cs m hm htrail ih =>
    exact step (piece_pair hn hlead hm htrail) ih h
  | case13 a b c d cs n hn htrail hlead ih =>
    exact step (Letter.unicode hn (by simpa using hlead) (by simpa using htrail)).piece ih h
  | case16 c cs _ _ e he ih => exact step (Letter.short he).piece ih h
  | case18 c cs hquote hnil _ _ hback hc ih =>
    refine step (p := [c]) (Letter.raw (by omega) hquote ?_).piece ih h
    intro heq
    cases cs with
    | nil => exact hnil heq rfl
    | cons d ds => exact hback d ds heq rfl
  | _ => nomatch h

/-! ## Numbers -/

variable {negative : Bool} {significand : Nat} {exponent : Int} {n : Number}

/-- A number that is returned with the rest of the text comes from the part that made it. -/
theorem of_map_rest {r : Except Fault Number} {rest : List Char}
    (h : r.map (·, rest) = .ok (n, x)) : r = .ok n ∧ rest = x := by
  obtain ⟨m, hm, heq⟩ := map_eq_ok h
  obtain ⟨rfl, rfl⟩ := Prod.mk.inj heq
  exact ⟨hm, rfl⟩

/-- No sign stands in front of digits. -/
theorem not_sign_of_digits {ds : List Char} (h : Digits ds) :
    ∃ c cs, ds = c :: cs ∧ c ≠ '+' ∧ c ≠ '-' := by
  obtain ⟨c, cs, hds, hc⟩ := h.eq_cons
  refine ⟨c, cs, hds, ?_, ?_⟩ <;> rintro rfl <;> exact absurd hc (by decide)

theorem skip_digits {ds rest : List Char} (h : Digits ds) (hr : Breaks rest) :
    skipDigits (ds ++ rest) = .ok rest := by
  rw [skipDigits, h.takeWhile hr, h.dropWhile hr, if_neg (by simpa using h.ne_nil)]

/-- The number with an exponent, which may be negative. -/
def raised (negative : Bool) (significand : Nat) (exponent : Int) (down : Bool) (e : Nat) :
    Except Fault Number :=
  if e < Nat.pow 2 31 then
    real negative significand (if down then exponent - e else exponent + e)
  else if significand ≠ 0 ∧ !down then .error .malformed
  else real negative 0 0

/-- The signs that may stand in front of an exponent. -/
def IsSign (sign : List Char) : Prop := sign = [] ∨ sign = ['+'] ∨ sign = ['-']

theorem readExponent_digits {ds rest sign : List Char} (h : Digits ds) (hr : Breaks rest)
    (hsign : IsSign sign) :
    readExponent negative significand exponent (sign ++ (ds ++ rest)) =
      (raised negative significand exponent (sign == ['-']) (ofDecimal ds)).map (·, rest) := by
  have htake := h.takeWhile hr
  have hdrop := h.dropWhile hr
  obtain ⟨c, cs, rfl, hplus, hminus⟩ := not_sign_of_digits h
  have hraised : (raised negative significand exponent (sign == ['-']) (ofDecimal (c :: cs))).map
      (·, rest) =
      if ofDecimal (c :: cs) < Nat.pow 2 31 then
        (real negative significand (if sign == ['-'] then exponent - ofDecimal (c :: cs)
          else exponent + ofDecimal (c :: cs))).map (·, rest)
      else if significand ≠ 0 ∧ !(sign == ['-']) then .error .malformed
      else (real negative 0 0).map (·, rest) := by
    unfold raised
    split
    · rfl
    · split <;> rfl
  rw [List.cons_append] at htake hdrop
  rw [hraised]
  rcases hsign with rfl | rfl | rfl <;> simp [readExponent, htake, hdrop, hplus, hminus]

theorem exists_of_readExponent {r : Number × List Char}
    (h : readExponent negative significand exponent cs = .ok r) :
    ∃ sign ds rest, IsSign sign ∧ cs = sign ++ (ds ++ rest) ∧ Digits ds ∧ Breaks rest := by
  unfold readExponent at h
  split at h
  next down text hsplit =>
  have hdigits : text.takeWhile isDigit ≠ [] := by
    intro hnil
    simp [hnil] at h
  obtain ⟨ds, rest, rfl, hds, hrest⟩ := exists_digits hdigits
  split at hsplit
  · obtain ⟨-, rfl⟩ := Prod.mk.inj hsplit
    exact ⟨['+'], ds, rest, .inr (.inl rfl), rfl, hds, hrest⟩
  · obtain ⟨-, rfl⟩ := Prod.mk.inj hsplit
    exact ⟨['-'], ds, rest, .inr (.inr rfl), rfl, hds, hrest⟩
  · obtain ⟨-, rfl⟩ := Prod.mk.inj hsplit
    exact ⟨[], ds, rest, .inl rfl, rfl, hds, hrest⟩

/-- The letters that begin an exponent. -/
def IsExponent (c : Char) : Prop := c = 'e' ∨ c = 'E'

theorem skipExponent_digits {ds rest sign : List Char} {c : Char} (hc : IsExponent c)
    (h : Digits ds) (hr : Breaks rest) (hsign : IsSign sign) :
    skipExponent (c :: (sign ++ (ds ++ rest))) = .ok rest := by
  have hskip := skip_digits h hr
  obtain ⟨d, cs, rfl, hplus, hminus⟩ := not_sign_of_digits h
  rcases hc with rfl | rfl <;> rcases hsign with rfl | rfl | rfl <;>
    simpa [skipExponent, hplus, hminus] using hskip

/-- What is read is a part of the text that stands for the number wherever it ends. -/
def Stands (read : List Char → Except Fault (Number × List Char)) (n : Number) (l : List Char) :
    Prop :=
  ∀ rest, Closes rest → read (l ++ rest) = .ok (n, rest)

theorem closes_breaks {rest : List Char} (h : Closes rest) : Breaks rest := fun c hc => (h c hc).1

theorem of_readExponent (h : readExponent negative significand exponent cs = .ok (n, x)) :
    (∀ c, IsExponent c → skipExponent (c :: cs) = .ok x) ∧
      ∃ l, cs = l ++ x ∧ Stands (readExponent negative significand exponent) n l := by
  obtain ⟨sign, ds, rest, hsign, rfl, hds, hrest⟩ := exists_of_readExponent h
  rw [readExponent_digits hds hrest hsign] at h
  obtain ⟨hn, rfl⟩ := of_map_rest h
  refine ⟨fun c hc => skipExponent_digits hc hds hrest hsign, sign ++ ds,
    (List.append_assoc _ _ _).symm, fun more hmore => ?_⟩
  rw [List.append_assoc, readExponent_digits hds (closes_breaks hmore) hsign, hn]
  rfl

theorem readFraction_exponent (negative : Bool) (significand : Nat) (exponent : Int)
    {ds : List Char} (h : Digits ds) : ∃ s e,
    (∀ c more, IsExponent c →
      readFraction negative significand exponent (ds ++ c :: more) =
        readExponent negative s e more) ∧
    ∀ rest, Breaks rest → (∀ c ∈ rest.head?, ¬ IsExponent c) →
      readFraction negative significand exponent (ds ++ rest) =
        (real negative s e).map (·, rest) := by
  obtain ⟨d, cs, hds, -⟩ := h.eq_cons
  refine ⟨(accumulate significand ds).1,
    exponent - (ds.length - (accumulate significand ds).2.length : Nat), ?_, ?_⟩
  · rintro c more (rfl | rfl)
    all_goals
      unfold readFraction
      rw [h.takeWhile (breaks_cons rfl _), h.dropWhile (breaks_cons rfl _), hds]
      rfl
  · intro rest hr he
    unfold readFraction
    rw [h.takeWhile hr, h.dropWhile hr, hds]
    dsimp only
    split
    · exact absurd (.inl rfl) (he _ rfl)
    · exact absurd (.inr rfl) (he _ rfl)
    · rfl

theorem not_exponent_of_closes {rest : List Char} (h : Closes rest) :
    ∀ c ∈ rest.head?, ¬ IsExponent c := by
  rintro c hc (rfl | rfl)
  · exact (h _ hc).2.2.1 rfl
  · exact (h _ hc).2.2.2 rfl

theorem skipExponent_other {rest : List Char} (h : ∀ c ∈ rest.head?, ¬ IsExponent c) :
    skipExponent rest = .ok rest := by
  unfold skipExponent
  split
  any_goals rfl
  all_goals simp_all [IsExponent]

/-- A text goes on with an exponent, or with something else. -/
theorem exponent_or (rest : List Char) :
    (∃ c more, rest = c :: more ∧ IsExponent c) ∨ ∀ c ∈ rest.head?, ¬ IsExponent c := by
  cases rest with
  | nil => exact .inr (by simp)
  | cons c more =>
    by_cases hc : IsExponent c
    · exact .inl ⟨c, more, rfl, hc⟩
    · refine .inr fun d hd => ?_
      obtain rfl : c = d := by simpa using hd
      exact hc

theorem of_readFraction (h : readFraction negative significand exponent cs = .ok (n, x)) :
    (∃ rest, skipDigits cs = .ok rest ∧ skipExponent rest = .ok x) ∧
      ∃ l, cs = l ++ x ∧ Stands (readFraction negative significand exponent) n l := by
  have hdigits : cs.takeWhile isDigit ≠ [] := by
    intro hnil
    simp [readFraction, hnil] at h
  obtain ⟨ds, rest, rfl, hds, hrest⟩ := exists_digits hdigits
  obtain ⟨s, e, hexp, hend⟩ := readFraction_exponent negative significand exponent hds
  rcases exponent_or rest with ⟨c, more, rfl, hc⟩ | hother
  · rw [hexp c more hc] at h
    obtain ⟨hskip, l, rfl, hl⟩ := of_readExponent h
    refine ⟨⟨_, skip_digits hds hrest, hskip c hc⟩, ds ++ c :: l, by simp, fun tail htail => ?_⟩
    rw [List.append_assoc, List.cons_append, hexp c _ hc]
    exact hl tail htail
  · rw [hend rest hrest hother] at h
    obtain ⟨hn, rfl⟩ := of_map_rest h
    refine ⟨⟨_, skip_digits hds hrest, skipExponent_other hother⟩, ds, rfl, fun tail htail => ?_⟩
    rw [hend tail (closes_breaks htail) (not_exponent_of_closes htail), hn]
    rfl

/-- A whole number has no zero in front of other digits. -/
def WholePart (ds : List Char) : Prop := Digits ds ∧ ∀ c cs, ds ≠ '0' :: c :: cs

theorem WholePart.skip {ds rest : List Char} (h : WholePart ds) (hr : Breaks rest) :
    skipWhole (ds ++ rest) = .ok rest := by
  have hskip := skip_digits h.1 hr
  unfold skipWhole
  split
  · next c more heq =>
    obtain ⟨d, cs, rfl, -⟩ := h.1.eq_cons
    obtain ⟨rfl, htail⟩ := List.cons.inj heq
    cases cs with
    | cons e es => exact absurd rfl (h.2 e es)
    | nil =>
      obtain rfl : rest = c :: more := htail
      rw [if_neg (by simp [hr c rfl])]
  · exact hskip

theorem readUnsigned_whole (negative : Bool) {ds : List Char} (h : WholePart ds) :
    ∃ s e, ∃ r : Except Fault Number,
    (∀ more, readUnsigned negative (ds ++ '.' :: more) = readFraction negative s e more) ∧
    (∀ c more, IsExponent c →
      readUnsigned negative (ds ++ c :: more) = readExponent negative s e more) ∧
    ∀ rest, Breaks rest → (∀ more, rest ≠ '.' :: more) → (∀ c ∈ rest.head?, ¬ IsExponent c) →
      readUnsigned negative (ds ++ rest) = r.map (·, rest) := by
  obtain ⟨hds, hzero⟩ := h
  refine ⟨(accumulate 0 ds).1, (accumulate 0 ds).2.length,
    if (accumulate 0 ds).2.isEmpty then integer negative (accumulate 0 ds).1
      else real negative (accumulate 0 ds).1 (accumulate 0 ds).2.length, ?_, ?_, ?_⟩
  · intro more
    unfold readUnsigned
    rw [hds.takeWhile (breaks_cons rfl _), hds.dropWhile (breaks_cons rfl _)]
    dsimp only
    split
    · exact absurd rfl hds.ne_nil
    · exact absurd rfl (hzero _ _)
    · rfl
  · rintro c more (rfl | rfl)
    all_goals
      unfold readUnsigned
      rw [hds.takeWhile (breaks_cons rfl _), hds.dropWhile (breaks_cons rfl _)]
      dsimp only
      split
      · exact absurd rfl hds.ne_nil
      · exact absurd rfl (hzero _ _)
      · rfl
  · intro rest hr hdot he
    unfold readUnsigned
    rw [hds.takeWhile hr, hds.dropWhile hr]
    dsimp only
    split
    · exact absurd rfl hds.ne_nil
    · exact absurd rfl (hzero _ _)
    · split
      · exact absurd rfl (hdot _)
      · exact absurd (.inl rfl) (he _ rfl)
      · exact absurd (.inr rfl) (he _ rfl)
      · split <;> rfl

theorem exists_of_readUnsigned {r : Number × List Char} (h : readUnsigned negative cs = .ok r) :
    ∃ ds rest, cs = ds ++ rest ∧ WholePart ds ∧ Breaks rest := by
  have hdigits : cs.takeWhile isDigit ≠ [] := by
    intro hnil
    simp [readUnsigned, hnil] at h
  obtain ⟨ds, rest, rfl, hds, hrest⟩ := exists_digits hdigits
  refine ⟨ds, rest, rfl, ⟨hds, ?_⟩, hrest⟩
  rintro c more rfl
  unfold readUnsigned at h
  rw [hds.takeWhile hrest, hds.dropWhile hrest] at h
  nomatch h

theorem skipUnsigned_whole {ds : List Char} (h : WholePart ds) :
    (∀ more, skipUnsigned (ds ++ '.' :: more) = skipDigits more >>= skipExponent) ∧
      ∀ rest, Breaks rest → (∀ more, rest ≠ '.' :: more) →
        skipUnsigned (ds ++ rest) = skipExponent rest := by
  constructor
  · intro more
    unfold skipUnsigned
    rw [h.skip (breaks_cons rfl _)]
    rfl
  · intro rest hr hdot
    unfold skipUnsigned
    rw [h.skip hr]
    dsimp only [bind, Except.bind]
    split
    · exact absurd rfl (hdot _)
    · rfl

theorem of_readUnsigned (h : readUnsigned negative cs = .ok (n, x)) :
    skipUnsigned cs = .ok x ∧ ∃ l, cs = l ++ x ∧ Stands (readUnsigned negative) n l := by
  obtain ⟨ds, rest, rfl, hds, hrest⟩ := exists_of_readUnsigned h
  obtain ⟨s, e, r, hpoint, hexp, hend⟩ := readUnsigned_whole negative hds
  obtain ⟨hskip, hskip'⟩ := skipUnsigned_whole hds
  by_cases hdot : ∃ more, rest = '.' :: more
  · obtain ⟨more, rfl⟩ := hdot
    rw [hpoint] at h
    obtain ⟨⟨more', hmore, hx⟩, l, rfl, hl⟩ := of_readFraction h
    refine ⟨?_, ds ++ '.' :: l, by simp, fun tail htail => ?_⟩
    · rw [hskip, hmore]
      exact hx
    · rw [List.append_assoc, List.cons_append, hpoint]
      exact hl tail htail
  have hdot : ∀ more, rest ≠ '.' :: more := fun more heq => hdot ⟨more, heq⟩
  rw [hskip' rest hrest hdot]
  rcases exponent_or rest with ⟨c, more, rfl, hc⟩ | hother
  · rw [hexp c more hc] at h
    obtain ⟨hx, l, rfl, hl⟩ := of_readExponent h
    refine ⟨hx c hc, ds ++ c :: l, by simp, fun tail htail => ?_⟩
    rw [List.append_assoc, List.cons_append, hexp c _ hc]
    exact hl tail htail
  · rw [hend rest hrest hdot hother] at h
    obtain ⟨hn, rfl⟩ := of_map_rest h
    refine ⟨skipExponent_other hother, ds, rfl, fun tail htail => ?_⟩
    rw [hend tail (closes_breaks htail) (fun more => (closes_dot htail more).1)
      (not_exponent_of_closes htail), hn]
    rfl

theorem readNumber_of_ne {cs : List Char} (h : ∀ text, cs ≠ '-' :: text) :
    readNumber cs = readUnsigned false cs ∧ skipNumber cs = skipUnsigned cs := by
  unfold readNumber skipNumber
  constructor
  · split
    · exact absurd rfl (h _)
    · rfl
  · split
    · exact absurd rfl (h _)
    · rfl

theorem not_stands_nil {negative : Bool} : ¬ Stands (readUnsigned negative) n [] := by
  intro h
  nomatch h [] closes_nil

theorem of_readNumber (h : readNumber cs = .ok (n, x)) :
    skipNumber cs = .ok x ∧ ∃ c l, cs = c :: l ++ x ∧ Stands readNumber n (c :: l) := by
  by_cases hminus : ∃ text, cs = '-' :: text
  · obtain ⟨text, rfl⟩ := hminus
    obtain ⟨hskip, l, rfl, hl⟩ := of_readUnsigned h
    exact ⟨hskip, '-', l, rfl, hl⟩
  · have hother : ∀ text, cs ≠ '-' :: text := fun text heq => hminus ⟨text, heq⟩
    obtain ⟨hread, hskip⟩ := readNumber_of_ne hother
    rw [hread] at h
    rw [hskip]
    obtain ⟨hskip, l, rfl, hl⟩ := of_readUnsigned h
    cases l with
    | nil => exact absurd hl not_stands_nil
    | cons c l =>
      refine ⟨hskip, c, l, rfl, fun tail htail => ?_⟩
      have hne : ∀ text, c :: l ++ tail ≠ '-' :: text := by
        intro text heq
        exact hother (l ++ x) (by rw [(List.cons.inj heq).1, List.cons_append])
      rw [(readNumber_of_ne hne).1]
      exact hl tail htail

/-! ## Literal names -/

theorem readName_append (name rest : List Char) : readName name (name ++ rest) = .ok rest := by
  induction name with
  | nil => rfl
  | cons c name ih => rw [List.cons_append, readName, if_pos rfl, ih]

theorem of_readName {name : List Char} (h : readName name cs = .ok x) : cs = name ++ x := by
  induction name generalizing cs with
  | nil => exact Except.ok.inj h
  | cons c name ih =>
    cases cs with
    | nil => nomatch h
    | cons d ds =>
      rw [readName] at h
      split at h
      · next heq => rw [heq, ih h, List.cons_append]
      · nomatch h

end EdmxGen.Json
