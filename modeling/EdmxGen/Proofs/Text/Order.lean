import EdmxGen.Proofs.Text.Utf8

/-!
# The order of texts

Texts are ordered by the code points of their characters, which is the order of their bytes
(`encode_le_encode_iff`): a character with a greater number has a greater first byte or, behind the
same one, greater groups of six bits.
-/

namespace EdmxGen.Text.Utf8

/-- How many bytes the character of this number owes behind its first one. -/
def owedBy (v : Nat) : Nat :=
  if v < 0x80 then 0 else if v < 0x800 then 1 else if v < 0x10000 then 2 else 3

/-- What is added to the first bits of a character that owes this many bytes. -/
def leadOf : Nat → Nat
  | 0 => 0
  | 1 => 0xC0
  | 2 => 0xE0
  | _ => 0xF0

/-- The first byte of the character of this number, as a number. -/
def firstOf (v : Nat) : Nat := v / 64 ^ owedBy v + leadOf (owedBy v)

/-! ## Characters -/

theorem firstOf_cases {v : Nat} (hv : v < 0x110000) :
    (owedBy v = 0 ∧ firstOf v = v ∧ v < 0x80) ∨
      (owedBy v = 1 ∧ firstOf v = v / 64 + 0xC0 ∧ 0x80 ≤ v ∧ v < 0x800) ∨
      (owedBy v = 2 ∧ firstOf v = v / 4096 + 0xE0 ∧ 0x800 ≤ v ∧ v < 0x10000) ∨
      (owedBy v = 3 ∧ firstOf v = v / 262144 + 0xF0 ∧ 0x10000 ≤ v ∧ v < 0x110000) := by
  unfold firstOf owedBy
  by_cases h1 : v < 0x80
  · rw [if_pos h1]
    exact Or.inl ⟨rfl, Nat.div_one v, h1⟩
  rw [if_neg h1]
  by_cases h2 : v < 0x800
  · rw [if_pos h2]
    exact Or.inr (Or.inl ⟨rfl, rfl, by omega, h2⟩)
  rw [if_neg h2]
  by_cases h3 : v < 0x10000
  · rw [if_pos h3]
    exact Or.inr (Or.inr (Or.inl ⟨rfl, rfl, by omega, h3⟩))
  · rw [if_neg h3]
    exact Or.inr (Or.inr (Or.inr ⟨rfl, rfl, by omega, hv⟩))

theorem val_lt (c : Char) : c.val.toNat < 0x110000 := by
  have := isValid_val c
  omega

theorem encodeChar_eq (c : Char) : String.utf8EncodeChar c =
    UInt8.ofNat (firstOf c.val.toNat) :: continuation c.val.toNat (owedBy c.val.toNat) := by
  rcases firstOf_cases (val_lt c) with ⟨ho, hf, h⟩ | ⟨ho, hf, h, h'⟩ | ⟨ho, hf, h, h'⟩ |
      ⟨ho, hf, h, h'⟩
  · rw [ho, hf, encode_one rfl h]
    rfl
  · rw [ho, hf, encode_two rfl h h']
  · rw [ho, hf, encode_three rfl h h']
  · rw [ho, hf, encode_four rfl h h']

theorem firstOf_lt {v : Nat} (hv : v < 0x110000) : firstOf v < 256 := by
  have := firstOf_cases hv
  omega

/-- A greater number has a greater first byte, or one that begins as many bytes. -/
theorem firstOf_of_lt {v w : Nat} (h : v < w) (hw : w < 0x110000) :
    firstOf v < firstOf w ∨ owedBy v = owedBy w ∧ firstOf v = firstOf w := by
  have hv := firstOf_cases (Nat.lt_trans h hw)
  have hw := firstOf_cases hw
  omega

/-- Of two numbers with the same first bits, the greater one has the greater groups of six bits. -/
theorem continuation_lt {v w : Nat} (h : v < w) {n : Nat} (hn : v / 64 ^ n = w / 64 ^ n)
    (xs ys : List UInt8) : continuation v n ++ xs < continuation w n ++ ys := by
  induction n with
  | zero =>
    rw [Nat.pow_zero, Nat.div_one, Nat.div_one] at hn
    omega
  | succ n ih =>
    have hle : v / 64 ^ n ≤ w / 64 ^ n := Nat.div_le_div_right (Nat.le_of_lt h)
    have hv := div_group v n
    have hw := div_group w n
    unfold continuation
    rw [List.cons_append, List.cons_append, List.cons_lt_cons_iff, UInt8.lt_iff_toNat_lt,
      ← UInt8.toNat_inj, toNat_group, toNat_group]
    by_cases heq : v / 64 ^ n = w / 64 ^ n
    · exact Or.inr ⟨by rw [heq], ih heq⟩
    · exact Or.inl (by omega)

/-- The bytes of a lesser character come first, whatever follows. -/
theorem encodeChar_lt {c d : Char} (h : c < d) (xs ys : List UInt8) :
    String.utf8EncodeChar c ++ xs < String.utf8EncodeChar d ++ ys := by
  have hlt : c.val.toNat < d.val.toNat := h
  rw [encodeChar_eq, encodeChar_eq, List.cons_append, List.cons_append, List.cons_lt_cons_iff,
    UInt8.lt_iff_toNat_lt, toNat_ofNat_of_lt (firstOf_lt (val_lt c)),
    toNat_ofNat_of_lt (firstOf_lt (val_lt d))]
  rcases firstOf_of_lt hlt (val_lt d) with hfirst | ⟨howed, hfirst⟩
  · exact Or.inl hfirst
  · refine Or.inr ⟨by rw [hfirst], ?_⟩
    unfold firstOf at hfirst
    rw [howed] at hfirst ⊢
    exact continuation_lt hlt (by omega) xs ys

/-! ## Texts -/

theorem encode_cons (c : Char) (cs : List Char) :
    encode (c :: cs) = String.utf8EncodeChar c ++ encode cs := List.flatMap_cons

theorem encode_lt_encode {cs ds : List Char} (h : cs < ds) : encode cs < encode ds := by
  replace h : List.Lex (· < ·) cs ds := h
  induction h with
  | nil =>
    rw [encode_cons, encodeChar_eq]
    exact List.Lex.nil
  | rel hlt =>
    rw [encode_cons, encode_cons]
    exact encodeChar_lt hlt _ _
  | cons _ ih =>
    rw [encode_cons, encode_cons]
    exact List.append_left_lt ih

/-- Texts are ordered as their bytes are. -/
theorem encode_le_encode_iff {s t : String} :
    encode s.toList ≤ encode t.toList ↔ s ≤ t := by
  constructor
  · exact fun h hlt => h (encode_lt_encode hlt)
  · intro h hlt
    by_cases hle : t ≤ s
    · obtain rfl := String.le_antisymm h hle
      exact List.lt_irrefl _ hlt
    · have hst : s < t := Decidable.not_not.1 hle
      exact List.lt_asymm (encode_lt_encode hst) hlt

end EdmxGen.Text.Utf8
