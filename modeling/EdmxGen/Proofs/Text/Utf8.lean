import Mathlib.Algebra.Group.Nat.Defs
import EdmxGen.Text.Utf8

/-!
# Which bytes are text

Decoding accepts exactly the bytes that encode some text, and gives that text (`decode_eq_ok`). A
character begun is described by the numbers it can still become; the bytes that it owes are the last
groups of six bits of such a number.
-/

namespace EdmxGen.Text.Utf8

/-- The bytes for the last groups of six bits of a number. -/
def continuation (v : Nat) : Nat → List UInt8
  | 0 => []
  | n + 1 => UInt8.ofNat (v / 64 ^ n % 64 + 128) :: continuation v n

/-- A character begun can become the one of this number. -/
structure Pending.Reaches (p : Pending) (v : Nat) : Prop where
  bits : v / 64 ^ p.owed = p.bits
  low : p.low.toNat ≤ v / 64 ^ (p.owed - 1) % 64 + 128
  high : v / 64 ^ (p.owed - 1) % 64 + 128 ≤ p.high.toNat

/-- A character begun owes something, all of it bytes that only continue characters. -/
structure Pending.Open (p : Pending) : Prop where
  owed : 0 < p.owed
  low : 128 ≤ p.low.toNat
  high : p.high.toNat < 192

theorem div_group (v n : Nat) : 64 * (v / 64 ^ (n + 1)) + v / 64 ^ n % 64 = v / 64 ^ n := by
  rw [Nat.pow_succ, ← Nat.div_div_eq_div_mul]
  omega

theorem toNat_group (x : Nat) : (UInt8.ofNat (x % 64 + 128)).toNat = x % 64 + 128 := by
  rw [UInt8.toNat_ofNat']
  omega

/-! ## Characters begun -/

section

variable {p q : Pending} {b : UInt8} {v : Nat}

theorem next_of_reaches (h : p.Reaches v) (hopen : p.Open)
    (hb : b = UInt8.ofNat (v / 64 ^ (p.owed - 1) % 64 + 128)) :
    (p.owed = 1 ∧ p.next b = .char (Char.ofNat v)) ∨
      ∃ q, p.next b = .pending q ∧ q.Open ∧ q.Reaches v ∧ p.owed = q.owed + 1 := by
  obtain ⟨n, hn⟩ : ∃ n, p.owed = n + 1 := ⟨p.owed - 1, by have := hopen.owed; omega⟩
  obtain ⟨hbits, hlow, hhigh⟩ := h
  rw [hn] at hbits hlow hhigh hb
  have hvalue : b.toNat = v / 64 ^ n % 64 + 128 := by rw [hb, Nat.add_sub_cancel, toNat_group]
  have hrange : p.low ≤ b ∧ b ≤ p.high := by
    rw [UInt8.le_iff_toNat_le, UInt8.le_iff_toNat_le, hvalue]
    exact ⟨hlow, hhigh⟩
  have hnext : 64 * p.bits + (b.toNat - 0x80) = v / 64 ^ n := by
    rw [← hbits, hvalue, Nat.add_sub_cancel, div_group]
  unfold Pending.next
  rw [if_pos hrange, hnext, hn]
  cases n with
  | zero => simp
  | succ n =>
    refine Or.inr ⟨_, if_neg (by omega), ⟨?_, ?_, ?_⟩, ⟨?_, ?_, ?_⟩, ?_⟩
    all_goals simp
    omega

theorem of_next_char {c : Char} (hopen : p.Open) (h : p.next b = .char c) :
    ∃ v, p.owed = 1 ∧ c = Char.ofNat v ∧ p.Reaches v ∧ b = UInt8.ofNat (v % 64 + 128) := by
  unfold Pending.next at h
  split at h
  · next hrange =>
    rw [UInt8.le_iff_toNat_le, UInt8.le_iff_toNat_le] at hrange
    have hlow := hopen.low
    have hhigh := hopen.high
    dsimp only at h
    split at h
    · next hlast =>
      have howed : p.owed = 1 := by have := hopen.owed; omega
      have hgroup : (64 * p.bits + (b.toNat - 128)) % 64 + 128 = b.toNat := by omega
      refine ⟨64 * p.bits + (b.toNat - 128), howed, (Step.char.inj h).symm, ⟨?_, ?_, ?_⟩, ?_⟩
      · rw [howed]
        omega
      · rw [howed]
        omega
      · rw [howed]
        omega
      · rw [hgroup, UInt8.ofNat_toNat]
    · nomatch h
  · nomatch h

theorem of_next_pending (hopen : p.Open) (h : p.next b = .pending q) :
    q.Open ∧ p.owed = q.owed + 1 ∧ ∀ v, q.Reaches v →
      p.Reaches v ∧ b = UInt8.ofNat (v / 64 ^ q.owed % 64 + 128) := by
  unfold Pending.next at h
  split at h
  · next hrange =>
    rw [UInt8.le_iff_toNat_le, UInt8.le_iff_toNat_le] at hrange
    have hlow := hopen.low
    have hhigh := hopen.high
    dsimp only at h
    split at h
    · nomatch h
    · next hmore =>
      obtain rfl := (Step.pending.inj h).symm
      obtain ⟨n, hn⟩ : ∃ n, p.owed = n + 2 := ⟨p.owed - 2, by omega⟩
      have howed : 0 < p.owed - 1 := by omega
      have hsucc : p.owed = p.owed - 1 + 1 := by omega
      refine ⟨⟨howed, by simp, by simp⟩, hsucc, fun v hv => ?_⟩
      have hbits : v / 64 ^ (n + 1) = 64 * p.bits + (b.toNat - 128) := by
        have := hv.bits
        dsimp only at this
        rwa [hn] at this
      have hgroup : v / 64 ^ (n + 1) % 64 + 128 = b.toNat := by omega
      have hhead : v / 64 ^ (n + 2) = p.bits := by
        have hdiv : 64 * (v / 64 ^ (n + 2)) + v / 64 ^ (n + 1) % 64 = v / 64 ^ (n + 1) :=
          div_group v (n + 1)
        omega
      refine ⟨⟨?_, ?_, ?_⟩, ?_⟩
      · rw [hn]
        exact hhead
      · rw [hn, show n + 2 - 1 = n + 1 from rfl, hgroup]
        exact hrange.1
      · rw [hn, show n + 2 - 1 = n + 1 from rfl, hgroup]
        exact hrange.2
      · show b = UInt8.ofNat (v / 64 ^ (p.owed - 1) % 64 + 128)
        rw [hn, show n + 2 - 1 = n + 1 from rfl, hgroup, UInt8.ofNat_toNat]
  · nomatch h

end

/-! ## First bytes -/

/-- What a byte begins, by its number. -/
theorem begin_eq (b : UInt8) : begin b =
    if b.toNat < 0x80 then .char (Char.ofNat b.toNat)
    else if b.toNat < 0xC2 then .bad
    else if b.toNat < 0xE0 then .pending ⟨b.toNat - 0xC0, 1, 1, 0x80, 0xBF⟩
    else if b.toNat = 0xE0 then .pending ⟨0, 1, 2, 0xA0, 0xBF⟩
    else if b.toNat = 0xED then .pending ⟨0xD, 1, 2, 0x80, 0x9F⟩
    else if b.toNat < 0xF0 then .pending ⟨b.toNat - 0xE0, 1, 2, 0x80, 0xBF⟩
    else if b.toNat = 0xF0 then .pending ⟨0, 1, 3, 0x90, 0xBF⟩
    else if b.toNat < 0xF4 then .pending ⟨b.toNat - 0xF0, 1, 3, 0x80, 0xBF⟩
    else if b.toNat = 0xF4 then .pending ⟨4, 1, 3, 0x80, 0x8F⟩
    else .bad := by
  unfold begin
  simp only [UInt8.lt_iff_toNat_lt, ← UInt8.toNat_inj]
  rfl

theorem isValid_val (c : Char) :
    c.val.toNat < 0xD800 ∨ 0xDFFF < c.val.toNat ∧ c.val.toNat < 0x110000 := c.valid

theorem toNat_ofNat_of_lt {n : Nat} (h : n < 256) : (UInt8.ofNat n).toNat = n := by
  rw [UInt8.toNat_ofNat']
  omega

section

variable {c : Char} {v : Nat}

theorem encode_one (hv : c.val.toNat = v) (h : v < 0x80) :
    String.utf8EncodeChar c = [UInt8.ofNat v] := by
  unfold String.utf8EncodeChar
  rw [hv, if_pos (by omega)]

theorem encode_two (hv : c.val.toNat = v) (h : 0x80 ≤ v) (h' : v < 0x800) :
    String.utf8EncodeChar c = UInt8.ofNat (v / 64 + 0xC0) :: continuation v 1 := by
  have hfirst : v / 64 % 32 = v / 64 := by omega
  unfold String.utf8EncodeChar
  rw [hv, if_neg (by omega), if_pos (by omega), hfirst]
  simp [continuation]

theorem encode_three (hv : c.val.toNat = v) (h : 0x800 ≤ v) (h' : v < 0x10000) :
    String.utf8EncodeChar c = UInt8.ofNat (v / 4096 + 0xE0) :: continuation v 2 := by
  have hfirst : v / 4096 % 16 = v / 4096 := by omega
  unfold String.utf8EncodeChar
  rw [hv, if_neg (by omega), if_neg (by omega), if_pos (by omega), hfirst]
  simp [continuation]

theorem encode_four (hv : c.val.toNat = v) (h : 0x10000 ≤ v) (h' : v < 0x110000) :
    String.utf8EncodeChar c = UInt8.ofNat (v / 262144 + 0xF0) :: continuation v 3 := by
  have hfirst : v / 262144 % 8 = v / 262144 := by omega
  unfold String.utf8EncodeChar
  rw [hv, if_neg (by omega), if_neg (by omega), if_neg (by omega), hfirst]
  simp [continuation]

end

/-- The byte begins a character that can become the one of this number, and that owes some bytes. -/
def Begins (b : UInt8) (v owed : Nat) : Prop :=
  ∃ p, begin b = .pending p ∧ p.owed = owed ∧ p.Open ∧ p.Reaches v

theorem begins_two {v : Nat} (h : 0x80 ≤ v) (h' : v < 0x800) :
    Begins (UInt8.ofNat (v / 64 + 0xC0)) v 1 := by
  refine ⟨⟨v / 64 + 0xC0 - 0xC0, 1, 1, 0x80, 0xBF⟩, ?_, rfl, ⟨by simp, by simp, by simp⟩,
    ⟨?_, ?_, ?_⟩⟩
  · rw [begin_eq, toNat_ofNat_of_lt (by omega), if_neg (by omega), if_neg (by omega),
      if_pos (by omega)]
  · show v / 64 = v / 64 + 0xC0 - 0xC0
    omega
  · show 0x80 ≤ v / 1 % 64 + 128
    omega
  · show v / 1 % 64 + 128 ≤ 0xBF
    omega

/-- The first numbers of three bytes, and those before the surrogates, bound the second byte. -/
theorem begins_three {v : Nat} (h : 0x800 ≤ v) (h' : v < 0x10000)
    (hvalid : v < 0xD800 ∨ 0xDFFF < v) : Begins (UInt8.ofNat (v / 4096 + 0xE0)) v 2 := by
  have hfirst : (UInt8.ofNat (v / 4096 + 0xE0)).toNat = v / 4096 + 0xE0 :=
    toNat_ofNat_of_lt (by omega)
  by_cases h0 : v / 4096 = 0
  · refine ⟨⟨0, 1, 2, 0xA0, 0xBF⟩, ?_, rfl, ⟨by simp, by simp, by simp⟩, ⟨h0, ?_, ?_⟩⟩
    · rw [begin_eq, hfirst, h0]
      rfl
    · show 0xA0 ≤ v / 64 % 64 + 128
      omega
    · show v / 64 % 64 + 128 ≤ 0xBF
      omega
  by_cases h13 : v / 4096 = 13
  · refine ⟨⟨0xD, 1, 2, 0x80, 0x9F⟩, ?_, rfl, ⟨by simp, by simp, by simp⟩, ⟨h13, ?_, ?_⟩⟩
    · rw [begin_eq, hfirst, h13]
      rfl
    · show 0x80 ≤ v / 64 % 64 + 128
      omega
    · show v / 64 % 64 + 128 ≤ 0x9F
      omega
  refine ⟨⟨v / 4096 + 0xE0 - 0xE0, 1, 2, 0x80, 0xBF⟩, ?_, rfl, ⟨by simp, by simp, by simp⟩,
    ⟨?_, ?_, ?_⟩⟩
  · rw [begin_eq, hfirst, if_neg (by omega), if_neg (by omega), if_neg (by omega),
      if_neg (by omega), if_neg (by omega), if_pos (by omega)]
  · show v / 4096 = v / 4096 + 0xE0 - 0xE0
    omega
  · show 0x80 ≤ v / 64 % 64 + 128
    omega
  · show v / 64 % 64 + 128 ≤ 0xBF
    omega

/-- So do the first numbers of four bytes and the last ones. -/
theorem begins_four {v : Nat} (h : 0x10000 ≤ v) (h' : v < 0x110000) :
    Begins (UInt8.ofNat (v / 262144 + 0xF0)) v 3 := by
  have hfirst : (UInt8.ofNat (v / 262144 + 0xF0)).toNat = v / 262144 + 0xF0 :=
    toNat_ofNat_of_lt (by omega)
  by_cases h0 : v / 262144 = 0
  · refine ⟨⟨0, 1, 3, 0x90, 0xBF⟩, ?_, rfl, ⟨by simp, by simp, by simp⟩, ⟨h0, ?_, ?_⟩⟩
    · rw [begin_eq, hfirst, h0]
      rfl
    · show 0x90 ≤ v / 4096 % 64 + 128
      omega
    · show v / 4096 % 64 + 128 ≤ 0xBF
      omega
  by_cases h4 : v / 262144 = 4
  · refine ⟨⟨4, 1, 3, 0x80, 0x8F⟩, ?_, rfl, ⟨by simp, by simp, by simp⟩, ⟨h4, ?_, ?_⟩⟩
    · rw [begin_eq, hfirst, h4]
      rfl
    · show 0x80 ≤ v / 4096 % 64 + 128
      omega
    · show v / 4096 % 64 + 128 ≤ 0x8F
      omega
  refine ⟨⟨v / 262144 + 0xF0 - 0xF0, 1, 3, 0x80, 0xBF⟩, ?_, rfl, ⟨by simp, by simp, by simp⟩,
    ⟨?_, ?_, ?_⟩⟩
  · rw [begin_eq, hfirst, if_neg (by omega), if_neg (by omega), if_neg (by omega),
      if_neg (by omega), if_neg (by omega), if_neg (by omega), if_neg (by omega),
      if_pos (by omega)]
  · show v / 262144 = v / 262144 + 0xF0 - 0xF0
    omega
  · show 0x80 ≤ v / 4096 % 64 + 128
    omega
  · show v / 4096 % 64 + 128 ≤ 0xBF
    omega

/-- The first byte of a character begins it. -/
theorem begin_of_encode (c : Char) :
    (∃ b, String.utf8EncodeChar c = [b] ∧ begin b = .char c) ∨
      ∃ b owed, String.utf8EncodeChar c = b :: continuation c.val.toNat owed ∧
        Begins b c.val.toNat owed := by
  have hvalid := isValid_val c
  generalize hv : c.val.toNat = v at *
  by_cases h1 : v < 0x80
  · refine Or.inl ⟨_, encode_one hv h1, ?_⟩
    rw [begin_eq, toNat_ofNat_of_lt (by omega), if_pos h1, ← hv]
    simp
  by_cases h2 : v < 0x800
  · exact Or.inr ⟨_, 1, encode_two hv (by omega) h2, begins_two (by omega) h2⟩
  by_cases h3 : v < 0x10000
  · exact Or.inr ⟨_, 2, encode_three hv (by omega) h3, begins_three (by omega) h3 (by omega)⟩
  · exact Or.inr ⟨_, 3, encode_four hv (by omega) (by omega), begins_four (by omega) (by omega)⟩

theorem val_ofNat {v : Nat} (hv : v < 0xD800 ∨ 0xDFFF < v ∧ v < 0x110000) :
    (Char.ofNat v).val.toNat = v := by
  have hvalid : v.isValidChar := hv
  rw [Char.ofNat, dif_pos hvalid]
  rfl

/-- What a first byte begins is encoded by it and by what it owes. -/
theorem begin_cases (b : UInt8) :
    begin b = .bad ∨ (begin b = .char (Char.ofNat b.toNat) ∧ b.toNat < 0x80) ∨
      ∃ p, begin b = .pending p ∧ p.Open ∧ ∀ v, p.Reaches v →
        String.utf8EncodeChar (Char.ofNat v) = b :: continuation v p.owed := by
  have hbyte : ∀ n, n = b.toNat → UInt8.ofNat n = b := by
    rintro _ rfl
    exact UInt8.ofNat_toNat
  generalize hs : begin b = s
  rw [begin_eq] at hs
  by_cases h1 : b.toNat < 0x80
  · rw [if_pos h1] at hs
    exact Or.inr (Or.inl ⟨hs.symm, h1⟩)
  rw [if_neg h1] at hs
  by_cases h2 : b.toNat < 0xC2
  · rw [if_pos h2] at hs
    exact Or.inl hs.symm
  rw [if_neg h2] at hs
  by_cases h3 : b.toNat < 0xE0
  · rw [if_pos h3] at hs
    refine Or.inr (Or.inr ⟨_, hs.symm, ⟨by simp, by simp, by simp⟩, fun v hv => ?_⟩)
    have hbits : v / 64 = b.toNat - 0xC0 := hv.bits
    rw [encode_two (val_ofNat (by omega)) (by omega) (by omega), hbyte _ (by omega)]
  rw [if_neg h3] at hs
  by_cases h4 : b.toNat = 0xE0
  · rw [if_pos h4] at hs
    refine Or.inr (Or.inr ⟨_, hs.symm, ⟨by simp, by simp, by simp⟩, fun v hv => ?_⟩)
    have hbits : v / 4096 = 0 := hv.bits
    have hlow : 0xA0 ≤ v / 64 % 64 + 128 := hv.low
    rw [encode_three (val_ofNat (by omega)) (by omega) (by omega), hbyte _ (by omega)]
  rw [if_neg h4] at hs
  by_cases h5 : b.toNat = 0xED
  · rw [if_pos h5] at hs
    refine Or.inr (Or.inr ⟨_, hs.symm, ⟨by simp, by simp, by simp⟩, fun v hv => ?_⟩)
    have hbits : v / 4096 = 0xD := hv.bits
    have hhigh : v / 64 % 64 + 128 ≤ 0x9F := hv.high
    rw [encode_three (val_ofNat (by omega)) (by omega) (by omega), hbyte _ (by omega)]
  rw [if_neg h5] at hs
  by_cases h6 : b.toNat < 0xF0
  · rw [if_pos h6] at hs
    refine Or.inr (Or.inr ⟨_, hs.symm, ⟨by simp, by simp, by simp⟩, fun v hv => ?_⟩)
    have hbits : v / 4096 = b.toNat - 0xE0 := hv.bits
    rw [encode_three (val_ofNat (by omega)) (by omega) (by omega), hbyte _ (by omega)]
  rw [if_neg h6] at hs
  by_cases h7 : b.toNat = 0xF0
  · rw [if_pos h7] at hs
    refine Or.inr (Or.inr ⟨_, hs.symm, ⟨by simp, by simp, by simp⟩, fun v hv => ?_⟩)
    have hbits : v / 262144 = 0 := hv.bits
    have hlow : 0x90 ≤ v / 4096 % 64 + 128 := hv.low
    rw [encode_four (val_ofNat (by omega)) (by omega) (by omega), hbyte _ (by omega)]
  rw [if_neg h7] at hs
  by_cases h8 : b.toNat < 0xF4
  · rw [if_pos h8] at hs
    refine Or.inr (Or.inr ⟨_, hs.symm, ⟨by simp, by simp, by simp⟩, fun v hv => ?_⟩)
    have hbits : v / 262144 = b.toNat - 0xF0 := hv.bits
    rw [encode_four (val_ofNat (by omega)) (by omega) (by omega), hbyte _ (by omega)]
  rw [if_neg h8] at hs
  by_cases h9 : b.toNat = 0xF4
  · rw [if_pos h9] at hs
    refine Or.inr (Or.inr ⟨_, hs.symm, ⟨by simp, by simp, by simp⟩, fun v hv => ?_⟩)
    have hbits : v / 262144 = 4 := hv.bits
    have hhigh : v / 4096 % 64 + 128 ≤ 0x8F := hv.high
    rw [encode_four (val_ofNat (by omega)) (by omega) (by omega), hbyte _ (by omega)]
  · rw [if_neg h9] at hs
    exact Or.inl hs.symm

theorem encode_of_begin_char {b : UInt8} {c : Char} (h : begin b = .char c) :
    String.utf8EncodeChar c = [b] := by
  rcases begin_cases b with hbad | ⟨hchar, hlow⟩ | ⟨p, hpending, _⟩
  · rw [h] at hbad
    nomatch hbad
  · rw [h] at hchar
    obtain rfl := Step.char.inj hchar
    rw [encode_one (val_ofNat (Or.inl (by omega))) hlow, UInt8.ofNat_toNat]
  · rw [h] at hpending
    nomatch hpending

theorem encode_of_begin_pending {b : UInt8} {p : Pending} (h : begin b = .pending p) :
    p.Open ∧ ∀ v, p.Reaches v →
      String.utf8EncodeChar (Char.ofNat v) = b :: continuation v p.owed := by
  rcases begin_cases b with hbad | ⟨hchar, _⟩ | ⟨q, hpending, hq⟩
  · rw [h] at hbad
    nomatch hbad
  · rw [h] at hchar
    nomatch hchar
  · rw [h] at hpending
    obtain rfl := Step.pending.inj hpending
    exact hq

/-! ## Whole texts -/

section

variable {p : Pending} {b : UInt8} {bs : List UInt8} {c : Char} {q : Pending}

theorem decodeFrom_begin_char (h : begin b = .char c) (index : Nat) :
    decodeFrom index none (b :: bs) = (decodeFrom (index + 1) none bs).map (c :: ·) := by
  rw [decodeFrom, h]

theorem decodeFrom_begin_pending (h : begin b = .pending q) (index : Nat) :
    decodeFrom index none (b :: bs) = decodeFrom (index + 1) (some q) bs := by
  rw [decodeFrom, h]

theorem decodeFrom_next_char (h : p.next b = .char c) (index : Nat) :
    decodeFrom index (some p) (b :: bs) = (decodeFrom (index + 1) none bs).map (c :: ·) := by
  rw [decodeFrom, h]

theorem decodeFrom_next_pending (h : p.next b = .pending q) (index : Nat) :
    decodeFrom index (some p) (b :: bs) = decodeFrom (index + 1) (some q) bs := by
  rw [decodeFrom, h]

end

theorem decodeFrom_continuation {p : Pending} {v : Nat} (hopen : p.Open) (h : p.Reaches v)
    (index : Nat) (rest : List UInt8) :
    ∃ index', decodeFrom index (some p) (continuation v p.owed ++ rest)
      = (decodeFrom index' none rest).map (Char.ofNat v :: ·) := by
  induction hn : p.owed generalizing p index with
  | zero => exact absurd hopen.owed (by omega)
  | succ n ih =>
    have hsub : p.owed - 1 = n := by omega
    rcases next_of_reaches h hopen rfl with ⟨hlast, hnext⟩ | ⟨q, hnext, hq, hreaches, howed⟩
    · obtain rfl : n = 0 := by omega
      rw [hsub] at hnext
      exact ⟨index + 1, decodeFrom_next_char hnext index⟩
    · rw [hsub] at hnext
      obtain ⟨index', hrest⟩ := ih hq hreaches (index + 1) (by omega)
      exact ⟨index', (decodeFrom_next_pending hnext index).trans hrest⟩

theorem decodeFrom_encode (cs : List Char) (index : Nat) :
    decodeFrom index none (encode cs) = .ok cs := by
  induction cs generalizing index with
  | nil => rfl
  | cons c cs ih =>
    rw [encode, List.flatMap_cons]
    rcases begin_of_encode c with ⟨b, hencode, hbegin⟩ | ⟨b, _, hencode, hbegins⟩
    · rw [hencode]
      show decodeFrom index none (b :: encode cs) = _
      rw [decodeFrom_begin_char hbegin, ih]
      rfl
    · obtain ⟨p, hbegin, rfl, hopen, hreaches⟩ := hbegins
      rw [hencode, List.cons_append, decodeFrom_begin_pending hbegin]
      obtain ⟨index', hrest⟩ := decodeFrom_continuation hopen hreaches (index + 1) (encode cs)
      have hchar : Char.ofNat c.val.toNat = c := by simp
      rw [encode] at hrest
      rw [hrest, hchar]
      show (decodeFrom index' none (encode cs)).map _ = _
      rw [ih]
      rfl

/-- What a character begun becomes, and what is left of the bytes then. -/
theorem of_decodeFrom_some {p : Pending} (hopen : p.Open) {index : Nat} {bs : List UInt8}
    {text : List Char} (h : decodeFrom index (some p) bs = .ok text) :
    ∃ v rest text' index', p.Reaches v ∧ bs = continuation v p.owed ++ rest ∧
      text = Char.ofNat v :: text' ∧ decodeFrom index' none rest = .ok text' := by
  induction bs generalizing p index with
  | nil => nomatch h
  | cons b bs ih =>
    cases hnext : p.next b with
    | bad =>
      rw [decodeFrom, hnext] at h
      nomatch h
    | char c =>
      rw [decodeFrom_next_char hnext] at h
      obtain ⟨v, howed, rfl, hreaches, rfl⟩ := of_next_char hopen hnext
      cases hrest : decodeFrom (index + 1) none bs with
      | error f =>
        rw [hrest] at h
        nomatch h
      | ok text' =>
        rw [hrest] at h
        refine ⟨v, bs, text', _, hreaches, ?_, (Except.ok.inj h).symm, hrest⟩
        rw [howed]
        simp [continuation]
    | pending q =>
      rw [decodeFrom_next_pending hnext] at h
      obtain ⟨hq, howed, hback⟩ := of_next_pending hopen hnext
      obtain ⟨v, rest, text', index', hreaches, rfl, htext, hrest⟩ := ih hq h
      obtain ⟨hp, rfl⟩ := hback v hreaches
      refine ⟨v, rest, text', index', hp, ?_, htext, hrest⟩
      rw [howed]
      rfl

theorem encode_of_decodeFrom {index : Nat} {bs : List UInt8} {text : List Char}
    (h : decodeFrom index none bs = .ok text) : encode text = bs := by
  induction hn : bs.length using Nat.strongRecOn generalizing index bs text with
  | ind n ih =>
    cases bs with
    | nil =>
      obtain rfl := Except.ok.inj h
      rfl
    | cons b bs =>
      rw [List.length_cons] at hn
      cases hbegin : begin b with
      | bad =>
        rw [decodeFrom, hbegin] at h
        nomatch h
      | char c =>
        rw [decodeFrom_begin_char hbegin] at h
        cases hrest : decodeFrom (index + 1) none bs with
        | error f =>
          rw [hrest] at h
          nomatch h
        | ok text' =>
          rw [hrest] at h
          obtain rfl := Except.ok.inj h
          have htail : encode text' = bs := ih bs.length (by omega) hrest rfl
          rw [encode] at htail ⊢
          rw [List.flatMap_cons, encode_of_begin_char hbegin, htail]
          rfl
      | pending q =>
        rw [decodeFrom_begin_pending hbegin] at h
        obtain ⟨hopen, hencode⟩ := encode_of_begin_pending hbegin
        obtain ⟨v, rest, text', index', hreaches, rfl, rfl, hrest⟩ := of_decodeFrom_some hopen h
        have htail : encode text' = rest := by
          refine ih rest.length ?_ hrest rfl
          rw [List.length_append] at hn
          omega
        rw [encode] at htail ⊢
        rw [List.flatMap_cons, hencode v hreaches, htail, List.cons_append]

/-- Bytes are text exactly if they encode it. -/
theorem decode_eq_ok {bs : List UInt8} {text : List Char} :
    decode bs = .ok text ↔ encode text = bs := by
  constructor
  · exact encode_of_decodeFrom
  · rintro rfl
    exact decodeFrom_encode text 0

end EdmxGen.Text.Utf8
