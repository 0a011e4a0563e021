import EdmxGen.Text.Basic
import Mathlib.Data.List.Infix

/-!
# Decimal texts of numbers

The decimal text of a number consists of digits, has no zero in front unless it is that of zero, and
stands for the number. What a decimal text begins with is the decimal text of a smaller number. A
run of digits ends where no digit follows (`Digits.takeWhile`).
-/

namespace EdmxGen.Text

theorem isDigit_iff {c : Char} : isDigit c = true ↔ c.isDigit = true := Iff.rfl

theorem isDigit_of_mem_decimal {n : Nat} {c : Char} (h : c ∈ decimal n) : isDigit c = true :=
  isDigit_iff.2 (Nat.isDigit_of_mem_toDigits (by omega) (by omega) h)

theorem decimal_ne_nil (n : Nat) : decimal n ≠ [] := Nat.toDigits_ne_nil

theorem ofDecimal_decimal (n : Nat) : ofDecimal (decimal n) = n := Nat.ofDigitChars_ten_toDigits

theorem decimal_of_ten_le {n : Nat} (h : 10 ≤ n) :
    decimal n = decimal (n / 10) ++ [Nat.digitChar (n % 10)] :=
  Nat.toDigits_of_base_le (by omega) h

/-- A decimal text with a zero in front is that of zero. -/
theorem decimal_ne_zero_cons (n : Nat) (c : Char) (cs : List Char) :
    decimal n ≠ '0' :: c :: cs := by
  induction n using Nat.strongRecOn generalizing c cs with
  | ind n ih =>
    intro h
    by_cases hn : 10 ≤ n
    · rw [decimal_of_ten_le hn] at h
      cases hd : decimal (n / 10) with
      | nil => exact decimal_ne_nil _ hd
      | cons d ds =>
        rw [hd, List.cons_append] at h
        obtain ⟨rfl, hds⟩ := List.cons.inj h
        cases ds with
        | cons e es => exact ih (n / 10) (by omega) e es hd
        | nil =>
          have hz : n / 10 = 0 := by rw [← ofDecimal_decimal (n / 10), hd]; rfl
          omega
    · rw [decimal, Nat.toDigits_of_lt_base (by omega)] at h
      simp at h

theorem exists_of_prefix_decimal {n : Nat} {cs : List Char} (h : cs <+: decimal n) (hcs : cs ≠ []) :
    ∃ m ≤ n, cs = decimal m := by
  induction n using Nat.strongRecOn with
  | ind n ih =>
    by_cases hn : 10 ≤ n
    · rw [decimal_of_ten_le hn, List.prefix_concat_iff] at h
      rcases h with rfl | h
      · exact ⟨n, le_rfl, (decimal_of_ten_le hn).symm⟩
      · obtain ⟨m, hm, rfl⟩ := ih (n / 10) (by omega) h
        exact ⟨m, by omega, rfl⟩
    · have hd : decimal n = [Nat.digitChar n] := Nat.toDigits_of_lt_base (by omega)
      rw [hd, ← List.nil_append [_], List.prefix_concat_iff] at h
      rcases h with rfl | h
      · exact ⟨n, le_rfl, hd.symm⟩
      · exact absurd (List.prefix_nil.1 h) hcs

/-! ## Runs of digits -/

/-- A run of one or more digits. -/
structure Digits (ds : List Char) : Prop where
  ne_nil : ds ≠ []
  all : ∀ c ∈ ds, isDigit c = true

/-- What follows is no digit. -/
def Breaks (rest : List Char) : Prop := ∀ c ∈ rest.head?, isDigit c = false

theorem breaks_cons {c : Char} (h : isDigit c = false) (cs : List Char) : Breaks (c :: cs) := by
  intro d hd
  obtain rfl : c = d := by simpa using hd
  exact h

theorem Digits.takeWhile {ds rest : List Char} (h : Digits ds) (hr : Breaks rest) :
    (ds ++ rest).takeWhile isDigit = ds := by
  rw [List.takeWhile_append_of_pos h.all]
  cases rest with
  | nil => simp
  | cons c cs => simp [hr c rfl]

theorem Digits.dropWhile {ds rest : List Char} (h : Digits ds) (hr : Breaks rest) :
    (ds ++ rest).dropWhile isDigit = rest := by
  rw [List.dropWhile_append_of_pos h.all]
  cases rest with
  | nil => simp
  | cons c cs => simp [hr c rfl]

theorem breaks_dropWhile (cs : List Char) : Breaks (cs.dropWhile isDigit) := by
  intro c hc
  have := List.head?_dropWhile_not isDigit cs
  rw [Option.mem_def.1 hc] at this
  simpa using this

/-- The digits with which a text begins. -/
theorem exists_digits {cs : List Char} (h : cs.takeWhile isDigit ≠ []) :
    ∃ ds rest, cs = ds ++ rest ∧ Digits ds ∧ Breaks rest :=
  ⟨cs.takeWhile isDigit, cs.dropWhile isDigit, List.takeWhile_append_dropWhile.symm,
    ⟨h, List.all_eq_true.1 List.all_takeWhile⟩, breaks_dropWhile cs⟩

theorem Digits.eq_cons {ds : List Char} (h : Digits ds) :
    ∃ c cs, ds = c :: cs ∧ isDigit c = true := by
  cases ds with
  | nil => exact absurd rfl h.ne_nil
  | cons c cs => exact ⟨c, cs, rfl, h.all c List.mem_cons_self⟩

theorem digits_decimal (n : Nat) : Digits (decimal n) :=
  ⟨decimal_ne_nil n, fun _ hc => isDigit_of_mem_decimal hc⟩

theorem decimal_head (n : Nat) : ∃ c cs, decimal n = c :: cs ∧ isDigit c = true :=
  (digits_decimal n).eq_cons

theorem takeWhile_isDigit_decimal (n : Nat) {rest : List Char}
    (h : ∀ c ∈ rest.head?, isDigit c = false) :
    (decimal n ++ rest).takeWhile isDigit = decimal n := (digits_decimal n).takeWhile h

theorem dropWhile_isDigit_decimal (n : Nat) {rest : List Char}
    (h : ∀ c ∈ rest.head?, isDigit c = false) :
    (decimal n ++ rest).dropWhile isDigit = rest := (digits_decimal n).dropWhile h

end EdmxGen.Text
