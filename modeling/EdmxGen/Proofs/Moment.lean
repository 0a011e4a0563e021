import EdmxGen.Moment
import EdmxGen.Proofs.Text.Digits

/-!
# Written moments

A written moment has digits, letters, blanks, colons and signs only (`not_mem_write`). So no mark
stands in it, and no comment ends there.
-/

namespace EdmxGen

open Text

namespace Moment

/-- The character can stand in a written moment. -/
def isClockChar (c : Char) : Bool :=
  isDigit c || isLetter c || c == ' ' || c == ':' || c == '+' || c == '-'

section

variable {c : Char} (hc : isClockChar c = false)

include hc

theorem ne_of_isClockChar {d : Char} (hd : isClockChar d = true) : c ≠ d := by
  intro h
  rw [h, hd] at hc
  nomatch hc

theorem not_mem_padded (width n : Nat) : c ∉ decimalPadded width n := by
  intro h
  rcases List.mem_append.1 h with h | h
  · exact ne_of_isClockChar hc (by decide) (List.eq_of_mem_replicate h)
  · have hdigit : isDigit c = true := isDigit_of_mem_decimal h
    simp [isClockChar, hdigit] at hc

theorem not_mem_name {names : List String} (h : names.all fun n => n.toList.all isClockChar)
    (i : Nat) : c ∉ (names.getD i "").toList := by
  rw [List.getD_eq_getElem?_getD]
  cases hi : names[i]? with
  | none => simp
  | some n =>
    intro hmem
    have hname := List.all_eq_true.1 h n (List.mem_of_getElem? hi)
    exact ne_of_isClockChar hc (List.all_eq_true.1 hname c hmem) rfl

theorem not_mem_year (year : Int) : c ∉ writeYear year := by
  have h := not_mem_padded hc 4 year.natAbs
  have hplus : c ≠ '+' := ne_of_isClockChar hc (by decide)
  have hminus : c ≠ '-' := ne_of_isClockChar hc (by decide)
  unfold writeYear
  split
  · simpa [hminus] using h
  · split
    · simpa [hplus] using h
    · exact h

theorem not_mem_offset (offset : Int) : c ∉ writeOffset offset := by
  have hplus : c ≠ '+' := ne_of_isClockChar hc (by decide)
  have hminus : c ≠ '-' := ne_of_isClockChar hc (by decide)
  unfold writeOffset
  split <;> simp [not_mem_padded hc, hplus, hminus]

/-- What no clock shows is in no written moment. -/
theorem not_mem_write (m : Moment) : c ∉ m.write := by
  have hday := not_mem_name hc
    (by decide +kernel : weekdays.all fun n => n.toList.all isClockChar)
  have hmonth := not_mem_name hc
    (by decide +kernel : months.all fun n => n.toList.all isClockChar)
  have hblank : c ≠ ' ' := ne_of_isClockChar hc (by decide)
  have hcolon : c ≠ ':' := ne_of_isClockChar hc (by decide)
  have hzone : c ≠ 'G' ∧ c ≠ 'M' ∧ c ≠ 'T' :=
    ⟨ne_of_isClockChar hc (by decide), ne_of_isClockChar hc (by decide),
      ne_of_isClockChar hc (by decide)⟩
  simp only [write, writeTime, List.mem_append, List.mem_cons, List.not_mem_nil, hday, hmonth,
    hblank, hcolon, hzone, not_mem_padded hc, not_mem_year hc, not_mem_offset hc, or_self,
    not_false_eq_true]

end

end Moment

end EdmxGen
