import EdmxGen.Model.Basic
import EdmxGen.Proofs.Text.Cut

/-!
# Where a collection is found

The words `Collection(` of a text and the closing parentheses behind them can pair up in many ways.
A type reference takes the first word that is closed on its line, and closes it at the last
parenthesis of that line (`FirstWrap`). It finds a collection whenever a word is closed at all
(`elementType?_eq_none_iff`), and a text has no two first collections (`FirstWrap.inner_eq`).
-/

namespace EdmxGen.TypeRef

open Text

/-- A text wraps an inner one: the opening word stands before it, a closing parenthesis behind it,
and no line ends inside. -/
structure Wraps (text a b c : List Char) : Prop where
  parts : text = a ++ opening ++ b ++ ')' :: c
  line : '\n' ∉ b

/-- The wrapper that begins first, and of those that begin there the longest. -/
structure FirstWrap (text a b c : List Char) : Prop extends Wraps text a b c where
  first : ∀ a' b' c', Wraps text a' b' c' → a.length ≤ a'.length
  longest : ∀ b' c', Wraps text a b' c' → b'.length ≤ b.length

variable {text rest line a b c a' b' c' : List Char}

/-! ## The last parenthesis of a line -/

theorem beforeLastClosing_eq_none (h : beforeLastClosing line = none) : ')' ∉ line := by
  unfold beforeLastClosing at h
  cases hdrop : line.reverse.dropWhile (· != ')') with
  | nil =>
    rw [dropWhile_ne_eq_nil_iff] at hdrop
    exact fun hmem => hdrop (List.mem_reverse.2 hmem)
  | cons d before =>
    rw [hdrop] at h
    nomatch h

theorem beforeLastClosing_eq_some (h : beforeLastClosing line = some b) :
    ∃ c, line = b ++ ')' :: c ∧ ')' ∉ c := by
  unfold beforeLastClosing at h
  cases hdrop : line.reverse.dropWhile (· != ')') with
  | nil =>
    rw [hdrop] at h
    nomatch h
  | cons d before =>
    rw [hdrop] at h
    obtain rfl := Option.some.inj h
    obtain ⟨-, hsplit⟩ := eq_append_of_dropWhile_ne hdrop
    refine ⟨(line.reverse.takeWhile (· != ')')).reverse, ?_, ?_⟩
    · simpa using congrArg List.reverse hsplit
    · exact fun hmem => not_mem_takeWhile_ne _ (List.mem_reverse.1 hmem)

/-- A character that does not come again divides a text farther on than any other of its kind. -/
theorem length_le_of_not_mem {y : Char} (hc : y ∉ c) (h : b' ++ y :: c' = b ++ y :: c) :
    b'.length ≤ b.length := by
  rcases List.append_eq_append_iff.1 h with ⟨r, rfl, -⟩ | ⟨r, rfl, hr⟩
  · rw [List.length_append]
    exact Nat.le_add_right _ _
  · cases r with
    | nil => rw [List.append_nil]
    | cons d r =>
      obtain ⟨-, rfl⟩ := List.cons.inj hr
      exact absurd (List.mem_append_right r List.mem_cons_self) hc

/-- The line of a parenthesis with no line end before it reaches beyond the parenthesis. -/
theorem takeWhile_line (hb : '\n' ∉ b) :
    (b ++ ')' :: c).takeWhile (· != '\n') = b ++ ')' :: c.takeWhile (· != '\n') := by
  rw [List.takeWhile_append_of_pos, List.takeWhile_cons_of_pos (by decide)]
  exact fun d hd => bne_iff_ne.2 fun heq => hb (heq ▸ hd)

theorem unclosed_of_none (h : beforeLastClosing (rest.takeWhile (· != '\n')) = none)
    (hrest : rest = b ++ ')' :: c) : '\n' ∈ b := by
  by_contra hb
  rw [hrest, takeWhile_line hb] at h
  exact beforeLastClosing_eq_none h (List.mem_append_right b List.mem_cons_self)

theorem closed_of_some (h : beforeLastClosing (rest.takeWhile (· != '\n')) = some b) :
    '\n' ∉ b ∧ (∃ c, rest = b ++ ')' :: c) ∧
      ∀ b' c', rest = b' ++ ')' :: c' → '\n' ∉ b' → b'.length ≤ b.length := by
  obtain ⟨c, hline, hc⟩ := beforeLastClosing_eq_some h
  refine ⟨?_, ⟨c ++ rest.dropWhile (· != '\n'), ?_⟩, ?_⟩
  · intro hb
    apply not_mem_takeWhile_ne (y := '\n') rest
    rw [hline]
    exact List.mem_append_left _ hb
  · rw [← List.cons_append, ← List.append_assoc, ← hline, List.takeWhile_append_dropWhile]
  · intro b' c' hrest hb'
    rw [hrest, takeWhile_line hb'] at hline
    exact length_le_of_not_mem hc hline

/-! ## The first word that is closed -/

theorem wraps_nil : Wraps text [] b c ↔ text = opening ++ (b ++ ')' :: c) ∧ '\n' ∉ b := by
  rw [← List.append_assoc]
  exact ⟨fun h => ⟨h.parts, h.line⟩, fun h => ⟨h.1, h.2⟩⟩

theorem Wraps.not_nil (h : Wraps [] a b c) : False := by
  have hlen := congrArg List.length h.parts
  simp at hlen

/-- A wrapper begins where the text does, or it is one of the rest of the text. -/
theorem wraps_cons {x : Char} (h : Wraps (x :: text) a b c) :
    a = [] ∨ ∃ r, a = x :: r ∧ Wraps text r b c := by
  cases a with
  | nil => exact Or.inl rfl
  | cons y r =>
    obtain ⟨rfl, hparts⟩ := List.cons.inj h.parts
    exact Or.inr ⟨r, rfl, hparts, h.line⟩

/-- What the word at the beginning of a text wraps. -/
def innerHere? (text : List Char) : Option (List Char) :=
  (stripPrefix? opening text).bind fun rest => beforeLastClosing (rest.takeWhile (· != '\n'))

theorem not_wraps_of_none (h : innerHere? text = none) : ¬ Wraps text [] b c := by
  rw [wraps_nil]
  rintro ⟨hparts, hline⟩
  unfold innerHere? at h
  rw [hparts, stripPrefix?_append, Option.bind_some] at h
  exact hline (unclosed_of_none h rfl)

theorem wraps_of_some (h : innerHere? text = some b) :
    (∃ c, Wraps text [] b c) ∧ ∀ b' c', Wraps text [] b' c' → b'.length ≤ b.length := by
  obtain ⟨rest, hstrip, hrest⟩ := Option.bind_eq_some_iff.1 h
  obtain ⟨hline, ⟨c, hc⟩, hlongest⟩ := closed_of_some hrest
  have htext := stripPrefix?_eq_some_iff.1 hstrip
  refine ⟨⟨c, wraps_nil.2 ⟨by rw [htext, hc], hline⟩⟩, fun b' c' hw => ?_⟩
  obtain ⟨hparts, hline'⟩ := wraps_nil.1 hw
  exact hlongest b' c' (List.append_cancel_left (htext.symm.trans hparts)) hline'

theorem elementType?_cons (x : Char) (text : List Char) :
    elementType? (x :: text) = (innerHere? (x :: text)).or (elementType? text) := by
  rw [elementType?, ← innerHere?]
  cases innerHere? (x :: text) <;> rfl

/-- The first wrapper of the rest of a text is that of the text, if the text does not begin with
one. -/
theorem FirstWrap.cons {x : Char} (h : FirstWrap text a b c)
    (hx : innerHere? (x :: text) = none) : FirstWrap (x :: text) (x :: a) b c := by
  refine ⟨⟨congrArg (x :: ·) h.parts, h.line⟩, fun a' b' c' hw => ?_, fun b' c' hw => ?_⟩
  · rcases wraps_cons hw with rfl | ⟨r, rfl, hr⟩
    · exact absurd hw (not_wraps_of_none hx)
    · exact Nat.succ_le_succ (h.first r b' c' hr)
  · rcases wraps_cons hw with hnil | ⟨r, heq, hr⟩
    · nomatch hnil
    · obtain ⟨-, rfl⟩ := List.cons.inj heq
      exact h.longest b' c' hr

theorem firstWrap_of_elementType? (h : elementType? text = some b) :
    ∃ a c, FirstWrap text a b c := by
  induction text with
  | nil => nomatch h
  | cons x text ih =>
    rw [elementType?_cons] at h
    cases hhere : innerHere? (x :: text) with
    | some inner =>
      rw [hhere, Option.some_or] at h
      obtain rfl := Option.some.inj h
      obtain ⟨⟨c, hwraps⟩, hlongest⟩ := wraps_of_some hhere
      exact ⟨[], c, hwraps, fun _ _ _ _ => Nat.zero_le _, hlongest⟩
    | none =>
      rw [hhere, Option.none_or] at h
      obtain ⟨a, c, hfirst⟩ := ih h
      exact ⟨x :: a, c, hfirst.cons hhere⟩

theorem not_wraps_of_elementType? (h : elementType? text = none) : ¬ Wraps text a b c := by
  induction text generalizing a with
  | nil => exact fun hw => hw.not_nil
  | cons x text ih =>
    rw [elementType?_cons, Option.or_eq_none_iff] at h
    intro hw
    rcases wraps_cons hw with rfl | ⟨r, -, hr⟩
    · exact not_wraps_of_none h.1 hw
    · exact ih h.2 hr

/-- A text has one first wrapper. -/
theorem FirstWrap.inner_eq (h : FirstWrap text a b c) (h' : FirstWrap text a' b' c') : b = b' := by
  have hfront : a.length = a'.length :=
    Nat.le_antisymm (h.first _ _ _ h'.toWraps) (h'.first _ _ _ h.toWraps)
  have hparts := h.parts.symm.trans h'.parts
  simp only [List.append_assoc] at hparts
  obtain ⟨rfl, hrest⟩ := List.append_inj hparts hfront
  have hinner : b.length = b'.length :=
    Nat.le_antisymm (h'.longest _ _ h.toWraps) (h.longest _ _ h'.toWraps)
  exact (List.append_inj (List.append_cancel_left hrest) hinner).1

/-! ## Types -/

theorem elementType?_eq_some_iff : elementType? text = some b ↔ ∃ a c, FirstWrap text a b c := by
  constructor
  · exact firstWrap_of_elementType?
  · rintro ⟨a, c, hfirst⟩
    cases h : elementType? text with
    | none => exact absurd hfirst.toWraps (not_wraps_of_elementType? h)
    | some inner =>
      obtain ⟨_, _, hfirst'⟩ := firstWrap_of_elementType? h
      rw [hfirst'.inner_eq hfirst]

theorem elementType?_eq_none_iff : elementType? text = none ↔ ¬ ∃ a b c, Wraps text a b c := by
  constructor
  · rintro h ⟨a, b, c, hw⟩
    exact not_wraps_of_elementType? h hw
  · intro h
    rw [Option.eq_none_iff_forall_ne_some]
    intro b hb
    obtain ⟨a, c, hfirst⟩ := firstWrap_of_elementType? hb
    exact h ⟨a, b, c, hfirst.toWraps⟩

theorem exists_firstWrap (h : ∃ a b c, Wraps text a b c) : ∃ a b c, FirstWrap text a b c := by
  cases htype : elementType? text with
  | none => exact absurd h (elementType?_eq_none_iff.1 htype)
  | some inner =>
    obtain ⟨a, c, hfirst⟩ := firstWrap_of_elementType? htype
    exact ⟨a, inner, c, hfirst⟩

/-- A line inside the word and its parenthesis is wrapped as a whole. -/
theorem firstWrap_line (hb : '\n' ∉ b) : FirstWrap (opening ++ b ++ [')']) [] b [] := by
  refine ⟨⟨rfl, hb⟩, fun _ _ _ _ => Nat.zero_le _, fun b' c' hw => ?_⟩
  have hlen := congrArg List.length hw.parts
  simp only [List.length_append, List.length_cons, List.length_nil] at hlen
  omega

theorem classify_of_firstWrap {s : String} (h : FirstWrap s.toList a b c) :
    classify s = ⟨String.ofList b, true, String.ofList b == "void"⟩ := by
  rw [classify, elementType?_eq_some_iff.2 ⟨a, c, h⟩]

theorem classify_of_not_wraps {s : String} (h : ¬ ∃ a b c, Wraps s.toList a b c) :
    classify s = ⟨s, false, s == "void"⟩ := by
  rw [classify, elementType?_eq_none_iff.2 h]

/-- A text names a collection if it wraps something. There is then a first wrapper, and the element
type is what that one wraps; any other text names a type by itself. The name alone decides whether
there is no type. A line inside `Collection(…)` is the element type, whatever parentheses it has. -/
theorem classify_wraps (s : String) :
    ((classify s).isCollection = true ↔ ∃ a b c, Wraps s.toList a b c) ∧
      ((∃ a b c, Wraps s.toList a b c) → ∃ a b c, FirstWrap s.toList a b c) ∧
      (∀ a b c, FirstWrap s.toList a b c → (classify s).name = String.ofList b) ∧
      ((¬ ∃ a b c, Wraps s.toList a b c) → (classify s).name = s) ∧
      ((classify s).isVoid = true ↔ (classify s).name = "void") ∧
      ∀ t : String, '\n' ∉ t.toList →
        (classify ("Collection(" ++ t ++ ")")).isCollection = true ∧
          (classify ("Collection(" ++ t ++ ")")).name = t := by
  refine ⟨?_, exists_firstWrap, ?_, ?_, ?_, ?_⟩
  · by_cases h : ∃ a b c, Wraps s.toList a b c
    · obtain ⟨a, b, c, hfirst⟩ := exists_firstWrap h
      rw [classify_of_firstWrap hfirst]
      exact iff_of_true rfl h
    · rw [classify_of_not_wraps h]
      exact iff_of_false Bool.false_ne_true h
  · intro a b c hfirst
    rw [classify_of_firstWrap hfirst]
  · intro h
    rw [classify_of_not_wraps h]
  · unfold classify
    cases elementType? s.toList with
    | some inner => exact beq_iff_eq
    | none => exact beq_iff_eq
  · intro t ht
    have hfirst : FirstWrap ("Collection(" ++ t ++ ")").toList [] t.toList [] := by
      rw [String.toList_append, String.toList_append]
      exact firstWrap_line ht
    rw [classify_of_firstWrap hfirst, String.ofList_toList]
    exact ⟨rfl, rfl⟩

/-- A word that is not closed on its line is passed over, and the last parenthesis of a line closes
the one that is. -/
theorem classify_wraps_second : (classify "Collection(a\nCollection(b)(c)d\n)").name = "b)(c" := by
  have hinner : elementType? "Collection(a\nCollection(b)(c)d\n)".toList =
      some "b)(c".toList := by decide +kernel
  obtain ⟨a, c, hfirst⟩ := firstWrap_of_elementType? hinner
  exact (classify_wraps _).2.2.1 a _ c hfirst

end EdmxGen.TypeRef
