import EdmxGen.Proofs.Header.Codec

/-!
# The comment of a header

A header is one comment that ends where the header does. The end mark of a comment is an asterisk
with a slash behind it. The shield leaves none in the written settings (`unclosed_shield`), and none
arises where the pieces of the header meet, since no piece begins with a slash (`Unclosed.append`).
-/

namespace EdmxGen.Header

open Text

def commentEnd : List Char := ['*', '/']

/-- A text is a comment with two line breaks behind it, and the comment ends nowhere before them. -/
structure OneComment (t : List Char) : Prop where
  opens : ['/', '*'] <+: t
  closes : ∃ a, ∀ x y, t = x ++ commentEnd ++ y ↔ x = a ∧ y = ['\n', '\n']

/-- No comment ends in the text. -/
def Unclosed (t : List Char) : Prop := ¬ commentEnd <:+: t

/-! ## Texts in which no comment ends -/

theorem unclosed_of_star {t : List Char} (h : '*' ∉ t) : Unclosed t := by
  intro hin
  exact h (hin.subset List.mem_cons_self)

theorem unclosed_of_slash {t : List Char} (h : '/' ∉ t) : Unclosed t := by
  intro hin
  exact h (hin.subset (List.mem_cons_of_mem _ List.mem_cons_self))

theorem unclosed_cons {c : Char} {t : List Char} (hc : c ≠ '*') (ht : Unclosed t) :
    Unclosed (c :: t) := by
  rw [Unclosed, List.infix_cons_iff, not_or]
  refine ⟨?_, ht⟩
  rintro ⟨r, hr⟩
  exact hc (List.cons.inj hr).1.symm

/-- Where no slash follows, no comment ends between two texts. -/
theorem Unclosed.append {p x : List Char} (hp : Unclosed p) (hx : Unclosed x)
    (hslash : x.head? ≠ some '/') : Unclosed (p ++ x) := by
  induction p with
  | nil => exact hx
  | cons c cs ih =>
    rw [Unclosed, List.infix_cons_iff, not_or] at hp
    rw [List.cons_append, Unclosed, List.infix_cons_iff, not_or]
    refine ⟨?_, ih hp.2⟩
    rintro ⟨r, hr⟩
    obtain ⟨hc, hr⟩ := List.cons.inj hr
    cases cs with
    | nil =>
      apply hslash
      show ([] ++ x).head? = some '/'
      rw [← hr]
      rfl
    | cons d ds =>
      obtain ⟨hd, -⟩ := List.cons.inj hr
      apply hp.1
      rw [← hc, ← hd]
      exact ⟨ds, rfl⟩

theorem head?_shield (cs : List Char) : (shield cs).head? = cs.head? := by
  fun_cases shield cs <;> rfl

/-- In a shielded text no comment ends. -/
theorem unclosed_shield (cs : List Char) : Unclosed (shield cs) := by
  fun_induction shield cs with
  | case1 cs ih =>
    -- behind the asterisk stands a backslash now
    rw [Unclosed, List.infix_cons_iff, not_or]
    refine ⟨by rintro ⟨r, hr⟩; simp [commentEnd] at hr, ?_⟩
    exact unclosed_cons (by decide) (unclosed_cons (by decide) ih)
  | case2 c cs hcs ih =>
    rw [Unclosed, List.infix_cons_iff, not_or]
    refine ⟨?_, ih⟩
    rintro ⟨r, hr⟩
    obtain ⟨rfl, hslash⟩ := List.cons.inj hr
    have hhead : cs.head? = some '/' := by
      rw [← head?_shield, ← hslash]
      rfl
    obtain ⟨ds, rfl⟩ := List.head?_eq_some_iff.1 hhead
    exact hcs ds rfl rfl
  | case3 => exact unclosed_of_star (by simp)

example : shield ['*', '*', '/', '/', '*'] = ['*', '*', '\\', '/', '/', '*'] := by decide

/-! ## The pieces of a header -/

/-- A text begins as the written characters in front of it do. -/
theorem head?_ofList_append {c : Char} {cs : List Char} (t : String) :
    (String.ofList (c :: cs) ++ t).toList.head? = some c := by
  rw [String.toList_append, String.toList_ofList]
  rfl

theorem head?_banner : banner.head? = some '\n' := by
  unfold banner
  rw [String.append_assoc]
  exact head?_ofList_append _

theorem head?_warning : warning.head? = some '\n' := congrArg List.head? String.toList_ofList

theorem unclosed_lead (created : Moment) : Unclosed (lead created) := by
  have hrule : Unclosed rule :=
    unclosed_of_slash fun h => absurd (List.eq_of_mem_replicate h) (by decide)
  have hbanner : Unclosed banner :=
    unclosed_of_star fun h => (plain_banner _ h).2 rfl
  have hwarning : Unclosed warning :=
    unclosed_of_star fun h => (plain_warning _ h).2 rfl
  have hmoment : Unclosed created.write :=
    unclosed_of_star (Moment.not_mem_write (by decide) created)
  have hclock : created.write.head? ≠ some '/' := fun h =>
    Moment.not_mem_write (by decide) created (List.mem_of_mem_head? h)
  have hlines := Unclosed.append hrule hbanner (by rw [head?_banner]; decide)
  refine unclosed_cons (by decide) ?_
  exact Unclosed.append (Unclosed.append hlines hmoment hclock) hwarning (by
    rw [head?_warning]
    decide)

theorem unclosed_block (settings : Json) : Unclosed (block settings) :=
  Unclosed.append (unclosed_cons (by decide) (unclosed_shield _))
    (unclosed_of_star (by decide)) (by decide)

/-- A header before the end mark in its last line. -/
def comment (settings : Json) (created : Moment) : List Char :=
  lead created ++ opening ++ block settings ++ closing ++ '\n' :: List.replicate 73 '*'

theorem encode_eq_comment (settings : Json) (created : Moment) :
    encode settings created = comment settings created ++ commentEnd ++ ['\n', '\n'] := by
  have htail : tail = '\n' :: List.replicate 73 '*' ++ (commentEnd ++ ['\n', '\n']) := by decide
  rw [encode_eq, comment, htail, List.append_assoc _ commentEnd]
  exact (List.append_assoc _ _ _).symm

/-- No comment ends before the last asterisk. -/
theorem unclosed_comment (settings : Json) (created : Moment) :
    Unclosed (comment settings created ++ ['*']) := by
  have hopening : Unclosed opening := unclosed_of_star (by rw [opening_chars]; decide)
  have hclosing : Unclosed closing := unclosed_of_star (mark_closing.not_mem rfl)
  have hlast : Unclosed ('\n' :: List.replicate 73 '*' ++ ['*']) :=
    unclosed_of_slash (by decide)
  have hmarked := Unclosed.append (unclosed_lead created) hopening
    (by rw [opening_chars]; decide)
  have hsettings := Unclosed.append hmarked (unclosed_block settings) (by rw [block]; simp)
  rw [comment, List.append_assoc]
  have hclosed := Unclosed.append hsettings hclosing (by rw [closing_chars]; decide)
  exact Unclosed.append hclosed hlast (by decide)

/-- The end mark in front of two line breaks is the only one if none ends before it. -/
theorem eq_of_commentEnd {a x y : List Char} (ha : Unclosed (a ++ ['*']))
    (h : a ++ commentEnd ++ ['\n', '\n'] = x ++ commentEnd ++ y) : x = a ∧ y = ['\n', '\n'] := by
  have h : (a ++ ['*']) ++ ['/', '\n', '\n'] = x ++ (commentEnd ++ y) := by
    simpa [commentEnd] using h
  rcases List.append_eq_append_iff.1 h with ⟨r, -, hr⟩ | ⟨r, hr, hy⟩
  · -- the mark would lie behind the comment
    have hstar : '*' ∈ ['/', '\n', '\n'] := by
      rw [hr]
      exact List.mem_append_right _ List.mem_cons_self
    exact absurd hstar (by decide)
  · match r, hr, hy with
    | [], _, hy => exact absurd (List.cons.inj hy).1 (by decide)
    | [c], hr, hy =>
      exact ⟨(List.append_inj' hr rfl).1.symm, (List.cons.inj (List.cons.inj hy).2).2⟩
    | c :: d :: r, hr, hy =>
      -- the mark would lie in the comment
      have hc : '*' = c := (List.cons.inj hy).1
      have hd : '/' = d := (List.cons.inj (List.cons.inj hy).2).1
      rw [hr, ← hc, ← hd] at ha
      exact absurd ⟨x, r, by simp [commentEnd]⟩ ha

theorem oneComment_encode (settings : Json) (created : Moment) :
    OneComment (encode settings created) := by
  refine ⟨?_, comment settings created, fun x y => ⟨?_, ?_⟩⟩
  · exact ⟨_, rfl⟩
  · intro h
    rw [encode_eq_comment] at h
    exact eq_of_commentEnd (unclosed_comment settings created) h
  · rintro ⟨rfl, rfl⟩
    exact encode_eq_comment settings created

/-- The header of settings, those of a file or those of a service, begins a comment, and the end
mark of a comment stands in it at one place, just before its last two line breaks. So no stored
string ends the comment early, and the comment is always closed. -/
theorem header_closed (created : Moment) :
    (∀ s : FileSettings, OneComment (encode s.toJson created)) ∧
      ∀ g : ServiceSettings, OneComment (encode g.toJson created) :=
  ⟨fun s => oneComment_encode s.toJson created, fun g => oneComment_encode g.toJson created⟩

end EdmxGen.Header
