import EdmxGen.Proofs.Run
import EdmxGen.Proofs.Text.Cut
import EdmxGen.Proofs.Xml.Spelling

/-!
# Tags are read as they are spelled

A name is read up to where no character continues it (`readQName_iff`), an attribute up to its
second quote (`readAttribute_iff`), and the attributes of a start tag up to its end. Which element a
start tag begins is found in two steps: its attributes are added one after the other, declarations
apart, and then labels are looked up (`resolves_iff`). So a start tag is read as an element exactly
if it is spelled as that element begins (`of_readStartTag`, `readStartTag_append`).
-/

namespace EdmxGen.Xml

open Text

variable {cs rest : List Char}

/-! ## Names -/

theorem isNameChar_of_isNameStart {c : Char} (h : isNameStart c = true) : isNameChar c = true := by
  unfold isNameChar
  dsimp only
  split <;> simp [h]

theorem IsName.ne_nil {w : List Char} (h : IsName w) : w ≠ [] := by
  rintro rfl
  obtain ⟨c, hc, -⟩ := h.first
  cases hc

/-- What follows a name does not continue it. -/
def Ends (rest : List Char) : Prop := ∀ c ∈ rest.head?, isNameChar c = false

theorem isPart_iff {w : List Char} :
    IsPart w ↔ (w.head?.map isNameStart).getD false = true ∧
      ∀ c ∈ w, (isNameChar c && c != ':') = true := by
  constructor
  · intro h
    obtain ⟨c, hc, hstart⟩ := h.first
    refine ⟨by rw [Option.mem_def.1 hc]; exact hstart, fun d hd => ?_⟩
    have hne : d ≠ ':' := fun heq => h.colon (heq ▸ hd)
    simp [h.chars d hd, hne]
  · rintro ⟨hfirst, hchars⟩
    refine ⟨⟨?_, fun c hc => ?_⟩, fun hcolon => ?_⟩
    · cases hhead : w.head? with
      | none =>
        rw [hhead] at hfirst
        cases hfirst
      | some c =>
        rw [hhead] at hfirst
        exact ⟨c, rfl, hfirst⟩
    · exact (Bool.and_eq_true _ _ ▸ hchars c hc).1
    · simpa using hchars _ hcolon

theorem Ends.break {p : Char → Bool} (hp : ∀ c, p c = true → isNameChar c = true)
    (h : Ends rest) : ∀ c ∈ rest.head?, p c = false := by
  intro c hc
  have := h c hc
  by_contra hpc
  rw [hp c (by simpa using hpc)] at this
  cases this

theorem ends_of_break (h : ∀ c ∈ rest.head?, (isNameChar c && c != ':') = false)
    (hcolon : ∀ more, rest ≠ ':' :: more) : Ends rest := by
  intro c hc
  cases rest with
  | nil => cases hc
  | cons d ds =>
    obtain rfl : d = c := Option.some.inj hc
    have hne : d ≠ ':' := fun heq => hcolon ds (by rw [heq])
    simpa [hne] using h d rfl

/-- A name is read on both sides of a colon. -/
theorem readQName_colon {k l : List Char} (hk : ∀ c ∈ k, (isNameChar c && c != ':') = true)
    (hl : ∀ c ∈ l, (isNameChar c && c != ':') = true)
    (hrest : ∀ c ∈ rest.head?, (isNameChar c && c != ':') = false)
    (hcolon : ∀ more, rest ≠ ':' :: more)
    (hbegin : ((k.isEmpty || (k.head?.map isNameStart).getD false) &&
      (l.head?.map isNameStart).getD false) = true) :
    readQName (k ++ ':' :: (l ++ rest)) = .ok (⟨String.ofList k, String.ofList l⟩, rest) := by
  have hstop : ∀ c ∈ (':' :: (l ++ rest)).head?, (isNameChar c && c != ':') = false := by
    intro c hc
    obtain rfl : ':' = c := Option.some.inj hc
    rfl
  unfold readQName
  dsimp only
  rw [takeWhile_run hk hstop, dropWhile_run hk hstop]
  split
  · next more heq =>
    obtain ⟨-, rfl⟩ := List.cons.inj heq
    rw [takeWhile_run hl hrest, dropWhile_run hl hrest]
    split
    · next more => exact absurd rfl (hcolon more)
    · rw [if_pos hbegin]
  · next hne => exact absurd rfl (hne (l ++ rest))

/-- A name is read exactly if it is spelled and nothing behind it continues it. -/
theorem readQName_iff {q : QName} : readQName cs = .ok (q, rest) ↔
    ∃ w, SpellsName q w ∧ cs = w ++ rest ∧ Ends rest := by
  constructor
  · intro h
    unfold readQName at h
    dsimp only at h
    obtain ⟨hsplit, hfirst, hafter⟩ := exists_run (fun c => isNameChar c && c != ':') cs
    generalize cs.takeWhile (fun c => isNameChar c && c != ':') = first at *
    generalize cs.dropWhile (fun c => isNameChar c && c != ':') = after at *
    split at h
    · next more =>
      obtain ⟨hmore, hsecond, hleft⟩ := exists_run (fun c => isNameChar c && c != ':') more
      generalize more.takeWhile (fun c => isNameChar c && c != ':') = second at *
      generalize more.dropWhile (fun c => isNameChar c && c != ':') = left at *
      split at h
      · cases h
      · next hcolon =>
        split at h
        · next hbegin =>
          obtain ⟨rfl, rfl⟩ := Prod.mk.inj (Except.ok.inj h)
          rw [Bool.and_eq_true, Bool.or_eq_true] at hbegin
          obtain ⟨hlabel, hlocal⟩ := hbegin
          have hpart : IsPart second := isPart_iff.2 ⟨hlocal, hsecond⟩
          have hends : Ends left := ends_of_break hleft hcolon
          cases first with
          | nil => exact ⟨_, .bare hpart, by rw [hsplit, hmore]; rfl, hends⟩
          | cons c first =>
            have hlabel : IsPart (c :: first) := isPart_iff.2 ⟨by simpa using hlabel, hfirst⟩
            exact ⟨_, .labelled hlabel hpart, by rw [hsplit, hmore, List.append_assoc]; rfl, hends⟩
        · cases h
    · next hcolon =>
      split at h
      · next hbegin =>
        obtain ⟨rfl, rfl⟩ := Prod.mk.inj (Except.ok.inj h)
        exact ⟨first, .plain (isPart_iff.2 ⟨hbegin, hfirst⟩), hsplit, ends_of_break hafter hcolon⟩
      · cases h
  · rintro ⟨w, hw, rfl, hends⟩
    have hbreak : ∀ c ∈ rest.head?, (isNameChar c && c != ':') = false :=
      hends.break fun c hc => (Bool.and_eq_true _ _ ▸ hc).1
    have hcolon : ∀ more, rest ≠ ':' :: more := by
      rintro more rfl
      exact absurd (hends ':' rfl) (by decide)
    cases hw with
    | plain hl =>
      obtain ⟨hbegin, hchars⟩ := isPart_iff.1 hl
      unfold readQName
      dsimp only
      rw [takeWhile_run hchars hbreak, dropWhile_run hchars hbreak]
      split
      · next more => exact absurd rfl (hcolon more)
      · rw [if_pos hbegin]
    | bare hl =>
      obtain ⟨hbegin, hchars⟩ := isPart_iff.1 hl
      exact readQName_colon (k := []) (List.forall_mem_nil _) hchars hbreak hcolon
        (by rw [hbegin]; rfl)
    | labelled hk hl =>
      obtain ⟨hfirst, hlabel⟩ := isPart_iff.1 hk
      obtain ⟨hbegin, hchars⟩ := isPart_iff.1 hl
      rw [List.append_assoc, List.cons_append]
      exact readQName_colon hlabel hchars hbreak hcolon (by rw [hfirst, hbegin, Bool.or_true]; rfl)

theorem readName_iff {w : List Char} : readName cs = some (w, rest) ↔
    IsName w ∧ cs = w ++ rest ∧ Ends rest := by
  cases cs with
  | nil =>
    constructor
    · intro h
      cases h
    · rintro ⟨hw, heq, -⟩
      exact absurd (List.append_eq_nil_iff.1 heq.symm).1 hw.ne_nil
  | cons c cs =>
    rw [readName]
    constructor
    · intro h
      split at h
      · next hstart =>
        obtain ⟨rfl, rfl⟩ := Prod.mk.inj (Option.some.inj h)
        obtain ⟨hsplit, hrun, hends⟩ := exists_run isNameChar cs
        refine ⟨⟨⟨c, rfl, hstart⟩, ?_⟩, ?_, hends⟩
        · exact List.forall_mem_cons.2 ⟨isNameChar_of_isNameStart hstart, hrun⟩
        · rw [List.cons_append, ← hsplit]
      · cases h
    · rintro ⟨hw, heq, hends⟩
      cases w with
      | nil => exact absurd rfl hw.ne_nil
      | cons d w =>
        obtain ⟨rfl, rfl⟩ := List.cons.inj heq
        obtain ⟨e, he, hstart⟩ := hw.first
        obtain rfl : c = e := Option.some.inj he
        have hrun := (List.forall_mem_cons.1 hw.chars).2
        rw [if_pos hstart]
        show some (c :: (w ++ rest).takeWhile isNameChar, (w ++ rest).dropWhile isNameChar) = _
        rw [takeWhile_run hrun hends, dropWhile_run hrun hends]

/-! ## Blanks -/

/-- The text does not begin with a blank. -/
def Sets (cs : List Char) : Prop := ∀ c ∈ cs.head?, isSpace c = false

theorem sets_nil : Sets [] := by
  simp [Sets]

theorem gap_nil : Gap [] := List.forall_mem_nil _

theorem skipSpace_run {g : List Char} (hg : Gap g) (hcs : Sets cs) : skipSpace (g ++ cs) = cs :=
  dropWhile_run hg hcs

theorem exists_gap (cs : List Char) : ∃ g, Gap g ∧ cs = g ++ skipSpace cs ∧ Sets (skipSpace cs) :=
  have ⟨hsplit, hgap, hsets⟩ := exists_run isSpace cs
  ⟨_, hgap, hsplit, hsets⟩

/-! ## Attributes -/

theorem readValue_ok {quote : Char} {text : List Char}
    (h : readValue quote cs = .ok (text, rest)) :
    cs = text ++ rest ∧ ∀ c ∈ text, isAllowed c = true ∧ c ≠ quote ∧ c ≠ '<' := by
  induction cs generalizing text with
  | nil =>
    obtain ⟨rfl, rfl⟩ := Prod.mk.inj (Except.ok.inj h)
    exact ⟨rfl, List.forall_mem_nil _⟩
  | cons c cs ih =>
    unfold readValue at h
    split at h
    · cases h
    · next hallowed =>
      split at h
      · obtain ⟨rfl, rfl⟩ := Prod.mk.inj (Except.ok.inj h)
        exact ⟨rfl, List.forall_mem_nil _⟩
      · next hinner =>
        cases hread : readValue quote cs with
        | error fault =>
          rw [hread] at h
          cases h
        | ok r =>
          rw [hread] at h
          obtain ⟨rfl, rfl⟩ := Prod.mk.inj (Except.ok.inj h)
          obtain ⟨hcs, hall⟩ := ih hread
          refine ⟨by rw [hcs]; rfl, List.forall_mem_cons.2 ⟨⟨by simpa using hallowed, ?_⟩, hall⟩⟩
          exact not_or.1 hinner

theorem readValue_append {quote : Char} {text : List Char} (hquote : isAllowed quote = true)
    (htext : ∀ c ∈ text, isAllowed c = true ∧ c ≠ quote ∧ c ≠ '<') :
    readValue quote (text ++ quote :: rest) = .ok (text, quote :: rest) := by
  induction text with
  | nil =>
    rw [List.nil_append, readValue, if_neg (by simp [hquote]), if_pos (Or.inl rfl)]
  | cons c text ih =>
    obtain ⟨⟨hc, hne⟩, htext⟩ := List.forall_mem_cons.1 htext
    rw [List.cons_append, readValue, if_neg (by simp [hc]), if_neg (not_or.2 hne), ih htext]
    rfl

theorem isNameChar_of_isSpace {c : Char} (h : isSpace c = true) : isNameChar c = false := by
  unfold isSpace at h
  simp only [Bool.or_eq_true, beq_iff_eq] at h
  rcases h with ((rfl | rfl) | rfl) | rfl <;> rfl

theorem isSpace_of_isNameChar {c : Char} (h : isNameChar c = true) : isSpace c = false := by
  by_contra hblank
  rw [isNameChar_of_isSpace (by simpa using hblank)] at h
  cases h

theorem ends_gap {g : List Char} (hg : Gap g) (hcs : Ends cs) : Ends (g ++ cs) := by
  cases g with
  | nil => exact hcs
  | cons c g =>
    intro d hd
    obtain rfl : c = d := Option.some.inj hd
    exact isNameChar_of_isSpace (hg c List.mem_cons_self)

theorem ends_cons {c : Char} (h : isNameChar c = false) : Ends (c :: cs) := by
  intro d hd
  obtain rfl : c = d := Option.some.inj hd
  exact h

theorem sets_cons {c : Char} (h : isSpace c = false) : Sets (c :: cs) := by
  intro d hd
  obtain rfl : c = d := Option.some.inj hd
  exact h

theorem readAttribute_append {name : QName} {text w : List Char}
    (h : SpellsAttribute name text w) :
    readAttribute (w ++ rest) = .ok ((name, text), rest) := by
  obtain ⟨hw, hg, hg', hquote, htext⟩ := h
  rename_i w g g' quote
  have hname : readQName (w ++ (g ++ '=' :: (g' ++ quote :: (text ++ [quote]))) ++ rest) =
      .ok (name, g ++ '=' :: (g' ++ quote :: (text ++ quote :: rest))) :=
    readQName_iff.2 ⟨w, hw, by simp, ends_gap hg (ends_cons (by decide))⟩
  have hallowed : isAllowed quote = true := by
    rcases hquote with rfl | rfl <;> rfl
  have hsets : isSpace quote = false := by
    rcases hquote with rfl | rfl <;> rfl
  unfold readAttribute
  rw [hname]
  simp only [bind, Except.bind, skipSpace_run hg (sets_cons (c := '=') rfl),
    skipSpace_run hg' (sets_cons hsets), if_pos hquote, readValue_append hallowed htext, if_true]
  rfl

/-- An attribute is read exactly if it is spelled. -/
theorem readAttribute_iff {name : QName} {text : List Char} :
    readAttribute cs = .ok ((name, text), rest) ↔
      ∃ w, SpellsAttribute name text w ∧ cs = w ++ rest := by
  constructor
  · intro h
    obtain ⟨⟨q, after⟩, hname, h⟩ := ok_of_bind h
    obtain ⟨w, hw, hcs, -⟩ := readQName_iff.1 hname
    obtain ⟨g, hg, hafter, -⟩ := exists_gap after
    dsimp only at h
    split at h
    · next behind heq =>
      obtain ⟨g', hg', hbehind, -⟩ := exists_gap behind
      split at h
      · next quote inside heq' =>
        split at h
        · next hquote =>
          obtain ⟨⟨text', left⟩, hvalue, h⟩ := ok_of_bind h
          obtain ⟨hinside, htext⟩ := readValue_ok hvalue
          dsimp only at h
          split at h
          · next c left =>
            split at h
            · next hc =>
              obtain ⟨hpair, rfl⟩ := Prod.mk.inj (Except.ok.inj h)
              obtain ⟨rfl, rfl⟩ := Prod.mk.inj hpair
              refine ⟨_, .mk hw hg hg' hquote htext, ?_⟩
              rw [hcs, hafter, heq, hbehind, heq', hinside, hc]
              simp
            · cases h
          · cases h
        · cases h
      · cases h
    · cases h
  · rintro ⟨w, hw, rfl⟩
    exact readAttribute_append hw

/-! ## Start tags -/

theorem SpellsName.eq_cons {q : QName} {w : List Char} (h : SpellsName q w) :
    ∃ c cs, w = c :: cs ∧ isNameChar c = true := by
  have hname : ∀ {l : List Char}, IsPart l → ∃ c cs, l = c :: cs ∧ isNameChar c = true := by
    intro l hl
    cases l with
    | nil => exact absurd rfl hl.ne_nil
    | cons c cs => exact ⟨c, cs, rfl, hl.chars c List.mem_cons_self⟩
  cases h with
  | plain hl => exact hname hl
  | bare hl => exact ⟨':', _, rfl, by decide⟩
  | labelled hk hl =>
    obtain ⟨c, cs, rfl, hc⟩ := hname hk
    exact ⟨c, _, rfl, hc⟩

theorem SpellsAttribute.eq_cons {name : QName} {text w : List Char}
    (h : SpellsAttribute name text w) : ∃ c cs, w = c :: cs ∧ isNameChar c = true := by
  obtain ⟨hw, -, -, -, -⟩ := h
  obtain ⟨c, cs, rfl, hc⟩ := hw.eq_cons
  exact ⟨c, _, rfl, hc⟩

/-- How the end of a start tag is written. -/
def TagEnd.text : TagEnd → List Char
  | .opened => ['>']
  | .empty => ['/', '>']
  | .cut => []

/-- A start tag with more attributes, which may be declarations. -/
def StartTag.addAll (start : StartTag) (given : List (QName × String)) : Except Fault StartTag :=
  given.foldlM (fun start g => start.add g.1 g.2) start

theorem addAll_cons {start : StartTag} {g : QName × String} {given : List (QName × String)} :
    start.addAll (g :: given) = start.add g.1 g.2 >>= fun next => next.addAll given :=
  List.foldlM_cons

/-- The attributes of a start tag that are read are spelled, and added in their order. -/
theorem readAttributes_ok {fuel : Nat} {start start' : StartTag} {tagEnd : TagEnd}
    (h : readAttributes fuel start cs = .ok (start', tagEnd, rest)) (hend : tagEnd ≠ .cut) :
    ∃ given w, SpellsGiven given w ∧ cs = w ++ (tagEnd.text ++ rest) ∧
      start.addAll given = .ok start' := by
  induction fuel generalizing start cs with
  | zero =>
    obtain ⟨-, htail⟩ := Prod.mk.inj (Except.ok.inj h)
    exact absurd (Prod.mk.inj htail).1.symm hend
  | succ fuel ih =>
    unfold readAttributes at h
    split at h
    · obtain ⟨-, htail⟩ := Prod.mk.inj (Except.ok.inj h)
      exact absurd (Prod.mk.inj htail).1.symm hend
    · next c cs =>
      obtain ⟨g, hg, hcs, -⟩ := exists_gap (c :: cs)
      split at h
      · cases h
      · next heq =>
        obtain ⟨rfl, htail⟩ := Prod.mk.inj (Except.ok.inj h)
        obtain ⟨rfl, rfl⟩ := Prod.mk.inj htail
        exact ⟨[], g, .nil hg, by rw [hcs, heq]; rfl, rfl⟩
      · cases h
      · next heq =>
        obtain ⟨rfl, htail⟩ := Prod.mk.inj (Except.ok.inj h)
        obtain ⟨rfl, rfl⟩ := Prod.mk.inj htail
        exact ⟨[], g, .nil hg, by rw [hcs, heq]; rfl, rfl⟩
      · next d more hempty hslash hclose heq =>
        split at h
        · cases h
        · next hspace =>
          obtain ⟨⟨⟨name, text⟩, after⟩, hattribute, h⟩ := ok_of_bind h
          obtain ⟨value, hvalue, h⟩ := ok_of_bind h
          obtain ⟨next, hnext, h⟩ := ok_of_bind h
          obtain ⟨w, hw, hmore⟩ := readAttribute_iff.1 hattribute
          obtain ⟨given, ws, hgiven, hafter, hstart⟩ := ih h
          -- Without a blank in front the first character is one of a name, and that is refused.
          have hgap : g ≠ [] := by
            rintro rfl
            rw [List.nil_append] at hcs
            obtain ⟨e, es, rfl, he⟩ := hw.eq_cons
            rw [← hcs] at heq
            obtain ⟨rfl, -⟩ := List.cons.inj (heq.trans hmore)
            have hblank : isSpace c = true := by simpa using hspace
            rw [isNameChar_of_isSpace hblank] at he
            cases he
          refine ⟨(name, value) :: given, _, .cons hg hgap hw hvalue hgiven, ?_, ?_⟩
          · rw [hcs, heq, hmore, hafter]
            simp
          · rw [addAll_cons, hnext]
            exact hstart

theorem readAttributes_next {fuel : Nat} {start : StartTag} {c : Char} {more : List Char}
    (hc : isSpace c = true) (hskip : skipSpace (c :: cs) = more)
    (hmore : ∃ d ds, more = d :: ds ∧ isNameChar d = true) :
    readAttributes (fuel + 1) start (c :: cs) = readAttribute more >>= fun a =>
      valueOf a.1.2 >>= fun value => start.add a.1.1 value >>= fun next =>
        readAttributes fuel next a.2 := by
  obtain ⟨d, ds, rfl, hd⟩ := hmore
  have hne : ∀ e : Char, isNameChar e = false → d ≠ e := by
    rintro e he rfl
    rw [hd] at he
    cases he
  rw [readAttributes.eq_def]
  dsimp only
  rw [hskip]
  split
  · next heq => cases heq
  · next heq => exact absurd (List.cons.inj heq).1 (hne '/' (by decide))
  · next heq => exact absurd (List.cons.inj heq).1 (hne '/' (by decide))
  · next heq => exact absurd (List.cons.inj heq).1 (hne '>' (by decide))
  · next heq =>
    obtain ⟨rfl, rfl⟩ := List.cons.inj heq
    rw [if_neg (by simp [hc])]

theorem readAttributes_append {fuel : Nat} {start start' : StartTag} {tagEnd : TagEnd}
    {given : List (QName × String)} {w : List Char} (hw : SpellsGiven given w)
    (hend : tagEnd ≠ .cut) (hadd : start.addAll given = .ok start') (hfuel : given.length < fuel) :
    readAttributes fuel start (w ++ (tagEnd.text ++ rest)) = .ok (start', tagEnd, rest) := by
  induction hw generalizing fuel start with
  | @nil g hg =>
    obtain ⟨fuel, rfl⟩ : ∃ n, fuel = n + 1 := ⟨fuel - 1, by omega⟩
    obtain rfl := Except.ok.inj hadd
    unfold readAttributes
    split
    · next heq => cases tagEnd <;> simp [TagEnd.text] at heq hend
    · cases tagEnd with
      | opened =>
        rw [show skipSpace (g ++ (TagEnd.opened.text ++ rest)) = '>' :: rest from
          skipSpace_run hg (sets_cons rfl)]
        rfl
      | empty =>
        rw [show skipSpace (g ++ (TagEnd.empty.text ++ rest)) = '/' :: '>' :: rest from
          skipSpace_run hg (sets_cons rfl)]
        rfl
      | cut => exact absurd rfl hend
  | @cons name value given g text w ws hg hne hw hvalue hgiven ih =>
    rw [addAll_cons] at hadd
    obtain ⟨next, hnext, hadd⟩ := ok_of_bind hadd
    rw [List.length_cons] at hfuel
    obtain ⟨fuel, rfl⟩ : ∃ n, fuel = n + 1 := ⟨fuel - 1, by omega⟩
    obtain ⟨c, g, rfl⟩ := List.exists_cons_of_ne_nil hne
    have hread : readAttribute (w ++ (ws ++ (tagEnd.text ++ rest))) =
        .ok ((name, text), ws ++ (tagEnd.text ++ rest)) := readAttribute_append hw
    obtain ⟨d, ds, rfl, hd⟩ := hw.eq_cons
    have hsets : Sets (d :: ds ++ (ws ++ (tagEnd.text ++ rest))) :=
      sets_cons (isSpace_of_isNameChar hd)
    have hskip := skipSpace_run hg hsets
    rw [List.append_assoc, List.append_assoc]
    refine (readAttributes_next (hg c List.mem_cons_self) hskip ⟨d, _, rfl, hd⟩).trans ?_
    rw [hread]
    show valueOf text >>= _ = _
    rw [hvalue]
    show start.add name value >>= _ = _
    rw [hnext]
    exact ih hadd (by omega)

/-! ## Declarations and attributes of an element -/

/-- When an attribute may be added to a start tag, and what it adds. -/
theorem add_iff {start start' : StartTag} {name : QName} {value : String}
    (hstart : ∀ d ∈ start.declarations, d.label ≠ some "xml") :
    start.add name value = .ok start' ↔ Legal (name, value) ∧
      (∀ e ∈ declaration? (name, value), ∀ d ∈ start.declarations, Apart d e) ∧
      start' = { start with
        declarations := start.declarations ++ (declaration? (name, value)).toList
        attributes := start.attributes ++ [(name, value)].filter fun g => !declares g.1 } := by
  have hxmlns : xmlUri ≠ xmlnsUri := by decide
  obtain ⟨label, localName⟩ := name
  unfold StartTag.add
  by_cases hlabel : label = "xmlns"
  · subst hlabel
    rw [if_pos rfl]
    by_cases hdeclarations : value = xmlnsUri
    · simp [hdeclarations, Legal, declares]
    by_cases huri : value = xmlUri
    · subst huri
      by_cases hxml : localName = "xml"
      · subst hxml
        have hany : (start.declarations.any fun d => d.label == some "xml") = false := by
          simpa using hstart
        simp [hxmlns, Legal, declares, declaration?, hany, eq_comm (a := start)]
      · simp [hxmlns, hxml, Legal, declares]
    · by_cases hxml : localName = "xml"
      · simp [hdeclarations, huri, hxml, Legal, declares]
      · by_cases hany : (start.declarations.any fun d => d.label == some localName) = true
        · have hmem : ¬ ∀ d ∈ start.declarations, d.label ≠ some localName := by simpa using hany
          simp only [ne_eq] at hmem
          simp [hdeclarations, huri, hxml, hany, Legal, declares, declaration?, Apart, hmem]
        · have hmem : ∀ d ∈ start.declarations, ¬ d.label = some localName := by simpa using hany
          simpa [hdeclarations, huri, hxml, hany, Legal, declares, declaration?, Apart,
            eq_comm (a := start')] using fun _ => hmem
  · rw [if_neg hlabel]
    by_cases hlocal : localName = "xmlns"
    · subst hlocal
      rw [if_pos rfl]
      by_cases huri : value = xmlUri
      · simp [huri, hlabel, Legal, declares]
      by_cases hdeclarations : value = xmlnsUri
      · simp [hdeclarations, hxmlns.symm, Legal, declares]
      · simp [huri, hdeclarations, hlabel, Legal, declares, declaration?, Apart,
          eq_comm (a := start')]
    · rw [if_neg hlocal]
      simp [hlabel, hlocal, Legal, declares, declaration?, eq_comm (a := start')]

/-- The label `xml` is not declared for another namespace. -/
theorem Legal.label_ne {g : QName × String} (h : Legal g) :
    ∀ e ∈ declaration? g, e.label ≠ some "xml" := by
  obtain ⟨⟨label, localName⟩, value⟩ := g
  unfold declaration?
  dsimp only
  split
  · next hlabel =>
    split
    · simp
    · next huri =>
      intro e he hxml
      obtain rfl := Option.some.inj he
      have hlocal : localName = "xml" := Option.some.inj hxml
      exact huri ((h (by simp [declares, hlabel])).2.2 (by rw [hlabel, hlocal]))
  split
  · intro e he
    obtain rfl := Option.some.inj he
    simp
  · simp

theorem filterMap_declaration?_cons (g : QName × String) (given : List (QName × String)) :
    (g :: given).filterMap declaration? =
      (declaration? g).toList ++ given.filterMap declaration? := by
  rw [List.filterMap_cons]
  cases declaration? g <;> rfl

/-- The attributes of a start tag are added in their order. -/
theorem addAll_iff {start start' : StartTag} {given : List (QName × String)}
    (hstart : ∀ d ∈ start.declarations, d.label ≠ some "xml")
    (honce : start.declarations.Pairwise Apart) :
    start.addAll given = .ok start' ↔ (∀ g ∈ given, Legal g) ∧
      (start.declarations ++ given.filterMap declaration?).Pairwise Apart ∧
      start' = { start with
        declarations := start.declarations ++ given.filterMap declaration?
        attributes := start.attributes ++ given.filter fun g => !declares g.1 } := by
  induction given generalizing start with
  | nil =>
    simp only [List.filterMap_nil, List.filter_nil, List.append_nil]
    constructor
    · intro h
      exact ⟨List.forall_mem_nil _, honce, (Except.ok.inj h).symm⟩
    · rintro ⟨-, -, rfl⟩
      rfl
  | cons g given ih =>
    -- what holds before the first attribute is added holds after it
    have hstep : Legal g → (∀ e ∈ declaration? g, ∀ d ∈ start.declarations, Apart d e) →
        (∀ d ∈ start.declarations ++ (declaration? g).toList, d.label ≠ some "xml") ∧
        (start.declarations ++ (declaration? g).toList).Pairwise Apart := by
      intro hlegal hapart
      constructor
      · refine List.forall_mem_append.2 ⟨hstart, fun d hd => hlegal.label_ne d ?_⟩
        exact Option.mem_toList.1 hd
      · refine List.pairwise_append.2 ⟨honce, ?_, fun d hd e he => ?_⟩
        · cases declaration? g <;> simp
        · exact hapart e (Option.mem_toList.1 he) d hd
    rw [addAll_cons, filterMap_declaration?_cons, ← List.append_assoc, List.forall_mem_cons,
      show (g :: given).filter (fun g => !declares g.1) =
        [g].filter (fun g => !declares g.1) ++ given.filter (fun g => !declares g.1) from
        List.filter_append [g] given, ← List.append_assoc]
    constructor
    · intro h
      obtain ⟨next, hnext, h⟩ := ok_of_bind h
      obtain ⟨hlegal, hapart, rfl⟩ := (add_iff hstart).1 hnext
      obtain ⟨hxml, hpairs⟩ := hstep hlegal hapart
      obtain ⟨hall, honce', rfl⟩ := (ih hxml hpairs).1 h
      exact ⟨⟨hlegal, hall⟩, honce', rfl⟩
    · rintro ⟨⟨hlegal, hall⟩, honce', rfl⟩
      have hapart : ∀ e ∈ declaration? g, ∀ d ∈ start.declarations, Apart d e :=
        fun e he d hd => (List.pairwise_append.1 (List.pairwise_append.1 honce').1).2.2 d hd e
          (Option.mem_toList.2 he)
      obtain ⟨hxml, hpairs⟩ := hstep hlegal hapart
      rw [(add_iff hstart).2 ⟨hlegal, hapart, rfl⟩]
      exact (ih hxml hpairs).2 ⟨hall, honce', rfl⟩

/-- So they are from a start tag that has none yet. -/
theorem addAll_bare {name : QName} {start : StartTag} {given : List (QName × String)} :
    StartTag.addAll { name } given = .ok start ↔ (∀ g ∈ given, Legal g) ∧
      (given.filterMap declaration?).Pairwise Apart ∧
      start = { name
                declarations := given.filterMap declaration?
                attributes := given.filter fun g => !declares g.1 } :=
  addAll_iff (List.forall_mem_nil _) List.Pairwise.nil

theorem resolveAttributes_iff {scope : List Declaration} {seen as : List Attribute}
    {given : List (QName × String)} :
    resolveAttributes scope seen given = .ok as ↔
      as.map (fun a => (a.name, a.value)) = given ∧
      (∀ a ∈ as, attributeUri scope a.name = .ok a.uri) ∧
      as.Pairwise Distinct ∧ ∀ a ∈ as, ∀ b ∈ seen, Distinct b a := by
  induction given generalizing seen as with
  | nil =>
    rw [resolveAttributes]
    constructor
    · intro h
      obtain rfl := Except.ok.inj h
      simp
    · rintro ⟨h, -⟩
      rw [List.map_eq_nil_iff.1 h]
  | cons g given ih =>
    obtain ⟨name, value⟩ := g
    rw [resolveAttributes]
    have hnew : ∀ uri : Option String,
        (seen.any fun b => b.uri == uri && b.name.localName == name.localName) = false ↔
          ∀ b ∈ seen, Distinct b ⟨name, uri, value⟩ := by
      intro uri
      simp [Distinct]
    constructor
    · intro h
      obtain ⟨uri, huri, h⟩ := ok_of_bind h
      split at h
      · cases h
      · next hany =>
        obtain ⟨others, hothers, h⟩ := ok_of_bind h
        obtain rfl := Except.ok.inj h
        obtain ⟨hgiven, huris, hdistinct, hseen⟩ := ih.1 hothers
        refine ⟨by rw [List.map_cons, hgiven], List.forall_mem_cons.2 ⟨huri, huris⟩,
          List.pairwise_cons.2 ⟨fun b hb => hseen b hb _ List.mem_cons_self, hdistinct⟩,
          List.forall_mem_cons.2 ⟨(hnew uri).1 (by simpa using hany), fun b hb c hc => ?_⟩⟩
        exact hseen b hb c (List.mem_cons_of_mem _ hc)
    · rintro ⟨hgiven, huris, hdistinct, hseen⟩
      cases as with
      | nil => cases hgiven
      | cons a as =>
        obtain ⟨hpair, hrest⟩ := List.cons.inj hgiven
        obtain ⟨rfl, rfl⟩ := Prod.mk.inj hpair
        obtain ⟨huri, huris⟩ := List.forall_mem_cons.1 huris
        obtain ⟨hbefore, hdistinct⟩ := List.pairwise_cons.1 hdistinct
        obtain ⟨hfirst, hseen⟩ := List.forall_mem_cons.1 hseen
        have hothers : resolveAttributes scope (a :: seen) given = .ok as :=
          ih.2 ⟨hrest, huris, hdistinct, fun b hb =>
            List.forall_mem_cons.2 ⟨hbefore b hb, hseen b hb⟩⟩
        rw [huri]
        show (if _ then _ else resolveAttributes scope (a :: seen) given >>= _) = _
        rw [if_neg (by rw [(hnew a.uri).2 hfirst]; exact Bool.false_ne_true), hothers]
        rfl

theorem resolve_iff {start : StartTag} {inherited : List Declaration} {tag : Tag} :
    start.resolve inherited = .ok tag ↔ tag.name = start.name ∧
      tag.scope = inScope start.declarations inherited ∧
      elementUri tag.scope tag.name = .ok tag.uri ∧
      tag.attributes.map (fun a => (a.name, a.value)) = start.attributes ∧
      (∀ a ∈ tag.attributes, attributeUri tag.scope a.name = .ok a.uri) ∧
      tag.attributes.Pairwise Distinct := by
  constructor
  · intro h
    obtain ⟨attributes, hattributes, h⟩ := ok_of_bind h
    obtain ⟨uri, huri, h⟩ := ok_of_bind h
    obtain rfl := Except.ok.inj h
    obtain ⟨hgiven, huris, hdistinct, -⟩ := resolveAttributes_iff.1 hattributes
    exact ⟨rfl, rfl, huri, hgiven, huris, hdistinct⟩
  · obtain ⟨name, uri, scope, attributes⟩ := tag
    rintro ⟨rfl, rfl, huri, hgiven, huris, hdistinct⟩
    have hattributes : resolveAttributes (inScope start.declarations inherited) []
        start.attributes = .ok attributes :=
      resolveAttributes_iff.2 ⟨hgiven, huris, hdistinct, fun _ _ => List.forall_mem_nil _⟩
    unfold StartTag.resolve
    dsimp only
    rw [hattributes]
    show elementUri _ _ >>= _ = _
    rw [huri]
    rfl

/-- Which element a start tag begins. -/
theorem resolves_iff {inherited : List Declaration} {given : List (QName × String)} {tag : Tag} :
    Resolves inherited given tag ↔ tag.name.label ≠ "xmlns" ∧
      ∃ start, StartTag.addAll { name := tag.name } given = .ok start ∧
        start.resolve inherited = .ok tag := by
  constructor
  · intro h
    refine ⟨h.label, _, addAll_bare.2 ⟨h.legal, h.once, rfl⟩, ?_⟩
    exact resolve_iff.2 ⟨rfl, h.scope, h.uri, h.attributes, h.uris, h.distinct⟩
  · rintro ⟨hlabel, start, hstart, hresolve⟩
    obtain ⟨hlegal, honce, rfl⟩ := addAll_bare.1 hstart
    obtain ⟨-, hscope, huri, hattributes, huris, hdistinct⟩ := resolve_iff.1 hresolve
    exact ⟨hlabel, hlegal, honce, hscope, huri, hattributes, huris, hdistinct⟩

theorem SpellsGiven.ends {given : List (QName × String)} {w : List Char} (h : SpellsGiven given w)
    (hcs : Ends cs) : Ends (w ++ cs) := by
  cases h with
  | nil hg => exact ends_gap hg hcs
  | cons hg hne =>
    obtain ⟨c, g, rfl⟩ := List.exists_cons_of_ne_nil hne
    exact ends_cons (isNameChar_of_isSpace (hg c List.mem_cons_self))

theorem SpellsGiven.length_le {given : List (QName × String)} {w : List Char}
    (h : SpellsGiven given w) : given.length ≤ w.length := by
  induction h with
  | nil => exact Nat.zero_le _
  | cons hg hne =>
    have := List.length_pos_iff.2 hne
    simp only [List.length_cons, List.length_append]
    omega

theorem ends_text {tagEnd : TagEnd} (hend : tagEnd ≠ .cut) : Ends (tagEnd.text ++ rest) := by
  cases tagEnd with
  | opened => exact ends_cons (by decide)
  | empty => exact ends_cons (by decide)
  | cut => exact absurd rfl hend

/-- A start tag that is read, and begins an element, is spelled as that element begins. -/
theorem of_readStartTag {fuel : Nat} {start : StartTag} {tagEnd : TagEnd} {tag : Tag}
    {inherited : List Declaration} (h : readStartTag fuel cs = .ok (start, tagEnd, rest))
    (hend : tagEnd ≠ .cut) (hresolve : start.resolve inherited = .ok tag) :
    ∃ w, SpellsTag inherited tag w ∧ cs = w ++ (tagEnd.text ++ rest) := by
  obtain ⟨⟨name, after⟩, hname, h⟩ := ok_of_bind h
  obtain ⟨w, hw, hcs, -⟩ := readQName_iff.1 hname
  dsimp only at h
  split at h
  · cases h
  · next hlabel =>
    obtain ⟨given, ws, hws, hafter, hadd⟩ := readAttributes_ok h hend
    obtain rfl : tag.name = name := by
      rw [(resolve_iff.1 hresolve).1]
      rw [(addAll_bare.1 hadd).2.2]
    exact ⟨w ++ ws, .mk hw hws (resolves_iff.2 ⟨hlabel, start, hadd, hresolve⟩),
      by rw [hcs, hafter, List.append_assoc]⟩

/-- A start tag is read as it is spelled. -/
theorem readStartTag_append {fuel : Nat} {tagEnd : TagEnd} {tag : Tag}
    {inherited : List Declaration} {w : List Char} (h : SpellsTag inherited tag w)
    (hend : tagEnd ≠ .cut) (hfuel : w.length < fuel) :
    ∃ start, readStartTag fuel (w ++ (tagEnd.text ++ rest)) = .ok (start, tagEnd, rest) ∧
      start.resolve inherited = .ok tag := by
  obtain ⟨hname, hgiven, hresolves⟩ := h
  rename_i given name ws
  obtain ⟨hlabel, start, hadd, hresolve⟩ := resolves_iff.1 hresolves
  refine ⟨start, ?_, hresolve⟩
  have hread : readQName (name ++ ws ++ (tagEnd.text ++ rest)) =
      .ok (tag.name, ws ++ (tagEnd.text ++ rest)) :=
    readQName_iff.2 ⟨name, hname, List.append_assoc _ _ _, hgiven.ends (ends_text hend)⟩
  have hlength := hgiven.length_le
  rw [List.length_append] at hfuel
  unfold readStartTag
  rw [hread]
  show (if _ then _ else _) = _
  rw [if_neg hlabel]
  exact readAttributes_append hgiven hend hadd (by omega)

/-- A close tag is read exactly if it is spelled. -/
theorem readCloseTag_iff {name : QName} : readCloseTag cs = .ok (name, rest) ↔
    ∃ w g, SpellsName name w ∧ Gap g ∧ cs = w ++ (g ++ '>' :: rest) := by
  constructor
  · intro h
    obtain ⟨⟨q, after⟩, hname, h⟩ := ok_of_bind h
    obtain ⟨w, hw, hcs, -⟩ := readQName_iff.1 hname
    obtain ⟨g, hg, hafter, -⟩ := exists_gap after
    dsimp only at h
    split at h
    · next heq =>
      obtain ⟨rfl, rfl⟩ := Prod.mk.inj (Except.ok.inj h)
      exact ⟨w, g, hw, hg, by rw [hcs, hafter, heq]⟩
    · cases h
  · rintro ⟨w, g, hw, hg, rfl⟩
    have hread : readQName (w ++ (g ++ '>' :: rest)) = .ok (name, g ++ '>' :: rest) :=
      readQName_iff.2 ⟨w, hw, rfl, ends_gap hg (ends_cons (by decide))⟩
    unfold readCloseTag
    rw [hread]
    simp only [bind, Except.bind, skipSpace_run hg (sets_cons (c := '>') rfl)]
    rfl

end EdmxGen.Xml
