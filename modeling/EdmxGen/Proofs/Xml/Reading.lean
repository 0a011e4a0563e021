import EdmxGen.Proofs.Xml.Elements

/-!
# Documents are read as they are spelled

A document may begin with a mark and a declaration, and around its outermost element stand remarks.
Each part is read exactly if it is spelled, and what follows a part tells where it ends. So a text
is read as a document exactly if it is spelled as one, and the element that stands among its nodes
is what reading gives (`parse_iff`).
-/

namespace EdmxGen.Xml

open Text

variable {cs rest : List Char}

/-! ## The declaration of a document -/

theorem declarationSpace_iff : declarationSpace cs = .ok rest ↔
    ∃ g, Gap g ∧ cs = g ++ rest ∧ Sets rest ∧ (g = [] → rest = [] ∨ ['?', '>'] <+: rest) := by
  cases cs with
  | nil =>
    constructor
    · intro h
      obtain rfl := Except.ok.inj h
      exact ⟨[], gap_nil, rfl, sets_nil, fun _ => Or.inl rfl⟩
    · rintro ⟨g, -, heq, -⟩
      rw [(List.append_eq_nil_iff.1 heq.symm).2]
      rfl
  | cons c cs =>
    rw [declarationSpace]
    by_cases hc : isSpace c = true
    · rw [if_pos hc]
      constructor
      · intro h
        obtain rfl := Except.ok.inj h
        obtain ⟨g, hg, hsplit, hsets⟩ := exists_gap (c :: cs)
        refine ⟨g, hg, hsplit, hsets, ?_⟩
        rintro rfl
        have : isSpace c = false := hsets c (by rw [← List.nil_append (skipSpace _), ← hsplit]; rfl)
        rw [hc] at this
        cases this
      · rintro ⟨g, hg, heq, hsets, -⟩
        rw [heq, skipSpace_run hg hsets]
    · rw [if_neg hc]
      constructor
      · intro h
        split at h
        · next hstart =>
          obtain rfl := Except.ok.inj h
          refine ⟨[], gap_nil, rfl, ?_, fun _ => Or.inr (startsWith_iff.1 hstart)⟩
          exact sets_cons (by simpa using hc)
        · cases h
      · rintro ⟨g, hg, heq, -, hend⟩
        cases g with
        | cons d g =>
          obtain ⟨rfl, -⟩ := List.cons.inj heq
          exact absurd (hg c List.mem_cons_self) hc
        | nil =>
          obtain rfl : c :: cs = rest := heq
          rcases hend rfl with hnil | hmark
          · cases hnil
          · rw [if_pos (startsWith_iff.2 hmark)]

/-- An attribute that is read behind blanks, and begins with a word, is a property of that name. -/
theorem of_property {word after : List Char} {a : (QName × List Char) × List Char}
    (hne : word ≠ []) (hword : ∀ c ∈ word, isNameChar c = true)
    (hspace : declarationSpace after = .ok cs) (hstart : word <+: cs)
    (hread : readAttribute cs = .ok a) :
    ∃ P, SpellsProperty word P ∧ after = P ++ a.2 := by
  obtain ⟨⟨name, text⟩, more⟩ := a
  obtain ⟨g, hg, rfl, -, hend⟩ := declarationSpace_iff.1 hspace
  obtain ⟨w, hw, rfl⟩ := readAttribute_iff.1 hread
  obtain ⟨c, word, rfl⟩ := List.exists_cons_of_ne_nil hne
  have hgap : g ≠ [] := by
    intro hnil
    rcases hend hnil with heq | ⟨t, ht⟩
    · rw [heq] at hstart
      exact hne (List.prefix_nil.1 hstart)
    · rw [← ht] at hstart
      obtain ⟨rfl, -⟩ := List.cons_prefix_cons.1 hstart
      exact absurd (hword _ List.mem_cons_self) (by decide)
  have hinside : c :: word <+: w := by
    refine (List.prefix_or_prefix_of_prefix hstart (List.prefix_append w more)).resolve_right ?_
    intro hshort
    obtain ⟨-, -, -, -, -⟩ := hw
    exact absurd (hword '=' (hshort.subset (by simp))) (by decide)
  exact ⟨g ++ w, ⟨name, text, g, w, hg, hgap, hw, hinside, rfl⟩, (List.append_assoc _ _ _).symm⟩

theorem SpellsProperty.reads {word P : List Char} (h : SpellsProperty word P) (rest : List Char) :
    ∃ w name text, declarationSpace (P ++ rest) = .ok (w ++ rest) ∧ word <+: w ++ rest ∧
      readAttribute (w ++ rest) = .ok ((name, text), rest) := by
  obtain ⟨name, text, g, w, hg, hne, hw, hword, rfl⟩ := h.exists_attribute
  refine ⟨w, name, text, ?_, hword.trans (List.prefix_append w rest), readAttribute_append hw⟩
  refine declarationSpace_iff.2 ⟨g, hg, List.append_assoc _ _ _, ?_, fun hnil => absurd hnil hne⟩
  obtain ⟨c, cs, rfl, hc⟩ := hw.eq_cons
  exact sets_cons (isSpace_of_isNameChar hc)

theorem SpellsProperty.ne_nil {word P : List Char} (h : SpellsProperty word P) : P ≠ [] := by
  obtain ⟨name, text, g, w, -, hne, -, -, rfl⟩ := h.exists_attribute
  exact List.append_ne_nil_of_left_ne_nil hne w

/-- A property that may be missing is read, or the text behind the blanks is as it was. -/
theorem of_optional {word after : List Char} {k : List Char → Except Fault (List Char)}
    (hne : word ≠ []) (hword : ∀ c ∈ word, isNameChar c = true)
    (hspace : declarationSpace after = .ok cs)
    (h : (if startsWith word cs = true then
        readAttribute cs >>= fun a => declarationSpace a.2 >>= k else k cs) = .ok rest) :
    ∃ P more cs', (P = [] ∨ SpellsProperty word P) ∧ after = P ++ more ∧
      declarationSpace more = .ok cs' ∧ k cs' = .ok rest := by
  split at h
  · next hstart =>
    obtain ⟨a, ha, h⟩ := ok_of_bind h
    obtain ⟨cs', hcs', h⟩ := ok_of_bind h
    obtain ⟨P, hP, hafter⟩ := of_property hne hword hspace (startsWith_iff.1 hstart) ha
    exact ⟨P, a.2, cs', Or.inr hP, hafter, hcs', h⟩
  · exact ⟨[], after, cs, Or.inl rfl, rfl, hspace, h⟩

/-- The declaration of a document that is read is spelled. -/
theorem of_readDeclaration (h : readDeclaration cs = .ok rest) (hcs : cs.head? = some ' ') :
    ∃ w, SpellsDeclaration (['<', '?', 'x', 'm', 'l'] ++ w) ∧ cs = w ++ rest := by
  have hversion : ∀ c ∈ "version".toList, isNameChar c = true :=
    List.all_eq_true.1 (by decide)
  have hencoding : ∀ c ∈ "encoding".toList, isNameChar c = true :=
    List.all_eq_true.1 (by decide)
  have hstandalone : ∀ c ∈ "standalone".toList, isNameChar c = true :=
    List.all_eq_true.1 (by decide)
  obtain ⟨first, hfirst, h⟩ := ok_of_bind h
  split at h
  · cases h
  · next hstart =>
    obtain ⟨a, ha, h⟩ := ok_of_bind h
    obtain ⟨second, hsecond, h⟩ := ok_of_bind h
    obtain ⟨version, hv, hafter⟩ :=
      of_property (by decide) hversion hfirst (startsWith_iff.1 (by simpa using hstart)) ha
    obtain ⟨encoding, more, third, he, hmore, hthird, h⟩ :=
      of_optional (by decide) hencoding hsecond h
    have hhead : version.head? = some ' ' := by
      obtain ⟨c, version, rfl⟩ := List.exists_cons_of_ne_nil hv.ne_nil
      rw [hafter] at hcs
      exact hcs
    dsimp only at h
    split at h
    · next hstart =>
      obtain ⟨b, hb, h⟩ := ok_of_bind h
      obtain ⟨standalone, hs, hrest⟩ :=
        of_property (by decide) hstandalone hthird (startsWith_iff.1 hstart) hb
      obtain ⟨g, hg, hgap, -⟩ := exists_gap b.2
      refine ⟨_, .mk hv hhead he (Or.inr hs) hg, ?_⟩
      rw [hafter, hmore, hrest, hgap, expect_iff.1 h]
      simp
    · obtain ⟨g, hg, hgap, -⟩ := declarationSpace_iff.1 hthird
      obtain ⟨g', hg', hgap', -⟩ := exists_gap third
      have hboth : Gap (g ++ g') := List.forall_mem_append.2 ⟨hg, hg'⟩
      refine ⟨_, .mk hv hhead he (Or.inl rfl) hboth, ?_⟩
      rw [hafter, hmore, hgap, hgap', expect_iff.1 h]
      simp

theorem optional_append {word P tail cs : List Char} (hP : P = [] ∨ SpellsProperty word P)
    (htail : declarationSpace tail = .ok cs) (hother : ¬ word <+: cs) :
    ∃ cs', declarationSpace (P ++ tail) = .ok cs' ∧
      ∀ k : List Char → Except Fault (List Char),
        (if startsWith word cs' = true then
          readAttribute cs' >>= fun a => declarationSpace a.2 >>= k else k cs') = k cs := by
  rcases hP with rfl | hP
  · exact ⟨cs, htail, fun k => if_neg (by rwa [startsWith_iff])⟩
  · obtain ⟨w, name, text, hspace, hstart, hread⟩ := hP.reads tail
    refine ⟨_, hspace, fun k => ?_⟩
    rw [if_pos (startsWith_iff.2 hstart), hread]
    show declarationSpace tail >>= k = _
    rw [htail]
    rfl

/-- The declaration of a document is read as it is spelled. -/
theorem readDeclaration_append {opening : List Char} (h : SpellsDeclaration opening) :
    ∃ w, opening = ['<', '?', 'x', 'm', 'l'] ++ w ∧ w.head? = some ' ' ∧
      ∀ rest, readDeclaration (w ++ rest) = .ok rest := by
  obtain ⟨hv, hhead, he, hs, hg⟩ := h
  rename_i version encoding standalone g
  refine ⟨_, rfl, ?_, fun rest => ?_⟩
  · obtain ⟨c, version, rfl⟩ := List.exists_cons_of_ne_nil hv.ne_nil
    exact hhead
  have hsets : Sets (['?', '>'] ++ rest) := sets_cons (by decide)
  have hend : declarationSpace (g ++ (['?', '>'] ++ rest)) = .ok (['?', '>'] ++ rest) :=
    declarationSpace_iff.2 ⟨g, hg, rfl, hsets, fun _ => Or.inr (List.prefix_append _ _)⟩
  have hexpect : expect "?>" (skipSpace (g ++ (['?', '>'] ++ rest))) = .ok rest := by
    rw [skipSpace_run hg hsets]
    exact expect_iff.2 rfl
  -- What comes behind the encoding is no encoding.
  obtain ⟨third, hthird, hother, hlast⟩ : ∃ third,
      declarationSpace (standalone ++ (g ++ (['?', '>'] ++ rest))) = .ok third ∧
      ¬ "encoding".toList <+: third ∧
      (if startsWith "standalone".toList third = true then
        readAttribute third >>= fun a => expect "?>" (skipSpace a.2)
        else expect "?>" (skipSpace third)) = .ok rest := by
    rcases hs with rfl | hs
    · refine ⟨_, hend, ?_, ?_⟩
      · rintro ⟨t, ht⟩
        exact absurd (List.cons.inj ht).1 (by decide)
      · have hmark : ¬ startsWith "standalone".toList (['?', '>'] ++ rest) = true := by
          rw [startsWith_iff]
          rintro ⟨t, ht⟩
          exact absurd (List.cons.inj ht).1 (by decide)
        rw [if_neg hmark]
        exact expect_iff.2 rfl
    · obtain ⟨w, name, text, hspace, hstart, hread⟩ := hs.reads (g ++ (['?', '>'] ++ rest))
      refine ⟨_, hspace, ?_, ?_⟩
      · intro hencoding
        have := List.prefix_of_prefix_length_le hencoding hstart (by decide)
        exact absurd this (by decide)
      · rw [if_pos (startsWith_iff.2 hstart), hread]
        exact hexpect
  obtain ⟨second, hsecond, hencoding⟩ := optional_append he hthird hother
  obtain ⟨w, name, text, hspace, hstart, hread⟩ :=
    hv.reads (encoding ++ (standalone ++ (g ++ (['?', '>'] ++ rest))))
  have htext : version ++ (encoding ++ (standalone ++ (g ++ ['?', '>']))) ++ rest =
      version ++ (encoding ++ (standalone ++ (g ++ (['?', '>'] ++ rest)))) := by
    simp
  unfold readDeclaration
  rw [htext, hspace]
  show (if _ then _ else _) = _
  rw [if_neg (by simpa using startsWith_iff.2 hstart), hread]
  show declarationSpace _ >>= _ = _
  rw [hsecond]
  exact (hencoding fun cs => if startsWith "standalone".toList cs = true then
    readAttribute cs >>= fun a => expect "?>" (skipSpace a.2)
    else expect "?>" (skipSpace cs)).trans hlast

/-! ## Documents -/

theorem SpellsRemark.isElement_eq {n : Node} {w : List Char} (h : SpellsRemark n w) :
    n.isElement = false := by
  cases h <;> rfl

theorem SpellsRemarks.filter_eq {ns : List Node} {w : List Char} (h : SpellsRemarks ns w) :
    ns.filter Node.isElement = [] := by
  induction h with
  | nil => rfl
  | cons _ hw _ ih => rw [List.filter_cons_of_neg (by simp [hw.isElement_eq]), ih]

theorem SpellsRemarks.length_le {ns : List Node} {w : List Char} (h : SpellsRemarks ns w) :
    ns.length ≤ w.length := by
  induction h with
  | nil => exact Nat.zero_le _
  | cons _ hw _ ih =>
    have := List.length_pos_iff.2 hw.ne_nil
    simp only [List.length_cons, List.length_append]
    omega

theorem Spells.eq_cons {scope : List Declaration} {n : Node} {w : List Char}
    (h : Spells scope n w) (helement : n.isElement = true) :
    ∃ c cs, w = '<' :: c :: cs ∧ isNameChar c = true := by
  cases h with
  | remark h =>
    rw [h.isElement_eq] at helement
    cases helement
  | run => cases helement
  | literal => cases helement
  | empty h =>
    obtain ⟨c, cs, rfl, hc⟩ := h.eq_cons
    exact ⟨c, _, rfl, hc⟩
  | element h =>
    obtain ⟨c, cs, rfl, hc⟩ := h.eq_cons
    exact ⟨c, _, rfl, hc⟩

theorem bare_of_isNameChar {c : Char} (h : isNameChar c = true) : Bare ('<' :: c :: cs) := by
  refine ⟨sets_cons (by decide), ?_, ?_⟩
  · rintro ⟨t, ht⟩
    obtain ⟨rfl, -⟩ := List.cons.inj (List.cons.inj ht).2
    exact absurd h (by decide)
  · rintro ⟨t, ht⟩
    obtain ⟨rfl, -⟩ := List.cons.inj (List.cons.inj ht).2
    exact absurd h (by decide)

/-- Remarks in front of an element do not begin as the declaration of a document does. -/
theorem SpellsRemarks.not_declaration {ns : List Node} {w : List Char} (h : SpellsRemarks ns w)
    (hrest : Bare rest) : ¬ "<?xml ".toList <+: w ++ rest := by
  have hgap : ∀ {g more : List Char}, Gap g → "<?xml ".toList <+: g ++ more → g = [] := by
    intro g more hg hstart
    cases g with
    | nil => rfl
    | cons c g =>
      obtain ⟨rfl, -⟩ := List.cons_prefix_cons.1 hstart
      exact absurd (hg '<' List.mem_cons_self) (by decide)
  intro hstart
  cases h with
  | nil hg =>
    obtain rfl := hgap hg hstart
    exact hrest.instruction (List.IsPrefix.trans ⟨['x', 'm', 'l', ' '], rfl⟩ hstart)
  | @cons n ns g w ws hg hw hns =>
    rw [List.append_assoc, List.append_assoc] at hstart
    obtain rfl := hgap hg hstart
    rw [List.nil_append] at hstart
    rcases hw.reads with ⟨v, rfl, -⟩ | ⟨v, -, hread⟩
    · exact absurd (List.cons_prefix_cons.1 (List.cons_prefix_cons.1 hstart).2).1 (by decide)
    · have hread := hread (ws ++ rest)
      unfold readInstruction at hread
      rw [if_pos (startsWith_iff.2 hstart)] at hread
      cases hread

theorem SpellsRemarks.first {ns : List Node} {w : List Char} (h : SpellsRemarks ns w) :
    ∀ c ∈ (w ++ '<' :: cs).head?, c = '<' ∨ isSpace c = true := by
  have hgap : ∀ {g more : List Char}, Gap g → (∀ c ∈ more.head?, c = '<' ∨ isSpace c = true) →
      ∀ c ∈ (g ++ more).head?, c = '<' ∨ isSpace c = true := by
    intro g more hg hmore
    cases g with
    | nil => exact hmore
    | cons d g =>
      intro c hc
      obtain rfl : d = c := Option.some.inj hc
      exact Or.inr (hg d List.mem_cons_self)
  cases h with
  | nil hg => exact hgap hg fun c hc => Or.inl (Option.some.inj hc).symm
  | cons hg hw =>
    rw [List.append_assoc]
    refine hgap hg fun c hc => Or.inl ?_
    rcases hw.reads with ⟨v, rfl, -⟩ | ⟨v, rfl, -⟩
    · exact (Option.some.inj hc).symm
    · exact (Option.some.inj hc).symm

/-- What is behind the mark that a text may begin with. -/
def behindMark (cs : List Char) : List Char :=
  match cs with
  | c :: rest => if c.toNat = 0xFEFF then rest else cs
  | [] => []

/-- What is behind the declaration that a document may begin with. -/
def readOpening (cs : List Char) : Except Fault (List Char) :=
  if startsWith "<?xml ".toList cs then readDeclaration (cs.drop 5) else pure cs

/-- The outermost element of a document without a declaration. -/
def readBody (fuel : Nat) (cs : List Char) : Except Fault Node := do
  let cs ← skipMisc fuel cs
  if startsWith "<!DOCTYPE".toList cs then .error .documentType
  else
    match cs with
    | '<' :: cs =>
      match ← readRoot cs with
      | .absent => .error .noRoot
      | .unclosed => .error .unclosedRoot
      | .root node rest =>
        let rest ← skipMisc fuel rest
        if rest.isEmpty then pure node else .error .malformed
    | [] => .error .noRoot
    | _ => .error .malformed

theorem parse_eq (text : String) : parse text =
    readOpening (behindMark text.toList) >>= readBody (text.toList.length + 1) := by
  unfold readOpening
  split
  · next h => exact if_pos h
  · next h => exact if_neg h

theorem exists_mark (cs : List Char) :
    ∃ mark, (mark = [] ∨ mark = [Char.ofNat 0xFEFF]) ∧ cs = mark ++ behindMark cs := by
  unfold behindMark
  split
  · next c rest =>
    split
    · next hc => exact ⟨[c], Or.inr (by rw [← hc, Char.ofNat_toNat]), rfl⟩
    · exact ⟨[], Or.inl rfl, rfl⟩
  · exact ⟨[], Or.inl rfl, rfl⟩

theorem behindMark_append {mark : List Char} (hmark : mark = [] ∨ mark = [Char.ofNat 0xFEFF])
    (hcs : ∀ c ∈ cs.head?, c = '<' ∨ isSpace c = true) : behindMark (mark ++ cs) = cs := by
  rcases hmark with rfl | rfl
  · cases cs with
    | nil => rfl
    | cons c cs =>
      refine if_neg fun hc => ?_
      obtain rfl : Char.ofNat 0xFEFF = c := by rw [← hc, Char.ofNat_toNat]
      exact absurd (hcs _ rfl) (by decide)
  · rfl

theorem of_readOpening (h : readOpening cs = .ok rest) :
    ∃ opening, (opening = [] ∨ SpellsDeclaration opening) ∧ cs = opening ++ rest := by
  unfold readOpening at h
  split at h
  · next hstart =>
    obtain ⟨t, rfl⟩ := startsWith_iff.1 hstart
    obtain ⟨w, hw, ht⟩ := of_readDeclaration h rfl
    refine ⟨_, Or.inr hw, ?_⟩
    rw [List.append_assoc, ← ht]
    rfl
  · obtain rfl := Except.ok.inj h
    exact ⟨[], Or.inl rfl, rfl⟩

theorem readOpening_append {opening : List Char}
    (hopening : opening = [] ∨ SpellsDeclaration opening) (hrest : ¬ "<?xml ".toList <+: rest) :
    readOpening (opening ++ rest) = .ok rest := by
  unfold readOpening
  rcases hopening with rfl | hopening
  · exact if_neg (by rwa [startsWith_iff])
  · obtain ⟨w, rfl, hblank, hread⟩ := readDeclaration_append hopening
    obtain ⟨w, rfl⟩ := List.head?_eq_some_iff.1 hblank
    have hstart : "<?xml ".toList <+: ['<', '?', 'x', 'm', 'l'] ++ ' ' :: w ++ rest :=
      ⟨w ++ rest, rfl⟩
    rw [if_pos (startsWith_iff.2 hstart)]
    exact hread rest

theorem of_readBody {fuel : Nat} {node : Node} (h : readBody fuel cs = .ok node) :
    ∃ before after lead body trail, SpellsRemarks before lead ∧ node.isElement = true ∧
      Spells [] node body ∧ SpellsRemarks after trail ∧ cs = lead ++ (body ++ trail) := by
  obtain ⟨behind, hskip, h⟩ := ok_of_bind h
  obtain ⟨before, lead, hlead, hcs⟩ := of_skipMisc hskip
  split at h
  · cases h
  split at h
  · obtain ⟨outcome, houtcome, h⟩ := ok_of_bind h
    split at h
    · cases h
    · cases h
    · obtain ⟨left, hleft, h⟩ := ok_of_bind h
      obtain ⟨after, trail, htrail, hrest⟩ := of_skipMisc hleft
      split at h
      · next hempty =>
        rw [Except.ok.inj h] at houtcome
        obtain ⟨helement, body, hbody, hsplit⟩ := readRoot_iff.1 houtcome
        refine ⟨before, after, lead, body, trail, hlead, helement, hbody, htrail, ?_⟩
        rw [hcs, hsplit, hrest, List.isEmpty_iff.1 hempty, List.append_nil]
      · cases h
  · cases h
  · cases h

theorem readBody_append {fuel : Nat} {node : Node} {before after : List Node}
    {lead body trail : List Char} (hlead : SpellsRemarks before lead)
    (helement : node.isElement = true) (hbody : Spells [] node body)
    (htrail : SpellsRemarks after trail) (hfuel : (lead ++ (body ++ trail)).length < fuel) :
    readBody fuel (lead ++ (body ++ trail)) = .ok node := by
  obtain ⟨c, inside, rfl, hc⟩ := hbody.eq_cons helement
  have hroot : readRoot (c :: inside ++ trail) = .ok (.root node trail) :=
    readRoot_iff.2 ⟨helement, _, hbody, rfl⟩
  have hbefore := hlead.length_le
  have hafter := htrail.length_le
  simp only [List.length_append] at hfuel
  have hskip : skipMisc fuel (lead ++ ('<' :: c :: inside ++ trail)) =
      .ok ('<' :: c :: inside ++ trail) :=
    skipMisc_append hlead (bare_of_isNameChar hc) (by omega)
  have hend : skipMisc fuel (trail ++ []) = .ok [] :=
    skipMisc_append htrail ⟨sets_nil, by simp, by simp⟩ (by omega)
  have hdocument : ¬ startsWith "<!DOCTYPE".toList ('<' :: c :: inside ++ trail) = true := by
    rw [startsWith_iff]
    rintro ⟨t, ht⟩
    obtain ⟨rfl, -⟩ := List.cons.inj (List.cons.inj ht).2
    exact absurd hc (by decide)
  rw [List.append_nil] at hend
  unfold readBody
  rw [hskip]
  show (if _ then _ else _) = _
  rw [if_neg hdocument]
  show readRoot (c :: inside ++ trail) >>= _ = _
  rw [hroot]
  show skipMisc fuel trail >>= _ = _
  rw [hend]
  rfl

/-- A document is read exactly if it is spelled, and then its one element is the result. -/
theorem parse_iff {text : String} {node : Node} : parse text = .ok node ↔
    ∃ doc, SpellsDocument doc text.toList ∧ doc.filter Node.isElement = [node] := by
  rw [parse_eq]
  constructor
  · intro h
    obtain ⟨more, hopening, hbody⟩ := ok_of_bind h
    obtain ⟨mark, hmark, htext⟩ := exists_mark text.toList
    obtain ⟨opening, hdeclared, hcs⟩ := of_readOpening hopening
    obtain ⟨before, after, lead, body, trail, hlead, helement, hnode, htrail, hmore⟩ :=
      of_readBody hbody
    refine ⟨before ++ node :: after, ?_, by simp [hlead.filter_eq, htrail.filter_eq, helement]⟩
    rw [htext, hcs, hmore]
    exact .mk hmark hdeclared hlead helement hnode htrail
  · rintro ⟨doc, h, hdoc⟩
    generalize text.toList = cs at h
    obtain ⟨hmark, hdeclared, hlead, helement, hnode, htrail⟩ := h
    rename_i before after root mark opening lead body trail
    obtain rfl : root = node := by
      simpa [hlead.filter_eq, htrail.filter_eq, helement] using hdoc
    obtain ⟨c, inside, rfl, hc⟩ := hnode.eq_cons helement
    have hbare : Bare ('<' :: c :: inside ++ trail) := bare_of_isNameChar hc
    have hfirst : ∀ d ∈ (opening ++ (lead ++ ('<' :: c :: inside ++ trail))).head?,
        d = '<' ∨ isSpace d = true := by
      rcases hdeclared with rfl | hdeclared
      · exact hlead.first
      · obtain ⟨w, rfl, -⟩ := readDeclaration_append hdeclared
        exact fun d hd => Or.inl (Option.some.inj hd).symm
    rw [behindMark_append hmark hfirst,
      readOpening_append hdeclared (hlead.not_declaration hbare)]
    refine readBody_append hlead helement hnode htrail ?_
    simp only [List.length_append]
    omega

/-- The one element among the nodes of a document. -/
theorem SpellsDocument.exists_root {doc : List Node} (h : SpellsDocument doc cs) :
    ∃ node body, doc.filter Node.isElement = [node] ∧ node.isElement = true ∧
      Spells [] node body := by
  obtain ⟨-, -, hlead, helement, hbody, htrail⟩ := h
  rename_i before after root mark opening lead body trail
  exact ⟨root, body, by simp [hlead.filter_eq, htrail.filter_eq, helement], helement, hbody⟩

end EdmxGen.Xml
