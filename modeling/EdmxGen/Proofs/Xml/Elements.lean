import EdmxGen.Proofs.Xml.Remarks

/-!
# Elements are read as they are spelled

One step of reading inside an element takes a node that is over or a tag (`step_of_readContent`). So
the content of an element that is read is spelled as nodes with a close tag behind
(`of_readContent`). The other way round, each kind of node is read as it is spelled
(`Spells.reads`), and the outermost element is read exactly if it is spelled (`readRoot_iff`).
-/

namespace EdmxGen.Xml

open Text

variable {cs rest : List Char}

/-! ## Content -/

/-- The frame with more nodes in their order. -/
def Frame.fill (f : Frame) (ns : List Node) : Frame :=
  { f with children := ns.reverse ++ f.children }

theorem fill_close (tag : Tag) (children : List Node) :
    ((⟨tag, []⟩ : Frame).fill children).close = .element tag children := by
  simp [Frame.fill, Frame.close]

theorem fill_add (f : Frame) (n : Node) (ns : List Node) :
    (f.add n).fill ns = f.fill (n :: ns) := by
  simp [Frame.fill, Frame.add]

/-- Reading goes on behind an element, in the content of the next open one. -/
def GoesOn (fuel : Nat) (n : Node) (outer : List Frame) (after : List Char) (root : Node)
    (rest : List Char) : Prop :=
  match outer with
  | [] => root = n ∧ rest = after
  | next :: outer => readContent fuel (next.add n) outer after = .ok (.root root rest)

/-- What one step of reading inside an element takes: a node that is over, or a tag. -/
inductive Step (fuel : Nat) (frame : Frame) (outer : List Frame) (root : Node)
    (rest : List Char) : List Char → Prop
  | node {n : Node} {w more : List Char} : Spells frame.tag.scope n w →
      w.head? = some '<' ∨ (∀ c ∈ more.head?, c = '<') →
      readContent fuel (frame.add n) outer more = .ok (.root root rest) →
      Step fuel frame outer root rest (w ++ more)
  | opened {tag : Tag} {w more : List Char} : SpellsTag frame.tag.scope tag w →
      readContent fuel ⟨tag, []⟩ (frame :: outer) more = .ok (.root root rest) →
      Step fuel frame outer root rest ('<' :: (w ++ '>' :: more))
  | closed {closing g more : List Char} : SpellsName frame.tag.name closing → Gap g →
      GoesOn fuel frame.close outer more root rest →
      Step fuel frame outer root rest ('<' :: '/' :: (closing ++ (g ++ '>' :: more)))

theorem of_readLiteral {scope : List Declaration} {s behind more : List Char}
    (h : readUntil [']', ']', '>'] cs = .ok (s, behind)) (hmark : expect "]]>" behind = .ok more) :
    ∃ w, Spells scope (.text (String.ofList (literalOf s)))
      (['<', '!', '[', 'C', 'D', 'A', 'T', 'A', '['] ++ w) ∧ cs = w ++ more := by
  obtain ⟨hcs, hallowed, hnot, -⟩ := of_readUntil (List.cons_ne_nil _ _) h
  refine ⟨s ++ [']', ']', '>'], .literal hallowed hnot, ?_⟩
  rw [hcs, expect_iff.1 hmark]
  simp

theorem of_readRun {scope : List Declaration} {s : String} {w more : List Char}
    (h : readUntil ['<'] cs = .ok (w, more)) (hempty : cs ≠ [])
    (hmarkup : ∀ after, cs ≠ '<' :: after) (hmark : cut? [']', ']', '>'] w = none)
    (hs : textOf w = .ok s) :
    Spells scope (.text s) w ∧ cs = w ++ more ∧ ∀ c ∈ more.head?, c = '<' := by
  obtain ⟨hcs, hallowed, hnot, hend⟩ := of_readUntil (List.cons_ne_nil _ _) h
  have hne : w ≠ [] := by
    rintro rfl
    rcases hend with rfl | ⟨after, rfl⟩
    · exact hempty hcs
    · exact hmarkup after hcs
  refine ⟨.run hne (fun c hc => ⟨hallowed c hc, ?_⟩) (cut?_eq_none_iff.1 hmark) hs, hcs,
    fun c hc => ?_⟩
  · rintro rfl
    exact hnot ((List.singleton_infix_iff _ _).2 hc)
  · rcases hend with rfl | ⟨after, rfl⟩
    · cases hc
    · exact (Option.some.inj hc).symm

/-! ### Each kind of markup -/

section

variable {fuel : Nat} {frame : Frame} {outer : List Frame} {root n : Node} {more : List Char}

theorem Step.of_comment {after : List Char} (hstrip : stripPrefix? "!--".toList cs = some after)
    (hread : readComment after = .ok (n, more))
    (hnext : readContent fuel (frame.add n) outer more = .ok (.root root rest)) :
    Step fuel frame outer root rest ('<' :: cs) := by
  obtain ⟨w, hw, hafter⟩ := of_readComment hread
  have hcs : '<' :: cs = ['<', '!', '-', '-'] ++ w ++ more := by
    rw [stripPrefix?_eq_some_iff.1 hstrip, hafter]
    simp
  rw [hcs]
  exact .node (.remark hw) (Or.inl rfl) hnext

theorem Step.of_literal {after behind s : List Char}
    (hstrip : stripPrefix? "![CDATA[".toList cs = some after)
    (hread : readUntil [']', ']', '>'] after = .ok (s, behind))
    (hmark : expect "]]>" behind = .ok more)
    (hnext : readContent fuel (frame.add (.text (String.ofList (literalOf s)))) outer more
      = .ok (.root root rest)) :
    Step fuel frame outer root rest ('<' :: cs) := by
  obtain ⟨w, hw, hafter⟩ := of_readLiteral hread hmark
  have hcs : '<' :: cs = ['<', '!', '[', 'C', 'D', 'A', 'T', 'A', '['] ++ w ++ more := by
    rw [stripPrefix?_eq_some_iff.1 hstrip, hafter]
    simp
  rw [hcs]
  exact .node hw (Or.inl rfl) hnext

theorem Step.of_instruction (hread : readInstruction ('<' :: '?' :: cs) = .ok (n, more))
    (hnext : readContent fuel (frame.add n) outer more = .ok (.root root rest)) :
    Step fuel frame outer root rest ('<' :: '?' :: cs) := by
  obtain ⟨w, hw, hsplit⟩ := of_readInstruction hread
  have hcs : '<' :: '?' :: cs = ['<', '?'] ++ w ++ more := by
    rw [hsplit]
    simp
  rw [hcs]
  exact .node (.remark hw) (Or.inl rfl) hnext

theorem Step.of_closeTag (hread : readCloseTag cs = .ok (frame.tag.name, more))
    (hnext : GoesOn fuel frame.close outer more root rest) :
    Step fuel frame outer root rest ('<' :: '/' :: cs) := by
  obtain ⟨closing, g, hclosing, hg, hcs⟩ := readCloseTag_iff.1 hread
  rw [hcs]
  exact .closed hclosing hg hnext

theorem Step.of_emptyTag {start : StartTag} {tag : Tag}
    (hread : readStartTag fuel cs = .ok (start, .empty, more))
    (htag : start.resolve frame.tag.scope = .ok tag)
    (hnext : readContent fuel (frame.add (.element tag [])) outer more = .ok (.root root rest)) :
    Step fuel frame outer root rest ('<' :: cs) := by
  obtain ⟨w, hw, hcs⟩ := of_readStartTag hread (by simp) htag
  have htext : '<' :: cs = '<' :: (w ++ ['/', '>']) ++ more := by
    rw [hcs]
    simp [TagEnd.text]
  rw [htext]
  exact .node (.empty hw) (Or.inl rfl) hnext

theorem Step.of_startTag {start : StartTag} {tag : Tag}
    (hread : readStartTag fuel cs = .ok (start, .opened, more))
    (htag : start.resolve frame.tag.scope = .ok tag)
    (hnext : readContent fuel ⟨tag, []⟩ (frame :: outer) more = .ok (.root root rest)) :
    Step fuel frame outer root rest ('<' :: cs) := by
  obtain ⟨w, hw, hcs⟩ := of_readStartTag hread (by simp) htag
  rw [hcs]
  exact .opened hw hnext

end

/-- Each step of reading inside an element that gets to the end of the outermost one. -/
theorem step_of_readContent {fuel : Nat} {frame : Frame} {outer : List Frame} {root : Node}
    (h : readContent (fuel + 1) frame outer cs = .ok (.root root rest)) :
    Step fuel frame outer root rest cs := by
  unfold readContent at h
  split at h
  · cases h
  · cases h
  · next heq =>
    -- After a `<` the next characters tell what comes.
    obtain rfl := Nat.succ.inj heq
    split at h
    · cases h
    · split at h
      · next hstrip =>
        obtain ⟨_, hread, h⟩ := ok_of_bind h
        exact .of_comment hstrip hread h
      · next hstrip =>
        obtain ⟨_, hread, h⟩ := ok_of_bind h
        obtain ⟨_, hmark, h⟩ := ok_of_bind h
        exact .of_literal hstrip hread hmark h
      · cases h
    · obtain ⟨_, hread, h⟩ := ok_of_bind h
      exact .of_instruction hread h
    · obtain ⟨⟨name, more⟩, hread, h⟩ := ok_of_bind h
      dsimp only at h
      split at h
      · cases h
      · next hname =>
        rw [not_not.1 hname] at hread
        refine .of_closeTag hread ?_
        split at h
        · obtain ⟨rfl, rfl⟩ := Outcome.root.inj (Except.ok.inj h)
          exact ⟨rfl, rfl⟩
        · exact h
    · obtain ⟨⟨start, tagEnd, more⟩, hread, h⟩ := ok_of_bind h
      cases tagEnd with
      | cut => cases h
      | empty =>
        obtain ⟨tag, htag, h⟩ := ok_of_bind h
        exact .of_emptyTag hread htag h
      | opened =>
        obtain ⟨tag, htag, h⟩ := ok_of_bind h
        exact .of_startTag hread htag h
  · next heq hempty hmarkup =>
    obtain rfl := Nat.succ.inj heq
    obtain ⟨⟨w, more⟩, hread, h⟩ := ok_of_bind h
    dsimp only at h
    split at h
    · cases h
    · next hmark =>
      obtain ⟨s, hs, h⟩ := ok_of_bind h
      obtain ⟨hw, hcs, hhead⟩ := of_readRun hread hempty hmarkup (by simpa using hmark) hs
      rw [hcs]
      exact .node hw (Or.inr hhead) h

/-- Content that is read ends with a close tag of its element, and nodes are spelled in front. -/
theorem of_readContent {fuel : Nat} {frame : Frame} {outer : List Frame} {root : Node}
    (h : readContent fuel frame outer cs = .ok (.root root rest)) :
    ∃ fuel' ≤ fuel, ∃ ns inside closing g more, SpellsAll frame.tag.scope ns inside ∧
      SpellsName frame.tag.name closing ∧ Gap g ∧
      cs = inside ++ '<' :: '/' :: (closing ++ (g ++ '>' :: more)) ∧
      GoesOn fuel' (frame.fill ns).close outer more root rest := by
  -- A close tag leaves less fuel to the content around it, so the induction is a strong one.
  induction fuel using Nat.strong_induction_on generalizing frame outer cs with
  | h fuel ih =>
  cases fuel with
  | zero => cases h
  | succ fuel =>
    cases step_of_readContent h with
    | @node n w more hw hhead hnext =>
      obtain ⟨fuel', hle, ns, inside, closing, g, after, hns, hclosing, hg, hmore, hgoes⟩ :=
        ih fuel (Nat.lt_succ_self _) hnext
      refine ⟨fuel', by omega, n :: ns, w ++ inside, closing, g, after,
        .cons hw hns (hhead.imp_right fun hhead c hc => hhead c ?_), hclosing, hg,
        by rw [hmore, List.append_assoc], fill_add frame n ns ▸ hgoes⟩
      rw [hmore]
      exact List.mem_head?_append_of_mem_head? hc
    | @opened tag w more hw hnext =>
      obtain ⟨fuel', hle, children, inside, closing, g, after, hchildren, hclosing, hg, hmore,
        hgoes⟩ := ih fuel (Nat.lt_succ_self _) hnext
      obtain ⟨fuel'', hle', ns, inside', closing', g', after', hns, hclosing', hg', hafter,
        hgoes'⟩ := ih fuel' (by omega) hgoes
      have hnode : Spells frame.tag.scope (.element tag children) _ :=
        .element hw hchildren hclosing hg
      rw [fill_close, fill_add] at hgoes'
      refine ⟨fuel'', by omega, _, _, closing', g', after', .cons hnode hns (Or.inl rfl),
        hclosing', hg', ?_, hgoes'⟩
      rw [hmore, hafter]
      simp
    | @closed closing g more hclosing hg hgoes =>
      exact ⟨fuel, Nat.le_succ _, [], [], closing, g, more, .nil, hclosing, hg, rfl, hgoes⟩

variable {fuel : Nat} {frame : Frame} {outer : List Frame}

theorem readContent_remark {n : Node} {w : List Char} (h : SpellsRemark n w) :
    readContent (fuel + 1) frame outer (w ++ rest) =
      readContent fuel (frame.add n) outer rest := by
  rw [readContent.eq_def]
  rcases h.reads with ⟨v, rfl, hread⟩ | ⟨v, rfl, hread⟩
  · have hstrip : stripPrefix? "!--".toList ('!' :: '-' :: '-' :: (v ++ rest)) =
        some (v ++ rest) := stripPrefix?_eq_some_iff.2 rfl
    simp only [List.cons_append, List.nil_append, hstrip, hread, bind, Except.bind]
  · have hread := hread rest
    simp only [List.cons_append, List.nil_append] at hread ⊢
    simp only [hread, bind, Except.bind]

theorem readContent_literal {s : List Char} (hs : ∀ c ∈ s, isAllowed c = true)
    (hmark : ¬ [']', ']', '>'] <:+: s) :
    readContent (fuel + 1) frame outer
        (['<', '!', '[', 'C', 'D', 'A', 'T', 'A', '['] ++ (s ++ [']', ']', '>']) ++ rest) =
      readContent fuel (frame.add (.text (String.ofList (literalOf s)))) outer rest := by
  have hcomment : stripPrefix? "!--".toList
      ('!' :: '[' :: 'C' :: 'D' :: 'A' :: 'T' :: 'A' :: '[' :: (s ++ [']', ']', '>'] ++ rest)) =
      none := by
    rw [stripPrefix?_eq_none_iff]
    rintro ⟨t, ht⟩
    exact absurd (List.cons.inj (List.cons.inj ht).2).1 (by decide)
  have hliteral : stripPrefix? "![CDATA[".toList
      ('!' :: '[' :: 'C' :: 'D' :: 'A' :: 'T' :: 'A' :: '[' :: (s ++ [']', ']', '>'] ++ rest)) =
      some (s ++ [']', ']', '>'] ++ rest) := stripPrefix?_eq_some_iff.2 rfl
  have hread : readUntil [']', ']', '>'] (s ++ [']', ']', '>'] ++ rest) =
      .ok (s, [']', ']', '>'] ++ rest) := by
    rw [List.append_assoc]
    exact readUntil_mark (m := [']']) (by decide) (by decide) hs hmark
  have hexpect : expect "]]>" ([']', ']', '>'] ++ rest) = .ok rest := expect_iff.2 (by simp)
  rw [readContent.eq_def]
  simp only [List.cons_append, List.nil_append] at hcomment hliteral hread hexpect ⊢
  simp only [hcomment, hliteral, hread, hexpect, bind, Except.bind]

theorem readUntil_run {w : List Char} (hw : ∀ c ∈ w, isAllowed c = true ∧ c ≠ '<')
    (hrest : ∀ c ∈ rest.head?, c = '<') : readUntil ['<'] (w ++ rest) = .ok (w, rest) := by
  induction w with
  | nil =>
    cases rest with
    | nil => rfl
    | cons c rest =>
      obtain rfl := hrest c rfl
      rfl
  | cons c w ih =>
    obtain ⟨⟨hallowed, hne⟩, hw⟩ := List.forall_mem_cons.1 hw
    have hstart : ¬ startsWith ['<'] (c :: (w ++ rest)) = true := by
      rw [startsWith_iff]
      rintro ⟨t, ht⟩
      exact hne (List.cons.inj ht).1.symm
    rw [List.cons_append, readUntil, if_neg (by simp [hallowed]), if_neg hstart, ih hw]
    rfl

theorem readContent_run {s : String} {w : List Char} (hne : w ≠ [])
    (hw : ∀ c ∈ w, isAllowed c = true ∧ c ≠ '<') (hmark : ¬ [']', ']', '>'] <:+: w)
    (hs : textOf w = .ok s) (hrest : ∀ c ∈ rest.head?, c = '<') :
    readContent (fuel + 1) frame outer (w ++ rest) =
      readContent fuel (frame.add (.text s)) outer rest := by
  have hread := readUntil_run hw hrest
  have hcut : cut? [']', ']', '>'] w = none := cut?_eq_none_iff.2 hmark
  rw [readContent.eq_def]
  split
  · next heq => cases heq
  · next heq _ => exact absurd (List.append_eq_nil_iff.1 heq).1 hne
  · next heq =>
    obtain ⟨c, w, rfl⟩ := List.exists_cons_of_ne_nil hne
    exact absurd (List.cons.inj heq).1 (hw c List.mem_cons_self).2
  · next heq _ _ =>
    obtain rfl := Nat.succ.inj heq
    rw [hread]
    simp only [bind, Except.bind, hcut, hs]
    rfl

theorem SpellsTag.eq_cons {inherited : List Declaration} {tag : Tag} {w : List Char}
    (h : SpellsTag inherited tag w) : ∃ c cs, w = c :: cs ∧ isNameChar c = true := by
  obtain ⟨hname, -, -⟩ := h
  obtain ⟨c, cs, rfl, hc⟩ := hname.eq_cons
  exact ⟨c, _, rfl, hc⟩

theorem readContent_tag {tagEnd : TagEnd} {tag : Tag} {w : List Char}
    (h : SpellsTag frame.tag.scope tag w) (hfuel : w.length < fuel) :
    tagEnd ≠ .cut → readContent (fuel + 1) frame outer ('<' :: (w ++ (tagEnd.text ++ rest))) =
      match tagEnd with
      | .cut => .ok .unclosed
      | .empty => readContent fuel (frame.add (.element tag [])) outer rest
      | .opened => readContent fuel ⟨tag, []⟩ (frame :: outer) rest := by
  intro hend
  obtain ⟨start, hread, hresolve⟩ : ∃ start, readStartTag fuel (w ++ (tagEnd.text ++ rest)) =
      .ok (start, tagEnd, rest) ∧ start.resolve frame.tag.scope = .ok tag :=
    readStartTag_append h hend hfuel
  -- A name does not begin as other markup does.
  obtain ⟨c, cs, rfl, hc⟩ := h.eq_cons
  rw [readContent.eq_def]
  rw [List.cons_append] at hread ⊢
  split
  · next heq => cases heq
  · next heq _ => cases heq
  · next fuel' cs' heq heq' =>
    obtain rfl := Nat.succ.inj heq
    obtain ⟨-, rfl⟩ := List.cons.inj heq'
    split
    · next heq => cases heq
    · next heq =>
      obtain ⟨rfl, -⟩ := List.cons.inj heq
      exact absurd hc (by decide)
    · next heq =>
      obtain ⟨rfl, -⟩ := List.cons.inj heq
      exact absurd hc (by decide)
    · next heq =>
      obtain ⟨rfl, -⟩ := List.cons.inj heq
      exact absurd hc (by decide)
    · rw [hread]
      cases tagEnd with
      | cut => exact absurd rfl hend
      | empty => simp only [bind, Except.bind, hresolve]
      | opened => simp only [bind, Except.bind, hresolve]
  · next heq => exact absurd rfl (heq _)

theorem readContent_close {closing g : List Char} (hclosing : SpellsName frame.tag.name closing)
    (hg : Gap g) :
    readContent (fuel + 1) frame outer ('<' :: '/' :: (closing ++ (g ++ '>' :: rest))) =
      match outer with
      | [] => .ok (.root frame.close rest)
      | next :: outer => readContent fuel (next.add frame.close) outer rest := by
  have hread : readCloseTag (closing ++ (g ++ '>' :: rest)) = .ok (frame.tag.name, rest) :=
    readCloseTag_iff.2 ⟨closing, g, hclosing, hg, rfl⟩
  rw [readContent.eq_def]
  simp only [hread, bind, Except.bind, ne_eq, not_true_eq_false, if_false]
  cases outer <;> rfl

/-- A text of a node adds it to the innermost open element, with enough fuel left for what follows.
What follows a run begins with markup. -/
def Reads (scope : List Declaration) (n : Node) (w : List Char) : Prop :=
  ∀ (fuel : Nat) (frame : Frame) (outer : List Frame) (rest : List Char),
    frame.tag.scope = scope → (w.head? = some '<' ∨ ∀ c ∈ rest.head?, c = '<') →
    (w ++ rest).length < fuel → ∃ fuel', rest.length < fuel' ∧
      readContent fuel frame outer (w ++ rest) = readContent fuel' (frame.add n) outer rest

/-- A text of nodes adds them in their order. -/
def ReadsAll (scope : List Declaration) (ns : List Node) (w : List Char) : Prop :=
  ∀ (fuel : Nat) (frame : Frame) (outer : List Frame) (rest : List Char),
    frame.tag.scope = scope → (∀ c ∈ rest.head?, c = '<') → (w ++ rest).length < fuel →
    ∃ fuel', rest.length < fuel' ∧
      readContent fuel frame outer (w ++ rest) = readContent fuel' (frame.fill ns) outer rest

/-- What is read in one step leaves enough fuel. -/
theorem Reads.of_step {scope : List Declaration} {n : Node} {w : List Char} (hw : w ≠ [])
    (h : ∀ (fuel : Nat) (frame : Frame) (outer : List Frame) (rest : List Char),
      frame.tag.scope = scope → (w.head? = some '<' ∨ ∀ c ∈ rest.head?, c = '<') →
      w.length ≤ fuel → readContent (fuel + 1) frame outer (w ++ rest) =
        readContent fuel (frame.add n) outer rest) :
    Reads scope n w := by
  intro fuel frame outer rest hscope hhead hfuel
  have := List.length_pos_iff.2 hw
  rw [List.length_append] at hfuel
  obtain ⟨fuel, rfl⟩ : ∃ n, fuel = n + 1 := ⟨fuel - 1, by omega⟩
  exact ⟨fuel, by omega, h fuel frame outer rest hscope hhead (by omega)⟩

theorem SpellsRemark.ne_nil {n : Node} {w : List Char} (h : SpellsRemark n w) : w ≠ [] := by
  cases h <;> exact List.cons_ne_nil _ _

theorem reads_element {scope : List Declaration} {tag : Tag} {children : List Node}
    {w inside closing g : List Char} (h : SpellsTag scope tag w)
    (hchildren : ReadsAll tag.scope children inside) (hclosing : SpellsName tag.name closing)
    (hg : Gap g) : Reads scope (.element tag children)
      ('<' :: (w ++ '>' :: (inside ++ '<' :: '/' :: (closing ++ (g ++ ['>']))))) := by
  rintro fuel frame outer rest rfl - hfuel
  have htext : '<' :: (w ++ '>' :: (inside ++ '<' :: '/' :: (closing ++ (g ++ ['>'])))) ++ rest =
      '<' :: (w ++ (TagEnd.opened.text ++
        (inside ++ '<' :: '/' :: (closing ++ (g ++ '>' :: rest))))) := by
    simp [TagEnd.text]
  rw [htext] at hfuel ⊢
  simp only [List.length_cons, List.length_append, TagEnd.text] at hfuel
  obtain ⟨fuel, rfl⟩ : ∃ n, fuel = n + 1 := ⟨fuel - 1, by omega⟩
  have hopened : readContent (fuel + 1) frame outer ('<' :: (w ++ (TagEnd.opened.text ++
      (inside ++ '<' :: '/' :: (closing ++ (g ++ '>' :: rest)))))) =
      readContent fuel ⟨tag, []⟩ (frame :: outer)
        (inside ++ '<' :: '/' :: (closing ++ (g ++ '>' :: rest))) :=
    readContent_tag h (by omega) (by simp)
  obtain ⟨fuel', hfuel', hread⟩ := hchildren fuel ⟨tag, []⟩ (frame :: outer)
    ('<' :: '/' :: (closing ++ (g ++ '>' :: rest))) rfl (fun c hc => (Option.some.inj hc).symm)
    (by simp only [List.length_cons, List.length_append]; omega)
  simp only [List.length_cons, List.length_append] at hfuel'
  obtain ⟨fuel', rfl⟩ : ∃ n, fuel' = n + 1 := ⟨fuel' - 1, by omega⟩
  refine ⟨fuel', by omega, (hopened.trans hread).trans ?_⟩
  rw [readContent_close hclosing hg, fill_close]

theorem ReadsAll.cons {scope : List Declaration} {n : Node} {ns : List Node} {w ws : List Char}
    (hn : Reads scope n w) (hns : ReadsAll scope ns ws)
    (hnext : w.head? = some '<' ∨ (∀ c ∈ ws.head?, c = '<')) :
    ReadsAll scope (n :: ns) (w ++ ws) := by
  intro fuel frame outer rest hscope hhead hfuel
  have hopens : w.head? = some '<' ∨ ∀ c ∈ (ws ++ rest).head?, c = '<' := by
    refine hnext.imp_right fun hws => ?_
    cases ws with
    | nil => exact hhead
    | cons c ws => exact hws
  rw [List.append_assoc] at hfuel ⊢
  obtain ⟨fuel', hfuel', hread⟩ := hn fuel frame outer _ hscope hopens hfuel
  obtain ⟨fuel'', hfuel'', hread'⟩ := hns fuel' (frame.add n) outer rest hscope hhead hfuel'
  exact ⟨fuel'', hfuel'', by rw [hread, hread', fill_add]⟩

mutual

/-- A node is read as it is spelled. -/
theorem Spells.reads {scope : List Declaration} {n : Node} {w : List Char} (h : Spells scope n w) :
    Reads scope n w := by
  cases h with
  | remark h =>
    exact .of_step h.ne_nil fun _ _ _ _ _ _ _ => readContent_remark h
  | run hne hw hmark hs =>
    refine .of_step hne fun _ _ _ _ _ hhead _ => readContent_run hne hw hmark hs ?_
    obtain ⟨c, w, rfl⟩ := List.exists_cons_of_ne_nil hne
    exact hhead.resolve_left fun hc =>
      (hw c List.mem_cons_self).2 (Option.some.inj hc)
  | literal hw hmark =>
    exact .of_step (List.cons_ne_nil _ _) fun _ _ _ _ _ _ _ => readContent_literal hw hmark
  | @empty _ tag w h =>
    refine .of_step (List.cons_ne_nil _ _) fun fuel frame outer rest hscope _ hfuel => ?_
    subst hscope
    have htext : '<' :: (w ++ ['/', '>']) ++ rest = '<' :: (w ++ (TagEnd.empty.text ++ rest)) := by
      simp [TagEnd.text]
    simp only [List.length_cons, List.length_append] at hfuel
    rw [htext]
    exact readContent_tag h (by omega) (by simp)
  | element h hchildren hclosing hg => exact reads_element h hchildren.reads hclosing hg

/-- Nodes are read one after the other as they are spelled. -/
theorem SpellsAll.reads {scope : List Declaration} {ns : List Node} {w : List Char}
    (h : SpellsAll scope ns w) : ReadsAll scope ns w := by
  cases h with
  | nil => exact fun fuel _ _ _ _ _ hfuel => ⟨fuel, hfuel, rfl⟩
  | cons hn hns hnext => exact .cons hn.reads hns.reads hnext

end

/-! ## The outermost element -/

/-- The outermost element is read exactly if it is spelled. -/
theorem readRoot_iff {root : Node} : readRoot cs = .ok (.root root rest) ↔
    root.isElement = true ∧ ∃ w, Spells [] root w ∧ '<' :: cs = w ++ rest := by
  constructor
  · intro h
    obtain ⟨⟨start, tagEnd, more⟩, hread, h⟩ := ok_of_bind h
    dsimp only at h
    split at h
    · cases h
    · obtain ⟨tag, htag, h⟩ := ok_of_bind h
      obtain ⟨rfl, rfl⟩ := Outcome.root.inj (Except.ok.inj h)
      obtain ⟨w, hw, hcs⟩ := of_readStartTag hread (by simp) htag
      exact ⟨rfl, _, .empty hw, by rw [hcs]; simp [TagEnd.text]⟩
    · obtain ⟨tag, htag, h⟩ := ok_of_bind h
      obtain ⟨w, hw, hcs⟩ := of_readStartTag hread (by simp) htag
      obtain ⟨-, -, ns, inside, closing, g, after, hns, hclosing, hg, hmore, rfl, rfl⟩ :=
        of_readContent h
      rw [fill_close]
      exact ⟨rfl, _, .element hw hns hclosing hg, by rw [hcs, hmore]; simp [TagEnd.text]⟩
  · rintro ⟨helement, w, hw, hcs⟩
    cases hw with
    | remark h => cases h <;> cases helement
    | run => cases helement
    | literal => cases helement
    | @empty _ tag w h =>
      obtain rfl : cs = w ++ (TagEnd.empty.text ++ rest) := by
        simpa [TagEnd.text] using hcs
      obtain ⟨start, hread, hresolve⟩ : ∃ start,
          readStartTag (w ++ (TagEnd.empty.text ++ rest)).length
            (w ++ (TagEnd.empty.text ++ rest)) = .ok (start, .empty, rest) ∧
          start.resolve [] = .ok tag :=
        readStartTag_append h (by simp) (by simp [TagEnd.text])
      unfold readRoot
      simp only [hread, hresolve, bind, Except.bind]
      rfl
    | @element _ tag children w inside closing g h hchildren hclosing hg =>
      obtain rfl : cs = w ++ (TagEnd.opened.text ++
          (inside ++ '<' :: '/' :: (closing ++ (g ++ '>' :: rest)))) := by
        simpa [TagEnd.text] using hcs
      generalize hmore : inside ++ '<' :: '/' :: (closing ++ (g ++ '>' :: rest)) = more
      obtain ⟨start, hread, hresolve⟩ : ∃ start,
          readStartTag (w ++ (TagEnd.opened.text ++ more)).length
            (w ++ (TagEnd.opened.text ++ more)) = .ok (start, .opened, more) ∧
          start.resolve [] = .ok tag :=
        readStartTag_append h (by simp) (by simp [TagEnd.text])
      obtain ⟨fuel, hfuel, hinside⟩ := hchildren.reads (more.length + 1) ⟨tag, []⟩ []
        ('<' :: '/' :: (closing ++ (g ++ '>' :: rest))) rfl
        (fun c hc => (Option.some.inj hc).symm) (by rw [hmore]; exact Nat.lt_succ_self _)
      simp only [List.length_cons, List.length_append] at hfuel
      obtain ⟨fuel, rfl⟩ : ∃ n, fuel = n + 1 := ⟨fuel - 1, by omega⟩
      rw [hmore, readContent_close hclosing hg, fill_close] at hinside
      unfold readRoot
      simp only [hread, hresolve, bind, Except.bind]
      exact hinside

end EdmxGen.Xml
