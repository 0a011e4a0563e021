import EdmxGen.Proofs.Header.Codec

/-!
# Headers with other line ends

Programs that move files between systems put a carriage return before every line feed. Written
settings survive this (`decode_crlf`), since a string keeps its line ends escaped: in a text of a
value control characters stand between tokens only, where one blank is as good as another
(`spells_respaced`).
-/

namespace EdmxGen.Header

open Json Text

/-! ## Texts without control characters -/

/-- No control character stands in the text. -/
def Visible (t : List Char) : Prop := ∀ c ∈ t, 0x20 ≤ c.toNat

instance (t : List Char) : Decidable (Visible t) :=
  decidable_of_iff (t.all fun c => 0x20 ≤ c.toNat) (by simp [Visible])

theorem visible_cons {c : Char} {t : List Char} :
    Visible (c :: t) ↔ 0x20 ≤ c.toNat ∧ Visible t := List.forall_mem_cons

theorem inEscape_control {c : Char} (h : c.toNat < 0x20) : inEscape c = false := by
  have hall : ∀ n : Fin 0x20, inEscape (Char.ofNat n.val) = false := by decide
  have hc := hall ⟨c.toNat, h⟩
  rwa [Char.ofNat_toNat] at hc

theorem visible_letter {c : Char} {p : List Char} (h : Letter c p) : Visible p := by
  intro d hd
  by_contra hlow
  rcases h.eq_or_not_mem (inEscape_control (Nat.lt_of_not_le hlow)) with heq | hmem
  · rw [heq, List.mem_singleton] at hd
    cases h with
    | raw hc _ _ => exact hlow (hd ▸ hc)
    | short _ => simp at heq
    | unicode _ _ _ => simp at heq
  · exact hmem hd

theorem visible_literal {cs t : List Char} (h : Literal cs t) : Visible t := by
  induction h with
  | close => exact visible_cons.2 ⟨by decide, List.forall_mem_nil _⟩
  | letter hp _ ih => exact List.forall_mem_append.2 ⟨visible_letter hp, ih⟩

theorem visible_decimal (n : Nat) : Visible (decimal n) := by
  intro c hc
  have hdigit := isDigit_of_mem_decimal hc
  simp only [isDigit, Bool.and_eq_true, decide_eq_true_eq] at hdigit
  exact Nat.le_trans (by decide) hdigit.1

/-! ## Other blanks -/

/-- A replacement of characters keeps those that are visible, and puts blanks in the place of a
control character that it does not keep. -/
structure Respaces (f : Char → List Char) : Prop where
  visible : ∀ c, 0x20 ≤ c.toNat → f c = [c]
  control : ∀ c, c.toNat < 0x20 → f c = [c] ∨ Gap (f c)

section

variable {f : Char → List Char} (hf : Respaces f)

include hf

theorem Respaces.eq_or_gap (c : Char) : f c = [c] ∨ Gap (f c) := by
  rcases Nat.lt_or_ge c.toNat 0x20 with h | h
  · exact hf.control c h
  · exact Or.inl (hf.visible c h)

theorem Respaces.flatMap_visible {t : List Char} (h : Visible t) : t.flatMap f = t := by
  induction t with
  | nil => rfl
  | cons c cs ih =>
    obtain ⟨hc, hcs⟩ := visible_cons.1 h
    rw [List.flatMap_cons, hf.visible c hc, ih hcs, List.singleton_append]

theorem Respaces.flatMap_cons {c : Char} (h : 0x20 ≤ c.toNat) (t : List Char) :
    (c :: t).flatMap f = c :: t.flatMap f := by
  rw [List.flatMap_cons, hf.visible c h, List.singleton_append]

theorem Respaces.flatMap_singleton {c : Char} (h : 0x20 ≤ c.toNat) : [c].flatMap f = [c] :=
  hf.flatMap_cons h []

theorem Respaces.gap {ws : List Char} (h : Gap ws) : Gap (ws.flatMap f) := by
  intro d hd
  obtain ⟨c, hc, hd⟩ := List.mem_flatMap.1 hd
  rcases hf.eq_or_gap c with heq | hgap
  · rw [heq, List.mem_singleton] at hd
    rw [hd]
    exact h c hc
  · exact hgap d hd

/-- What is no blank comes from itself. -/
theorem Respaces.mem_of_mem_flatMap {t : List Char} {c : Char} (hc : isSpace c = false)
    (h : c ∈ t.flatMap f) : c ∈ t := by
  obtain ⟨d, hd, h⟩ := List.mem_flatMap.1 h
  rcases hf.eq_or_gap d with heq | hgap
  · rw [heq, List.mem_singleton] at h
    rwa [h]
  · exact absurd h (not_mem_gap hgap hc)

theorem key_respaced {k : String} {h : List Char} (hk : Key k h) : Key k (h.flatMap f) := by
  obtain ⟨l, ws, hl, hws, rfl⟩ := hk
  refine ⟨l, ws.flatMap f, hl, hf.gap hws, ?_⟩
  rw [hf.flatMap_cons (by decide), List.flatMap_append, List.flatMap_append,
    hf.flatMap_visible (visible_literal hl), hf.flatMap_singleton (by decide)]

mutual

/-- With other blanks a text of a value remains one. -/
theorem spells_respaced : ∀ {v : Json} {t : List Char}, Spells v t → Spells v (t.flatMap f)
  | _, _, .null => by
    rw [hf.flatMap_visible (by decide)]
    exact Spells.null
  | _, _, .yes => by
    rw [hf.flatMap_visible (by decide)]
    exact Spells.yes
  | _, _, .no => by
    rw [hf.flatMap_visible (by decide)]
    exact Spells.no
  | _, _, .num => by
    rw [hf.flatMap_visible (visible_decimal _)]
    exact Spells.num
  | _, _, .str h => by
    rw [hf.flatMap_cons (by decide), hf.flatMap_visible (visible_literal h)]
    exact Spells.str h
  | _, _, .noItems hws => by
    rw [hf.flatMap_cons (by decide), List.flatMap_append, hf.flatMap_singleton (by decide)]
    exact Spells.noItems (hf.gap hws)
  | _, _, .arr hws hs => by
    rw [hf.flatMap_cons (by decide), List.flatMap_append]
    exact Spells.arr (hf.gap hws) (spellsItems_respaced hs)
  | _, _, .noMembers hws => by
    rw [hf.flatMap_cons (by decide), List.flatMap_append, hf.flatMap_singleton (by decide)]
    exact Spells.noMembers (hf.gap hws)
  | _, _, .obj hws hs => by
    rw [hf.flatMap_cons (by decide), List.flatMap_append]
    exact Spells.obj (hf.gap hws) (spellsMembers_respaced hs)

theorem spellsItems_respaced : ∀ {vs : List Json} {t : List Char}, SpellsItems vs t →
    SpellsItems vs (t.flatMap f)
  | _, _, .last h hws => by
    rw [List.flatMap_append, List.flatMap_append, hf.flatMap_singleton (by decide)]
    exact SpellsItems.last (spells_respaced h) (hf.gap hws)
  | _, _, .next h hws hws' hs => by
    rw [List.flatMap_append, List.flatMap_append, hf.flatMap_cons (by decide), List.flatMap_append]
    exact SpellsItems.next (spells_respaced h) (hf.gap hws) (hf.gap hws') (spellsItems_respaced hs)

theorem spellsMembers_respaced : ∀ {ms : List (String × Json)} {t : List Char},
    SpellsMembers ms t → SpellsMembers ms (t.flatMap f)
  | _, _, .last hk hws' h hws => by
    simp only [List.flatMap_append, hf.flatMap_singleton (by decide : 0x20 ≤ '\x7d'.toNat)]
    exact SpellsMembers.last (key_respaced hf hk) (hf.gap hws') (spells_respaced h) (hf.gap hws)
  | _, _, .next hk hws' h hws hws'' hs => by
    simp only [List.flatMap_append, hf.flatMap_cons (by decide : 0x20 ≤ ','.toNat)]
    exact SpellsMembers.next (key_respaced hf hk) (hf.gap hws') (spells_respaced h) (hf.gap hws)
      (hf.gap hws'') (spellsMembers_respaced hs)

end

end

/-! ## Files -/

theorem visible_opening : Visible opening := by
  rw [opening_chars]
  decide

theorem visible_closing : Visible closing := by
  rw [closing_chars]
  decide

theorem flatMap_block {f : Char → List Char} (settings : Json) :
    (block settings).flatMap f =
      f '\n' ++ ((shield (settings.pretty "\t")).flatMap f ++ f '\n') := by
  rw [block_eq, List.flatMap_append, List.flatMap_append, List.flatMap_singleton]

/-- A file with other blanks and control characters decodes to its settings. -/
theorem decode_respaced {f : Char → List Char} (hf : Respaces f) {s : FileSettings}
    (hs : ∀ t ∈ s.strings, ¬ closing <:+: t.toList) (created : Moment) (body : List Char) :
    decode ((encode s.toJson created ++ body).flatMap f) = .ok s := by
  have hspells := spells_respaced hf (spells_block s)
  have hbreak : Gap (f '\n') := by
    have h := hf.gap gap_break
    rwa [List.flatMap_singleton] at h
  have hopening : ¬ opening <:+: (lead created).flatMap f :=
    not_infix_of_hash fun h => hash_not_mem_lead created (hf.mem_of_mem_flatMap rfl h)
  have hclosing : ¬ closing <:+: (block s.toJson).flatMap f := by
    rw [flatMap_block]
    intro h
    obtain ⟨t, ht, hin⟩ := marked_of_infix hspells hbreak hbreak h
    exact hs t ht hin
  have hparts : (encode s.toJson created ++ body).flatMap f = (lead created).flatMap f ++ opening ++
      ((block s.toJson).flatMap f ++ closing ++ (tail ++ body).flatMap f) := by
    rw [encode_eq]
    simp only [List.flatMap_append, hf.flatMap_visible visible_opening,
      hf.flatMap_visible visible_closing, List.append_assoc]
  rw [hparts, decode_of_block? (block?_eq _ hopening hclosing), flatMap_block,
    read_of_spells hspells hbreak hbreak]
  rfl

/-- The text in which every line feed has a carriage return before it. -/
def crlf (t : List Char) : List Char := t.flatMap fun c => if c = '\n' then ['\r', '\n'] else [c]

example : crlf ['a', '\n', '\r', '\n', 'b'] = ['a', '\r', '\n', '\r', '\r', '\n', 'b'] := by decide

theorem gap_crlf : Gap ['\r', '\n'] := by
  intro c hc
  simp only [List.mem_cons, List.not_mem_nil, or_false] at hc
  rcases hc with rfl | rfl <;> rfl

theorem respaces_crlf : Respaces fun c => if c = '\n' then ['\r', '\n'] else [c] where
  visible c h := if_neg (by rintro rfl; exact absurd h (by decide))
  control c _ := by
    by_cases hc : c = '\n'
    · rw [if_pos hc]
      exact Or.inr gap_crlf
    · exact Or.inl (if_neg hc)

/-- A file whose line ends have been converted decodes to the settings in its header, unless a
string of theirs holds the closing marker. -/
theorem decode_crlf {s : FileSettings} (hs : ∀ t ∈ s.strings, ¬ closing <:+: t.toList)
    (created : Moment) (body : List Char) :
    decode (crlf (encode s.toJson created ++ body)) = .ok s :=
  decode_respaced respaces_crlf hs created body

/-- Line ends in an address and in the name of a template are not taken for those of the file. -/
theorem decode_crlf_lines :
    decode (crlf (encode (FileSettings.toJson ⟨⟨"http://h/\r\n\n", .modular, {}⟩, some "\n.ot"⟩)
      ⟨0, 0⟩ ++ "type A = 1;\n".toList)) = .ok ⟨⟨"http://h/\r\n\n", .modular, {}⟩, some "\n.ot"⟩ :=
  decode_crlf (by decide +kernel) _ _

end EdmxGen.Header
