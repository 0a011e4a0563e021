import EdmxGen.Proofs.Header.Codec

/-!
# The first block of a text

The opening marker begins the closing one, so a closing marker that stands alone opens a block, and
the markers of a text can pair up in many ways. Decoding takes the pair that begins first and of
these the one that ends first (`FirstBlock`). It finds a block whenever there is a pair at all
(`block?_eq_none_iff`), and looks neither before nor behind it.
-/

namespace EdmxGen.Header

open Json Text

/-- A text in which a block stands between two markers. -/
def holding (a b c : List Char) : List Char := a ++ opening ++ b ++ closing ++ c

/-- The parts of a text around its first block and the block itself. -/
structure FirstBlock (text a b c : List Char) : Prop where
  parts : text = holding a b c
  first : ∀ a' b' c', text = holding a' b' c' → a.length ≤ a'.length
  shortest : ∀ b' c', text = holding a b' c' → b.length ≤ b'.length

variable {text a b c : List Char}

theorem holding_eq (a b c : List Char) :
    holding a b c = a ++ opening ++ (b ++ closing ++ c) := by
  simp only [holding, List.append_assoc]

/-! ## What stands in a first block and before it -/

theorem FirstBlock.not_opening (h : FirstBlock text a b c) : ¬ opening <:+: a := by
  rintro ⟨x, y, rfl⟩
  have hx := h.first x (y ++ opening ++ b) c (by
    rw [h.parts]
    simp only [holding, List.append_assoc])
  obtain ⟨os, hos, -⟩ := eq_opening
  simp only [hos, List.length_append, List.length_cons] at hx
  omega

theorem FirstBlock.not_closing (h : FirstBlock text a b c) : ¬ closing <:+: b := by
  rintro ⟨x, y, rfl⟩
  have hx := h.shortest x (y ++ closing ++ c) (by
    rw [h.parts]
    simp only [holding, List.append_assoc])
  obtain ⟨cs, hcs, -⟩ := eq_closing
  simp only [hcs, List.length_append, List.length_cons] at hx
  omega

/-- The first block is found, whatever follows it. -/
theorem FirstBlock.block?_eq (h : FirstBlock text a b c) (q : List Char) :
    block? (holding a b q) = some b := by
  rw [holding_eq]
  exact Header.block?_eq q h.not_opening h.not_closing

/-! ## Which texts have one -/

theorem firstBlock_of_cut? {rest : List Char} (hopen : cut? opening text = some (a, rest))
    (hclose : cut? closing rest = some (b, c)) : FirstBlock text a b c where
  parts := by rw [eq_append_of_cut? hopen, eq_append_of_cut? hclose, holding_eq]
  first a' b' c' h := length_le_of_cut? hopen (h.trans (holding_eq a' b' c'))
  shortest b' c' h := by
    rw [eq_append_of_cut? hopen, holding_eq] at h
    exact length_le_of_cut? hclose (List.append_cancel_left h)

/-- What holds no opening marker, and then what holds no closing marker, are as short as can be. -/
theorem firstBlock_holding (c : List Char) (ha : ¬ opening <:+: a) (hb : ¬ closing <:+: b) :
    FirstBlock (holding a b c) a b c := by
  obtain ⟨os, hos, hos'⟩ := eq_opening
  obtain ⟨cs, hcs, hcs'⟩ := eq_closing
  rw [holding_eq]
  have hopen : cut? opening (a ++ opening ++ (b ++ closing ++ c)) =
      some (a, b ++ closing ++ c) := by
    rw [hos] at ha ⊢
    exact cut?_append hos' ha
  have hclose : cut? closing (b ++ closing ++ c) = some (b, c) := by
    rw [hcs] at hb ⊢
    exact cut?_append hcs' hb
  exact firstBlock_of_cut? hopen hclose

/-- A text with an opening marker and a closing marker behind it has a first block. -/
theorem exists_firstBlock (h : text = holding a b c) : ∃ a b c, FirstBlock text a b c := by
  rw [holding_eq] at h
  cases hopen : cut? opening text with
  | none => exact absurd ⟨a, _, h.symm⟩ (cut?_eq_none_iff.1 hopen)
  | some parts =>
    -- the first opening marker stands no later than the given one, so the closing marker follows it
    have hbehind : b ++ closing ++ c <:+ parts.2 := by
      have hfirst := length_le_of_cut? hopen h
      have heq := eq_append_of_cut? hopen
      refine List.suffix_of_suffix_length_le ⟨_, h.symm⟩ ⟨_, heq.symm⟩ ?_
      have hlen := congrArg List.length (h.symm.trans heq)
      simp only [List.length_append] at hlen hfirst ⊢
      omega
    cases hclose : cut? closing parts.2 with
    | none => exact absurd (.trans ⟨b, c, rfl⟩ hbehind.isInfix) (cut?_eq_none_iff.1 hclose)
    | some ends => exact ⟨parts.1, ends.1, ends.2, firstBlock_of_cut? hopen hclose⟩

theorem block?_eq_none_iff : block? text = none ↔ ¬ ∃ a b c, text = holding a b c := by
  constructor
  · rintro h ⟨a, b, c, heq⟩
    obtain ⟨a', b', c', hfirst⟩ := exists_firstBlock heq
    rw [hfirst.parts, hfirst.block?_eq c'] at h
    exact absurd h (by simp)
  · intro h
    rw [Option.eq_none_iff_forall_ne_some]
    intro inner hinner
    apply h
    obtain ⟨⟨a, rest⟩, hopen, hinner⟩ := Option.bind_eq_some_iff.1 hinner
    obtain ⟨⟨b, c⟩, hclose, -⟩ := Option.bind_eq_some_iff.1 hinner
    exact ⟨a, b, c, (firstBlock_of_cut? hopen hclose).parts⟩

/-! ## Decoding -/

theorem decode_eq_noHeader_iff :
    decode text = .error .noHeader ↔ ¬ ∃ a b c, text = holding a b c := by
  rw [← block?_eq_none_iff, decode]
  cases block? text with
  | none => simp
  | some inner =>
    show (readWith FileSettings.read inner).mapError Failure.headerDecode = _ ↔ _
    cases readWith FileSettings.read inner <;> simp [Except.mapError]

/-- Decoding finds no header in a text that cannot be divided at an opening marker and a closing
marker behind it. Any other text has a first block. It decodes to the settings which that block
holds by itself, or fails as reading the block does, and what follows the closing marker does not
matter. -/
theorem decode_first (text : List Char) :
    (decode text = .error .noHeader ↔ ¬ ∃ a b c, text = holding a b c) ∧
      ((∃ a b c, text = holding a b c) → ∃ a b c, FirstBlock text a b c) ∧
      ∀ a b c, FirstBlock text a b c →
        (∀ s, readWith FileSettings.read b = .ok s → decode text = .ok s) ∧
        (∀ f, readWith FileSettings.read b = .error f → decode text = .error (.headerDecode f)) ∧
        ∀ q, decode (holding a b q) = decode text := by
  refine ⟨decode_eq_noHeader_iff, fun ⟨_, _, _, h⟩ => exists_firstBlock h, ?_⟩
  intro a b c h
  have hdecode : ∀ q, decode (holding a b q) =
      (readWith FileSettings.read b).mapError .headerDecode :=
    fun q => decode_of_block? (h.block?_eq q)
  have htext := hdecode c
  rw [← h.parts] at htext
  refine ⟨?_, ?_, ?_⟩
  · intro s hs
    rw [htext, hs]
    rfl
  · intro f hf
    rw [htext, hf]
    rfl
  · intro q
    rw [hdecode q, htext]

/-- A closing marker alone holds no block, and before another one it opens a block that is not JSON.
A block of settings is read whatever follows it. -/
theorem decode_first_stray :
    decode closing = .error .noHeader ∧
      decode (holding [] ['E', 'N', 'D'] closing) = .error (.headerDecode .malformed) ∧
      ∀ q, decode (holding [] (block (FileSettings.toJson ⟨⟨"s", .modular, {}⟩, none⟩)) q) =
        .ok ⟨⟨"s", .modular, {}⟩, none⟩ := by
  refine ⟨(decode_first closing).1.2 ?_, ?_, ?_⟩
  · rw [← block?_eq_none_iff]
    decide +kernel
  · have hend : ¬ closing <:+: ['E', 'N', 'D'] := by decide +kernel
    have hfirst := firstBlock_holding closing not_infix_nil hend
    exact ((decode_first _).2.2 _ _ _ hfirst).2.1 _ rfl
  · intro q
    have hblock : ¬ closing <:+: block (FileSettings.toJson ⟨⟨"s", .modular, {}⟩, none⟩) := by
      rw [infix_block_iff]
      decide +kernel
    have hfirst := firstBlock_holding q not_infix_nil hblock
    exact ((decode_first _).2.2 _ _ _ hfirst).1 _ (read_block _)

end EdmxGen.Header
