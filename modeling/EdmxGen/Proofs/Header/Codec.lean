import EdmxGen.Proofs.Header.Shield
import EdmxGen.Proofs.Moment
import EdmxGen.Proofs.Settings.Strings

/-!
# Settings in the text of a file

Whoever decodes a text that begins with anything but an opening marker and goes on with a header finds
the settings of that header, unless one of their strings holds the closing marker: then the settings
break off there, and nothing is decoded.
-/

namespace EdmxGen.Header

open Json Text

/-! ## The block of settings -/

theorem opening_chars : opening = ['#', 'O', 'D', 'A', 'T', 'A', 'T', 'O', 'O', 'L', 'S', 'O', 'P',
    'T', 'I', 'O', 'N', 'S'] := String.toList_ofList

theorem closing_chars : closing = ['#', 'O', 'D', 'A', 'T', 'A', 'T', 'O', 'O', 'L', 'S', 'O', 'P',
    'T', 'I', 'O', 'N', 'S', 'E', 'N', 'D'] := String.toList_ofList

theorem mark_closing : Mark closing := by
  rw [closing_chars]
  refine ⟨by decide, ?_⟩
  rw [← List.all_eq_true]
  decide

theorem eq_opening : ∃ cs, opening = '#' :: cs ∧ '#' ∉ cs := ⟨_, opening_chars, by decide⟩

theorem eq_closing : ∃ cs, closing = '#' :: cs ∧ '#' ∉ cs := ⟨_, closing_chars, by decide⟩

/-- What stands before the opening marker of a header. -/
def lead (created : Moment) : List Char := '/' :: (rule ++ banner ++ created.write ++ warning)

/-- What stands behind the closing marker of a header. -/
def tail : List Char := '\n' :: rule ++ ['/', '\n', '\n']

theorem encode_eq (settings : Json) (created : Moment) :
    encode settings created = lead created ++ opening ++ block settings ++ closing ++ tail := by
  simp only [encode, lead, tail, List.cons_append, List.append_assoc]

theorem plain_of_all {cs : List Char} (h : cs.all fun c => c != '#' && c != '*') :
    ∀ c ∈ (String.ofList cs).toList, c ≠ '#' ∧ c ≠ '*' := by simpa using h

/-- No marker and no end of a comment begins in the banner. -/
theorem plain_banner : ∀ c ∈ banner, c ≠ '#' ∧ c ≠ '*' := by
  unfold banner
  intro c h
  -- the pieces are looked at one by one, which takes less than their concatenation
  simp only [String.toList_append, List.mem_append] at h
  rcases h with (h | h) | h
  · exact plain_of_all (by decide) c h
  · exact plain_of_all (by decide) c h
  · exact plain_of_all (by decide) c h

theorem plain_warning : ∀ c ∈ warning, c ≠ '#' ∧ c ≠ '*' := plain_of_all (by decide)

theorem hash_not_mem_lead (created : Moment) : '#' ∉ lead created := by
  intro h
  have h : '#' ∈ ['/'] ++ (rule ++ banner ++ created.write ++ warning) := h
  simp only [List.mem_append] at h
  rcases h with h | ((h | h) | h) | h
  · exact absurd h (by decide)
  · exact absurd (List.eq_of_mem_replicate h) (by decide)
  · exact (plain_banner _ h).1 rfl
  · exact Moment.not_mem_write (by decide) created h
  · exact (plain_warning _ h).1 rfl

theorem not_infix_of_hash {t : List Char} (h : '#' ∉ t) : ¬ opening <:+: t := by
  obtain ⟨cs, hcs, -⟩ := eq_opening
  rw [hcs]
  exact fun hin => h (hin.subset List.mem_cons_self)

theorem not_infix_nil : ¬ opening <:+: [] := not_infix_of_hash List.not_mem_nil

/-- No opening marker stands before the one of a header, unless it stood in the text before it. -/
theorem not_infix_lead {p : List Char} (hp : ¬ opening <:+: p) (created : Moment) :
    ¬ opening <:+: p ++ lead created := by
  have hslash : '/' ∉ opening := by
    rw [opening_chars]
    decide
  have hlead : '#' ∉ lead created := hash_not_mem_lead created
  rw [lead, List.mem_cons, not_or] at hlead
  rw [lead, infix_append_cons_iff hslash, not_or]
  exact ⟨hp, not_infix_of_hash hlead.2⟩

/-- The block of a text is what stands between its first opening marker and the closing marker. -/
theorem block?_eq {p inner : List Char} (q : List Char) (hp : ¬ opening <:+: p)
    (hinner : ¬ closing <:+: inner) :
    block? (p ++ opening ++ (inner ++ closing ++ q)) = some inner := by
  obtain ⟨os, hos, hos'⟩ := eq_opening
  obtain ⟨cs, hcs, hcs'⟩ := eq_closing
  have hopen : cut? opening (p ++ opening ++ (inner ++ closing ++ q)) =
      some (p, inner ++ closing ++ q) := by
    rw [hos] at hp ⊢
    exact cut?_append hos' hp
  have hclose : cut? closing (inner ++ closing ++ q) = some (inner, q) := by
    rw [hcs] at hinner ⊢
    exact cut?_append hcs' hinner
  rw [block?, hopen]
  show (cut? closing (inner ++ closing ++ q)).bind (fun r => some r.1) = _
  rw [hclose]
  rfl

/-- A closing marker in what an opening marker precedes is where the block ends. -/
theorem block?_of_isInfix {p inner : List Char} (q : List Char) (hp : ¬ opening <:+: p)
    (hinner : closing <:+: inner) :
    ∃ a b, block? (p ++ opening ++ (inner ++ q)) = some a ∧ inner = a ++ closing ++ b := by
  obtain ⟨os, hos, hos'⟩ := eq_opening
  have hopen : cut? opening (p ++ opening ++ (inner ++ q)) = some (p, inner ++ q) := by
    rw [hos] at hp ⊢
    exact cut?_append hos' hp
  obtain ⟨a, b, hcut, hab⟩ := cut?_of_isInfix (q := q) hinner
  refine ⟨a, b, ?_, hab⟩
  rw [block?, hopen]
  show (cut? closing (inner ++ q)).bind (fun r => some r.1) = _
  rw [hcut]
  rfl

theorem spells_block (s : FileSettings) : Spells s.toJson (shield (s.toJson.pretty "\t")) := by
  have hindent : Gap "\t".toList := by
    intro c hc
    obtain rfl : c = '\t' := by simpa using hc
    rfl
  exact spells_shield (spells_pretty hindent s.plain_toJson)

theorem gap_break : Gap ['\n'] := by
  intro c hc
  rw [List.mem_singleton.1 hc]
  rfl

/-- A text of the object of settings reads as the settings, with any blanks around it. -/
theorem read_of_spells {s : FileSettings} {t ws ws' : List Char} (h : Spells s.toJson t)
    (hws : Gap ws) (hws' : Gap ws') : readWith FileSettings.read (ws ++ (t ++ ws')) = .ok s := by
  rw [readWith, Draft.ofText?_spells h hws hws']
  simp only [bind, Except.bind, s.read_ofJson]
  rfl

/-- The closing marker stands in a text of the object of settings only if a string of theirs holds
it. -/
theorem marked_of_infix {s : FileSettings} {t ws ws' : List Char} (h : Spells s.toJson t)
    (hws : Gap ws) (hws' : Gap ws') (hin : closing <:+: ws ++ (t ++ ws')) :
    ∃ u ∈ s.strings, closing <:+: u.toList := by
  have hin := mark_closing.infix_append (not_mem_gap hws rfl) hin
  rw [← FileSettings.marked_toJson mark_closing]
  exact exists_of_isInfix mark_closing h (mark_closing.infix_gap hws' hin)

theorem block_eq (settings : Json) :
    block settings = ['\n'] ++ (shield (settings.pretty "\t") ++ ['\n']) := rfl

/-- The block of written settings by itself reads as the settings. -/
theorem read_block (s : FileSettings) : readWith FileSettings.read (block s.toJson) = .ok s := by
  rw [block_eq]
  exact read_of_spells (spells_block s) gap_break gap_break

/-- The closing marker stands in the block of written settings if a string of theirs holds it. -/
theorem infix_block_iff (s : FileSettings) :
    closing <:+: block s.toJson ↔ ∃ t ∈ s.strings, closing <:+: t.toList := by
  rw [block_eq]
  constructor
  · exact marked_of_infix (spells_block s) gap_break gap_break
  · rw [← FileSettings.marked_toJson mark_closing]
    rintro ⟨t, ht, h⟩
    obtain ⟨cs, hcs, -⟩ := eq_closing
    have hshield : closing <:+: shield (s.toJson.pretty "\t") :=
      infix_shield (mark_closing.not_mem (by decide)) (by rw [hcs]; simp) (by rw [hcs]; simp)
        (infix_pretty mark_closing "\t" ht h)
    exact hshield.trans ⟨['\n'], ['\n'], rfl⟩

/-! ## Decoding -/

theorem decode_of_block? {text inner : List Char} (h : block? text = some inner) :
    decode text = (readWith FileSettings.read inner).mapError .headerDecode := by
  rw [decode, h]

theorem append_encode (settings : Json) (created : Moment) (p q : List Char) :
    p ++ encode settings created ++ q =
      p ++ lead created ++ opening ++ (block settings ++ closing ++ (tail ++ q)) := by
  rw [encode_eq]
  simp only [List.append_assoc]

/-- Settings without a closing marker in their strings are decoded. -/
theorem decode_of_not_marked {s : FileSettings} (created : Moment) {p : List Char} (q : List Char)
    (hp : ¬ opening <:+: p) (hs : ∀ t ∈ s.strings, ¬ closing <:+: t.toList) :
    decode (p ++ encode s.toJson created ++ q) = .ok s := by
  have hblock : ¬ closing <:+: block s.toJson := by
    rw [infix_block_iff]
    rintro ⟨t, ht, h⟩
    exact hs t ht h
  rw [append_encode, decode_of_block? (block?_eq _ (not_infix_lead hp created) hblock), read_block]
  rfl

/-- Settings with a closing marker in one of their strings break off. -/
theorem decode_of_marked {s : FileSettings} (created : Moment) {p : List Char} (q : List Char)
    (hp : ¬ opening <:+: p) {t : String} (ht : t ∈ s.strings) (h : closing <:+: t.toList) :
    decode (p ++ encode s.toJson created ++ q) = .error (.headerDecode .ended) := by
  have hblock : closing <:+: block s.toJson := (infix_block_iff s).2 ⟨t, ht, h⟩
  rw [append_encode, List.append_assoc (block s.toJson)]
  obtain ⟨a, b, hinner, hab⟩ := block?_of_isInfix (closing ++ (tail ++ q))
    (not_infix_lead hp created) hblock
  rw [decode_of_block? hinner]
  -- the block begins with a line break, and what follows it is a part of the written settings
  obtain ⟨cs, hcs, -⟩ := eq_closing
  have hbreak : '\n' :: (shield (s.toJson.pretty "\t") ++ ['\n']) = a ++ (closing ++ b) := by
    rw [← List.append_assoc, ← hab, block]
    rfl
  cases a with
  | nil => rw [hcs] at hbreak; simp at hbreak
  | cons c r =>
    obtain ⟨rfl, hrest⟩ := List.cons.inj hbreak
    rcases split_append hrest with ⟨x, hx, hne⟩ | ⟨x, -, hx⟩
    · obtain ⟨d, hd, htorn⟩ := Draft.ofText?_torn (spells_block s) gap_break hx hne (by
        intro n hn
        simp [FileSettings.toJson] at hn)
      rw [← List.singleton_append, readWith, hd]
      simp only [bind, Except.bind, FileSettings.read_torn htorn]
      rfl
    · have hlen := congrArg List.length hx
      have hclosing : closing.length = 21 := by rw [closing_chars]; rfl
      simp only [List.length_append, List.length_cons, List.length_nil, hclosing] at hlen
      omega

/-- A text that begins with anything but an opening marker and goes on with the header of settings
decodes to them, whatever follows, unless one of their strings holds the closing marker: then the
settings are found to end too early. Plain settings decode to those of a file without a template. -/
theorem decode_append_encode (created : Moment) {p : List Char} (q : List Char)
    (hp : ¬ opening <:+: p) :
    (∀ s : FileSettings,
      ((∀ t ∈ s.strings, ¬ closing <:+: t.toList) →
        decode (p ++ encode s.toJson created ++ q) = .ok s) ∧
      ((∃ t ∈ s.strings, closing <:+: t.toList) →
        decode (p ++ encode s.toJson created ++ q) = .error (.headerDecode .ended))) ∧
    ∀ g : ServiceSettings,
      ((∀ t ∈ g.strings, ¬ closing <:+: t.toList) →
        decode (p ++ encode g.toJson created ++ q) = .ok ⟨g, none⟩) ∧
      ((∃ t ∈ g.strings, closing <:+: t.toList) →
        decode (p ++ encode g.toJson created ++ q) = .error (.headerDecode .ended)) := by
  have hfile : ∀ s : FileSettings,
      ((∀ t ∈ s.strings, ¬ closing <:+: t.toList) →
        decode (p ++ encode s.toJson created ++ q) = .ok s) ∧
      ((∃ t ∈ s.strings, closing <:+: t.toList) →
        decode (p ++ encode s.toJson created ++ q) = .error (.headerDecode .ended)) :=
    fun s => ⟨decode_of_not_marked created q hp, fun ⟨_, ht, h⟩ => decode_of_marked created q hp ht h⟩
  refine ⟨hfile, fun g => ?_⟩
  have hstrings : (FileSettings.mk g none).strings = g.strings := List.append_nil _
  have := hfile ⟨g, none⟩
  rwa [hstrings, ← ServiceSettings.toJson_eq] at this

theorem decode_append_encode_address :
    decode ("//\n".toList ++
        encode (FileSettings.toJson ⟨⟨"http://h/*/\"", .modular, {}⟩, some "A.ot"⟩) ⟨0, 0⟩ ++
        closing) = .ok ⟨⟨"http://h/*/\"", .modular, {}⟩, some "A.ot"⟩ ∧
      decode ("//\n".toList ++
        encode (FileSettings.toJson ⟨⟨"http://h/#ODATATOOLSOPTIONSEND", .modular, {}⟩, none⟩) ⟨0, 0⟩ ++
        closing) = .error (.headerDecode .ended) := by
  have h := decode_append_encode ⟨0, 0⟩ closing (by decide +kernel : ¬ opening <:+: "//\n".toList)
  refine ⟨(h.1 _).1 ?_, (h.1 _).2 ?_⟩
  · decide +kernel
  · exact ⟨"http://h/#ODATATOOLSOPTIONSEND", List.mem_cons_self, by decide +kernel⟩

end EdmxGen.Header
