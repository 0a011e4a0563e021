import EdmxGen.Json.Draft
import EdmxGen.Json.Printer
import EdmxGen.Proofs.Text.Digits

/-!
# Texts of JSON values

`Spells v t` says that `t` is a text of the value `v`: blanks may stand between any two tokens, and a
character of a string may stand for itself or be escaped in one of several ways. Numbers are natural.
The indented form of a value is one of its texts (`spells_pretty`).
-/

namespace EdmxGen.Json

open Text

/-! ## Values -/

mutual

/-- All numbers in a value are natural. -/
def Plain : Json → Prop
  | .num (.natural _) => True
  | .num _ => False
  | .arr vs => PlainItems vs
  | .obj ms => PlainMembers ms
  | _ => True

def PlainItems : List Json → Prop
  | [] => True
  | v :: vs => Plain v ∧ PlainItems vs

def PlainMembers : List (String × Json) → Prop
  | [] => True
  | m :: ms => Plain m.2 ∧ PlainMembers ms

end

mutual

/-- The strings in a value, keys included. -/
def texts : Json → List String
  | .str s => [s]
  | .arr vs => textsOfItems vs
  | .obj ms => textsOfMembers ms
  | _ => []

def textsOfItems : List Json → List String
  | [] => []
  | v :: vs => texts v ++ textsOfItems vs

def textsOfMembers : List (String × Json) → List String
  | [] => []
  | m :: ms => m.1 :: texts m.2 ++ textsOfMembers ms

end

mutual

/-- How many arrays and objects of a value lie within each other. -/
def depth : Json → Nat
  | .arr vs => depthOfItems vs + 1
  | .obj ms => depthOfMembers ms + 1
  | _ => 0

def depthOfItems : List Json → Nat
  | [] => 0
  | v :: vs => max (depth v) (depthOfItems vs)

def depthOfMembers : List (String × Json) → Nat
  | [] => 0
  | m :: ms => max (depth m.2) (depthOfMembers ms)

end

theorem plainItems_map {α : Type} {f : α → Json} (h : ∀ a, Plain (f a)) (as : List α) :
    PlainItems (as.map f) := by
  induction as with
  | nil => trivial
  | cons a as ih => exact ⟨h a, ih⟩

theorem plainMembers_map {α : Type} {f : α → String × Json} (h : ∀ a, Plain (f a).2)
    (as : List α) : PlainMembers (as.map f) := by
  induction as with
  | nil => trivial
  | cons a as ih => exact ⟨h a, ih⟩

theorem plainMembers_append {ms ns : List (String × Json)} :
    PlainMembers (ms ++ ns) ↔ PlainMembers ms ∧ PlainMembers ns := by
  induction ms with
  | nil => simp [PlainMembers]
  | cons m ms ih => simp [PlainMembers, ih, and_assoc]

theorem textsOfMembers_append (ms ns : List (String × Json)) :
    textsOfMembers (ms ++ ns) = textsOfMembers ms ++ textsOfMembers ns := by
  induction ms with
  | nil => rfl
  | cons m ms ih => simp [textsOfMembers, ih]

/-! ## The grammar -/

/-- Blanks between tokens. -/
def Gap (ws : List Char) : Prop := ∀ c ∈ ws, isSpace c = true

/-- The spellings of one character of a string. -/
inductive Letter : Char → List Char → Prop
  | raw {c : Char} : 0x20 ≤ c.toNat → c ≠ '"' → c ≠ '\\' → Letter c [c]
  | short {c e : Char} : unescape? e = some c → Letter c ['\\', e]
  | unicode {a b c d : Char} {n : Nat} : hex4? a b c d = some n → isLeading n = false →
      isTrailing n = false → Letter (Char.ofNat n) ['\\', 'u', a, b, c, d]

/-- The texts of a string after its opening quote. -/
inductive Literal : List Char → List Char → Prop
  | close : Literal [] ['"']
  | letter {c : Char} {cs p t : List Char} : Letter c p → Literal cs t → Literal (c :: cs) (p ++ t)

/-- The texts of a key, up to where its value or blanks before the value begin. -/
def Key (k : String) (t : List Char) : Prop :=
  ∃ l ws, Literal k.toList l ∧ Gap ws ∧ t = '"' :: (l ++ (ws ++ [':']))

mutual

/-- The texts of a value. -/
inductive Spells : Json → List Char → Prop
  | null : Spells .null ['n', 'u', 'l', 'l']
  | yes : Spells (.bool true) ['t', 'r', 'u', 'e']
  | no : Spells (.bool false) ['f', 'a', 'l', 's', 'e']
  | num {n : UInt64} : Spells (.num (.natural n)) (decimal n.toNat)
  | str {s : String} {t : List Char} : Literal s.toList t → Spells (.str s) ('"' :: t)
  | noItems {ws : List Char} : Gap ws → Spells (.arr []) ('[' :: (ws ++ [']']))
  | arr {v : Json} {vs : List Json} {ws t : List Char} : Gap ws → SpellsItems (v :: vs) t →
      Spells (.arr (v :: vs)) ('[' :: (ws ++ t))
  | noMembers {ws : List Char} : Gap ws → Spells (.obj []) ('\x7b' :: (ws ++ ['\x7d']))
  | obj {m : String × Json} {ms : List (String × Json)} {ws t : List Char} : Gap ws →
      SpellsMembers (m :: ms) t → Spells (.obj (m :: ms)) ('\x7b' :: (ws ++ t))

/-- The texts of items and the end of their array. -/
inductive SpellsItems : List Json → List Char → Prop
  | last {v : Json} {t ws : List Char} : Spells v t → Gap ws →
      SpellsItems [v] (t ++ (ws ++ [']']))
  | next {v : Json} {vs : List Json} {t ws ws' r : List Char} : Spells v t → Gap ws → Gap ws' →
      SpellsItems vs r → SpellsItems (v :: vs) (t ++ (ws ++ ',' :: (ws' ++ r)))

/-- The texts of members and the end of their object. -/
inductive SpellsMembers : List (String × Json) → List Char → Prop
  | last {k : String} {v : Json} {h ws' t ws : List Char} : Key k h → Gap ws' → Spells v t →
      Gap ws → SpellsMembers [(k, v)] (h ++ (ws' ++ (t ++ (ws ++ ['\x7d']))))
  | next {k : String} {v : Json} {ms : List (String × Json)} {h ws' t ws ws'' r : List Char} :
      Key k h → Gap ws' → Spells v t → Gap ws → Gap ws'' → SpellsMembers ms r →
      SpellsMembers ((k, v) :: ms) (h ++ (ws' ++ (t ++ (ws ++ ',' :: (ws'' ++ r)))))

end

theorem gap_nil : Gap [] := by intro c hc; simp at hc

/-! ## Escapes -/

/-- A character that can stand in an escape. -/
def inEscape (c : Char) : Bool :=
  c == '\\' || c == 'u' || (unescape? c).isSome || (hexValue? c).isSome

/-- A character is spelled by itself or without the characters that no escape has. -/
theorem Letter.eq_or_not_mem {c : Char} {p : List Char} (h : Letter c p) {d : Char}
    (hd : inEscape d = false) : p = [c] ∨ d ∉ p := by
  simp only [inEscape, Bool.or_eq_false_iff, beq_eq_false_iff_ne, Option.isSome_eq_false_iff,
    Option.isNone_iff_eq_none] at hd
  obtain ⟨⟨⟨hback, hu⟩, hshort⟩, hhex⟩ := hd
  cases h with
  | raw _ _ _ => exact Or.inl rfl
  | @short _ e he =>
    right
    have : d ≠ e := by rintro rfl; simp [hshort] at he
    simp [hback, this]
  | @unicode a b c' d' n hn _ _ =>
    right
    have hne : ∀ e x, hexValue? e = some x → d ≠ e := by rintro e x he rfl; simp [hhex] at he
    simp only [hex4?, Option.bind_eq_bind, Option.bind_eq_some_iff] at hn
    obtain ⟨_, ha, _, hb, _, hc, _, hd, -⟩ := hn
    simp [hback, hu, hne a _ ha, hne b _ hb, hne c' _ hc, hne d' _ hd]

/-! ## How texts begin -/

/-- A text of a value begins with neither a blank nor a closing bracket. -/
def Opens (t : List Char) : Prop :=
  ∃ c cs, t = c :: cs ∧ isSpace c = false ∧ c ≠ ']' ∧ c ≠ '\x7d'

theorem Opens.append {t : List Char} (h : Opens t) (r : List Char) : Opens (t ++ r) := by
  obtain ⟨c, cs, rfl, hc⟩ := h
  exact ⟨c, cs ++ r, rfl, hc⟩

theorem Opens.not_closing {t : List Char} (h : Opens t) (cs : List Char) : t ≠ ']' :: cs := by
  obtain ⟨c, _, rfl, -, hc, -⟩ := h
  exact fun heq => hc (List.cons.inj heq).1

theorem opens_decimal (n : Nat) : Opens (decimal n) := by
  cases h : decimal n with
  | nil => exact absurd h (decimal_ne_nil n)
  | cons c cs =>
    have hc : isDigit c = true := isDigit_of_mem_decimal (n := n) (by rw [h]; exact List.mem_cons_self)
    refine ⟨c, cs, rfl, ?_, ?_, ?_⟩
    · rw [Bool.eq_false_iff]
      intro hs
      simp only [isSpace, Bool.or_eq_true, beq_iff_eq] at hs
      rcases hs with ((rfl | rfl) | rfl) | rfl <;> exact absurd hc (by decide)
    · rintro rfl; exact absurd hc (by decide)
    · rintro rfl; exact absurd hc (by decide)

theorem Spells.opens {v : Json} {t : List Char} (h : Spells v t) : Opens t := by
  cases h with
  | num => exact opens_decimal _
  | null | yes | no | str _ | noItems _ | arr _ _ | noMembers _ | obj _ _ =>
    exact ⟨_, _, rfl, by decide, by decide, by decide⟩

theorem SpellsItems.opens {vs : List Json} {t : List Char} (h : SpellsItems vs t) : Opens t := by
  cases h with
  | last h _ => exact h.opens.append _
  | next h _ _ _ => exact h.opens.append _

theorem Key.eq_cons {k : String} {h : List Char} (hk : Key k h) : ∃ t, h = '"' :: t := by
  obtain ⟨l, ws, -, -, rfl⟩ := hk
  exact ⟨_, rfl⟩

theorem SpellsMembers.eq_cons {ms : List (String × Json)} {t : List Char}
    (h : SpellsMembers ms t) : ∃ r, t = '"' :: r := by
  cases h with
  | last hk _ _ _ =>
    obtain ⟨r, rfl⟩ := hk.eq_cons
    exact ⟨_, rfl⟩
  | next hk _ _ _ _ _ =>
    obtain ⟨r, rfl⟩ := hk.eq_cons
    exact ⟨_, rfl⟩

theorem SpellsMembers.opens {ms : List (String × Json)} {t : List Char}
    (h : SpellsMembers ms t) : Opens t := by
  obtain ⟨r, rfl⟩ := h.eq_cons
  exact ⟨_, _, rfl, by decide, by decide, by decide⟩

/-! ## The indented form -/

theorem gap_newLine {indent : List Char} (h : Gap indent) (depth : Nat) :
    Gap (newLine indent depth) := by
  intro c hc
  rcases List.mem_cons.1 hc with rfl | hc
  · rfl
  · obtain ⟨ws, hws, hc⟩ := List.mem_flatten.1 hc
    rw [List.eq_of_mem_replicate hws] at hc
    exact h c hc

/-- What a control character is escaped to. -/
theorem hex4?_control : ∀ n : Fin 0x20, ∃ a b,
    (if n.val < 16 then ['0'] else []) ++ hex n.val = [a, b] ∧ hex4? '0' '0' a b = some n.val := by
  intro n
  refine ⟨Nat.digitChar (n.val / 16), Nat.digitChar (n.val % 16), ?_⟩
  revert n
  decide

theorem letter_escape (c : Char) : Letter c (escape c) := by
  unfold escape
  split
  any_goals exact Letter.short rfl
  next hquote hback _ _ _ _ _ =>
    split
    · next h =>
      obtain ⟨a, b, hab, hn⟩ := hex4?_control ⟨c.toNat, h⟩
      rw [List.append_assoc, hab]
      have hl : isLeading c.toNat = false := by simp [isLeading]; omega
      have ht : isTrailing c.toNat = false := by simp [isTrailing]; omega
      have := Letter.unicode hn hl ht
      rwa [Char.ofNat_toNat] at this
    · next h => exact Letter.raw (by omega) hquote hback

theorem literal_flatMap (cs : List Char) : Literal cs (cs.flatMap escape ++ ['"']) := by
  induction cs with
  | nil => exact Literal.close
  | cons c cs ih =>
    rw [List.flatMap_cons, List.append_assoc]
    exact Literal.letter (letter_escape c) ih

theorem spells_writeText (s : String) : Spells (.str s) (writeText s) :=
  Spells.str (literal_flatMap s.toList)

theorem key_writeText (k : String) : Key k (writeText k ++ [':']) :=
  ⟨k.toList.flatMap escape ++ ['"'], [], literal_flatMap _, gap_nil, by simp [writeText]⟩

theorem gap_space : Gap [' '] := by intro c hc; rw [List.mem_singleton.1 hc]; rfl

section Pretty

variable {indent : List Char} (hi : Gap indent)

include hi

mutual

/-- The indented form of a value is a text of it. -/
theorem spells_prettyAt : ∀ (v : Json) (depth : Nat), Plain v → Spells v (prettyAt indent depth v)
  | .null, _, _ => Spells.null
  | .bool true, _, _ => Spells.yes
  | .bool false, _, _ => Spells.no
  | .num (.natural _), _, _ => Spells.num
  | .str s, _, _ => spells_writeText s
  | .arr [], _, _ => Spells.noItems gap_nil
  | .arr (v :: vs), depth, h => by
    rw [prettyAt, List.cons_append, List.cons_append, List.append_assoc]
    exact Spells.arr (gap_newLine hi _)
      (spellsItems_pretty vs v depth (spells_prettyAt v (depth + 1) h.1) h.2)
  | .obj [], _, _ => Spells.noMembers gap_nil
  | .obj ((k, v) :: ms), depth, h => by
    have := spellsMembers_pretty ms k v depth (spells_prettyAt v (depth + 1) h.1) h.2
    rw [prettyAt]
    simpa using Spells.obj (gap_newLine hi _) this

theorem spellsItems_pretty : ∀ (vs : List Json) (v : Json) (depth : Nat) {t : List Char},
    Spells v t → PlainItems vs → SpellsItems (v :: vs) (t ++ prettyItems indent depth vs)
  | [], _, depth, _, hv, _ => SpellsItems.last hv (gap_newLine hi depth)
  | w :: ws, _, depth, _, hv, h => by
    have := spellsItems_pretty ws w depth (spells_prettyAt w (depth + 1) h.1) h.2
    rw [prettyItems]
    simpa using SpellsItems.next hv gap_nil (gap_newLine hi (depth + 1)) this

theorem spellsMembers_pretty : ∀ (ms : List (String × Json)) (k : String) (v : Json) (depth : Nat)
    {t : List Char}, Spells v t → PlainMembers ms →
      SpellsMembers ((k, v) :: ms)
        (writeText k ++ ([':', ' '] ++ (t ++ prettyMembers indent depth ms)))
  | [], k, _, depth, _, hv, _ => by
    have := SpellsMembers.last (key_writeText k) gap_space hv (gap_newLine hi depth)
    simpa [prettyMembers] using this
  | (l, w) :: ms, k, _, depth, _, hv, h => by
    have := spellsMembers_pretty ms l w depth (spells_prettyAt w (depth + 1) h.1) h.2
    have := SpellsMembers.next (key_writeText k) gap_space hv gap_nil
      (gap_newLine hi (depth + 1)) this
    rw [prettyMembers]
    simpa using this

end

end Pretty

theorem spells_pretty {v : Json} {indent : String} (hi : Gap indent.toList) (hv : Plain v) :
    Spells v (v.pretty indent) := spells_prettyAt hi v 0 hv

end EdmxGen.Json
