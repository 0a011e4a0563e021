/-!
# Dictionaries of texts

A dictionary holds one text per key and lists its entries by key, in the order of code points. Since
the order is part of the type, two dictionaries with the same entries are equal.
-/

namespace EdmxGen.Text

/-- The entries with the text for `key` set to `value`. -/
def insertEntry (key value : String) : List (String × String) → List (String × String)
  | [] => [(key, value)]
  | e :: es =>
    if key < e.1 then (key, value) :: e :: es
    else if key = e.1 then (key, value) :: es
    else e :: insertEntry key value es

/-- The keys rise strictly. -/
abbrev Rising (es : List (String × String)) : Prop := es.Pairwise fun a b => a.1 < b.1

theorem mem_insertEntry {key value : String} {es : List (String × String)} {e : String × String}
    (h : e ∈ insertEntry key value es) : e = (key, value) ∨ e ∈ es := by
  induction es with
  | nil => simpa [insertEntry] using h
  | cons d ds ih =>
    simp only [insertEntry] at h
    split at h
    · simpa using h
    · split at h
      · rcases List.mem_cons.1 h with h | h
        · exact Or.inl h
        · exact Or.inr (List.mem_cons_of_mem _ h)
      · rcases List.mem_cons.1 h with h | h
        · exact Or.inr (h ▸ List.mem_cons_self)
        · rcases ih h with h | h
          · exact Or.inl h
          · exact Or.inr (List.mem_cons_of_mem _ h)

theorem rising_insertEntry (key value : String) {es : List (String × String)} (h : Rising es) :
    Rising (insertEntry key value es) := by
  induction es with
  | nil => simp [insertEntry]
  | cons e es ih =>
    have hes := List.pairwise_cons.1 h
    simp only [insertEntry]
    split
    · next hlt =>
      refine List.pairwise_cons.2 ⟨fun d hd => ?_, h⟩
      rcases List.mem_cons.1 hd with rfl | hd
      · exact hlt
      · exact String.lt_trans hlt (hes.1 d hd)
    · split
      · next heq => exact List.pairwise_cons.2 ⟨fun d hd => heq ▸ hes.1 d hd, hes.2⟩
      · next hlt hne =>
        refine List.pairwise_cons.2 ⟨fun d hd => ?_, ih hes.2⟩
        rcases mem_insertEntry hd with rfl | hd
        · have hle : e.1 ≤ key := String.not_lt.1 hlt
          exact Decidable.by_contra fun h => hne (String.le_antisymm (String.not_lt.1 h) hle)
        · exact hes.1 d hd

/-- Texts by key, in key order. -/
structure Dictionary where
  entries : List (String × String)
  rising : Rising entries
  deriving DecidableEq

namespace Dictionary

def empty : Dictionary := ⟨[], List.Pairwise.nil⟩

instance : Inhabited Dictionary := ⟨empty⟩

/-- The dictionary with the text for `key` set to `value`. -/
def insert (d : Dictionary) (key value : String) : Dictionary :=
  ⟨insertEntry key value d.entries, rising_insertEntry key value d.rising⟩

def get? (d : Dictionary) (key : String) : Option String :=
  (d.entries.find? fun e => e.1 == key).map Prod.snd

/-- The dictionary of a list of entries, a later one replacing an earlier one of the same key. -/
def ofList (es : List (String × String)) : Dictionary :=
  es.foldl (fun d e => d.insert e.1 e.2) empty

def isEmpty (d : Dictionary) : Bool := d.entries.isEmpty

end Dictionary

end EdmxGen.Text
