import Mathlib.Data.List.Sort
import EdmxGen.Text.Dictionary

/-!
# Dictionaries and their entries

A dictionary is made of its entries (`ofList_entries`), and a key that is not below the keys before
it goes behind them. It is determined by the texts of its keys (`ext_get?`), of which an insertion
changes one, so it does not matter in which order entries are put into it (`ofList_perm`).
-/

namespace EdmxGen.Text

theorem insertEntry_of_lt {key value : String} {es : List (String × String)}
    (h : ∀ e ∈ es, e.1 < key) : insertEntry key value es = es ++ [(key, value)] := by
  induction es with
  | nil => rfl
  | cons e es ih =>
    have he := h e List.mem_cons_self
    have hne : key ≠ e.1 := fun heq => String.lt_irrefl key (heq ▸ he)
    rw [insertEntry, if_neg (String.lt_asymm he), if_neg hne,
      ih fun d hd => h d (List.mem_cons_of_mem _ hd), List.cons_append]

theorem find?_insertEntry (key value : String) (es : List (String × String)) (k : String) :
    ((insertEntry key value es).find? fun e => e.1 == k).map Prod.snd =
      if k = key then some value else (es.find? fun e => e.1 == k).map Prod.snd := by
  induction es with
  | nil =>
    by_cases hk : k = key
    · simp [insertEntry, hk]
    · simp [insertEntry, hk, Ne.symm hk]
  | cons e es ih =>
    unfold insertEntry
    by_cases hk : k = key
    · rw [if_pos hk] at ih ⊢
      split
      · rw [List.find?_cons_of_pos (by simp [hk])]
        rfl
      · split
        · rw [List.find?_cons_of_pos (by simp [hk])]
          rfl
        · next hne => rw [List.find?_cons_of_neg (by simpa [hk] using Ne.symm hne), ih]
    · have hnew : key ≠ k := Ne.symm hk
      rw [if_neg hk] at ih ⊢
      split
      · rw [List.find?_cons_of_neg (by simpa using hnew)]
      · split
        · next heq =>
          rw [List.find?_cons_of_neg (by simpa using hnew),
            List.find?_cons_of_neg (by simpa [← heq] using hnew)]
        · by_cases he : e.1 = k
          · rw [List.find?_cons_of_pos (by simpa using he),
              List.find?_cons_of_pos (by simpa using he)]
          · rw [List.find?_cons_of_neg (by simpa using he),
              List.find?_cons_of_neg (by simpa using he), ih]

namespace Dictionary

theorem eq_empty {d : Dictionary} (h : d.isEmpty) : d = empty := by
  obtain ⟨es, hes⟩ := d
  cases es with
  | nil => rfl
  | cons e es => simp [isEmpty] at h

theorem entries_foldl {d : Dictionary} {es : List (String × String)}
    (h : Rising (d.entries ++ es)) :
    (es.foldl (fun d e => d.insert e.1 e.2) d).entries = d.entries ++ es := by
  induction es generalizing d with
  | nil => simp
  | cons e es ih =>
    have hlt : ∀ a ∈ d.entries, a.1 < e.1 := fun a ha =>
      (List.pairwise_append.1 h).2.2 a ha e List.mem_cons_self
    have hd : (d.insert e.1 e.2).entries = d.entries ++ [e] := insertEntry_of_lt hlt
    rw [List.foldl_cons, ih (by rw [hd]; simpa using h), hd]
    simp

/-- Entries whose keys rise stay as they are. -/
theorem entries_ofList {es : List (String × String)} (h : Rising es) : (ofList es).entries = es :=
  entries_foldl (d := empty) h

theorem ofList_entries (d : Dictionary) : ofList d.entries = d := by
  obtain ⟨es, hes⟩ := d
  have h := entries_ofList hes
  cases hd : ofList es with
  | mk fs hfs =>
    rw [hd] at h
    simpa using h

/-! ## Texts of keys -/

theorem get?_insert (d : Dictionary) (key value k : String) :
    (d.insert key value).get? k = if k = key then some value else d.get? k :=
  find?_insertEntry key value d.entries k

theorem get?_empty (key : String) : empty.get? key = none := rfl

theorem get?_eq_some_iff {d : Dictionary} {key value : String} :
    d.get? key = some value ↔ (key, value) ∈ d.entries := by
  obtain ⟨es, hes⟩ := d
  unfold get?
  dsimp only
  induction es with
  | nil => simp
  | cons e es ih =>
    obtain ⟨hlt, hrest⟩ := List.pairwise_cons.1 hes
    by_cases he : e.1 = key
    · rw [List.find?_cons_of_pos (by simpa using he), Option.map_some, Option.some.injEq,
        List.mem_cons]
      constructor
      · rintro rfl
        exact Or.inl (Prod.ext he.symm rfl)
      · rintro (rfl | hmem)
        · rfl
        · exact absurd (hlt _ hmem) (he ▸ String.lt_irrefl _)
    · rw [List.find?_cons_of_neg (by simpa using he), ih hrest, List.mem_cons]
      constructor
      · exact Or.inr
      · rintro (rfl | hmem)
        · exact absurd rfl he
        · exact hmem

/-- Dictionaries with the same texts are the same. -/
theorem ext_get? {d d' : Dictionary} (h : ∀ key, d.get? key = d'.get? key) : d = d' := by
  have hmem : ∀ e, e ∈ d.entries ↔ e ∈ d'.entries := by
    rintro ⟨key, value⟩
    rw [← get?_eq_some_iff, ← get?_eq_some_iff, h key]
  obtain ⟨es, hes⟩ := d
  obtain ⟨es', hes'⟩ := d'
  have hirrefl : Std.Irrefl fun a b : String × String => a.1 < b.1 :=
    ⟨fun a => String.lt_irrefl a.1⟩
  have hantisymm : Std.Antisymm fun a b : String × String => a.1 < b.1 :=
    ⟨fun a b hab hba => absurd hba (String.lt_asymm hab)⟩
  obtain rfl := hes.eq_of_mem_iff hes' hmem
  rfl

theorem insert_comm (d : Dictionary) {key key' : String} (h : key ≠ key') (value value' : String) :
    (d.insert key value).insert key' value' = (d.insert key' value').insert key value := by
  apply ext_get?
  intro k
  simp only [get?_insert]
  by_cases hk : k = key
  · rw [if_neg (hk ▸ h), if_pos hk, if_pos hk]
  · rw [if_neg hk, if_neg hk]

theorem keys_nodup (d : Dictionary) : (d.entries.map Prod.fst).Nodup := by
  refine List.pairwise_map.2 (d.rising.imp ?_)
  intro a b hlt heq
  exact String.lt_irrefl b.1 (heq ▸ hlt)

/-- The order of entries with different keys does not matter. -/
theorem ofList_perm {es es' : List (String × String)} (h : es.Perm es')
    (hk : (es.map Prod.fst).Nodup) : ofList es = ofList es' := by
  refine h.foldl_eq' ?_ empty
  intro a ha b hb d
  by_cases hab : a.1 = b.1
  · rw [List.inj_on_of_nodup_map hk ha hb hab]
  · exact insert_comm d hab a.2 b.2

end Dictionary

end EdmxGen.Text
