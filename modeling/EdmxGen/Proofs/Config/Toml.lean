import EdmxGen.Config.Toml
import EdmxGen.Proofs.Toml.Document

/-!
# A saved configuration is read back

The text in which a configuration is saved gives the configuration again (`ofText?_write`).
Remembering an address twice in a row is the same as once (`remember_remember`).
-/

namespace EdmxGen.Config

open Toml Text

theorem remember_remember (c : Config) (address : String) :
    (c.remember address).remember address = c.remember address := by
  obtain ⟨n, hn⟩ : ∃ n, c.capacity = n + 1 := ⟨c.capacity - 1, by unfold capacity; omega⟩
  have hcapacity : ∀ recent, ({ c with recentAddresses := recent } : Config).capacity = n + 1 :=
    fun _ => hn
  -- The address is not among those behind it, so it is not taken out again.
  have hothers : ((c.recentAddresses.filter fun known => known != address).take n).filter
      (fun known => known != address)
      = (c.recentAddresses.filter fun known => known != address).take n := by
    rw [List.filter_eq_self]
    intro known hmem
    exact (List.mem_filter.1 (List.mem_of_mem_take hmem)).2
  unfold remember
  dsimp only
  rw [hn, hcapacity, List.take_succ_cons, List.take_succ_cons, List.filter_cons_of_neg (by simp),
    hothers, List.take_take, Nat.min_self]

/-! ## The lines of the settings -/

theorem writeLine_append (key : String) (value rest : List Char) :
    writeLine key value ++ rest = key.toList ++ ' ' :: '=' :: ' ' :: (value ++ '\n' :: rest) := by
  unfold writeLine
  simp

/-- The drafts of a document with addresses and these settings so far. -/
def draftOf (recent : Toml) (settings : Draft.Entries) : Draft.Entries :=
  [("recent_addresses", .finished recent), ("settings", .table .headed settings)]

theorem modifyAt_draftOf {key : String} {settings : Draft.Entries}
    (h : Draft.get? settings key = none) (v recent : Toml) :
    Draft.modifyAt (addUnder [key] v) ["settings"] (draftOf recent settings)
      = some (draftOf recent (settings ++ [(key, .finished v)])) := by
  have hadd : addUnder [key] v settings = some (settings ++ [(key, .finished v)]) := by
    simp [addUnder, Draft.add, h]
  simp [draftOf, Draft.modifyAt, Draft.get?, Draft.put, hadd]

theorem readStatements_setting {key : String} (h : IsKey key) {v : Toml} {value : List Char}
    (hv : Written v value) {settings : Draft.Entries} (hkey : Draft.get? settings key = none)
    (fuel : Nat) (recent : Toml) (rest : List Char) :
    readStatements (fuel + 1) ⟨draftOf recent settings, ["settings"]⟩ (writeLine key value ++ rest)
      = readStatements fuel ⟨draftOf recent (settings ++ [(key, .finished v)]), ["settings"]⟩
          rest := by
  rw [writeLine_append, readStatements_pair h hv]
  show (Draft.modifyAt (addUnder [key] v) ["settings"] (draftOf recent settings)).bind _ = _
  rw [modifyAt_draftOf hkey]
  rfl

/-! ## The whole text -/

def drafts (p : Preferences) : Draft.Entries :=
  [("max_recent_addresses", .finished (.integer p.maxRecent.toNat)),
    ("template_dir", .finished (.text p.templateDir)),
    ("key_policy", .finished (.text p.keyPolicy.name))] ++
  match p.defaultModularity with
  | some m => [("default_modularity", .finished (.text m.name))]
  | none => []

theorem readStatements_writePreferences (p : Preferences) (fuel : Nat) (recent : Toml) :
    readStatements (fuel + 5) ⟨draftOf recent [], ["settings"]⟩ (writePreferences p)
      = some ⟨draftOf recent (drafts p), ["settings"]⟩ := by
  have hmax : p.maxRecent.toNat < Nat.pow 2 128 :=
    Nat.lt_trans p.maxRecent.toNat_lt (by decide)
  unfold writePreferences
  rw [List.append_assoc, List.append_assoc,
    readStatements_setting ⟨by simp, by decide⟩ (written_decimal hmax) rfl,
    readStatements_setting ⟨by simp, by decide⟩ (written_writeText _) (by simp [Draft.get?]),
    readStatements_setting ⟨by simp, by decide⟩ (written_writeText _) (by simp [Draft.get?])]
  unfold drafts
  cases p.defaultModularity with
  | none => exact readStatements_nil _ _
  | some m =>
    show readStatements _ _ (writeLine "default_modularity" (writeText m.name)) = _
    rw [← List.append_nil (writeLine _ _),
      readStatements_setting ⟨by simp, by decide⟩ (written_writeText _) (by simp [Draft.get?])]
    exact readStatements_nil _ _

def entriesOf (c : Config) : Entries :=
  Draft.finishEntries (draftOf (.array (c.recentAddresses.map .text)) (drafts c.settings))

theorem tomlOfText?_write (c : Config) : Toml.ofText? c.write = some c.entriesOf := by
  obtain ⟨n, hn⟩ : ∃ n, c.write.length + 1 = n + 5 + 1 + 1 := by
    have hlen : 6 ≤ c.write.length := by
      simp [write, writeLine]
    exact ⟨c.write.length - 6, by omega⟩
  have hheader : "\n[settings]\n".toList ++ writePreferences c.settings
      = '\n' :: '[' :: ("settings".toList ++ ']' :: '\n' :: writePreferences c.settings) := by simp
  have hadd : Draft.modifyAt (addUnder ["recent_addresses"] (.array (c.recentAddresses.map .text)))
      [] [] = some [("recent_addresses", .finished (.array (c.recentAddresses.map .text)))] := rfl
  have hhead : Draft.head "settings"
      [("recent_addresses", .finished (.array (c.recentAddresses.map .text)))]
      = some (draftOf (.array (c.recentAddresses.map .text)) []) := by
    simp [Draft.head, Draft.get?, Draft.put, draftOf]
  have hread : readStatements (n + 5 + 1 + 1) {} c.write
      = some ⟨draftOf (.array (c.recentAddresses.map .text)) (drafts c.settings),
        ["settings"]⟩ := by
    unfold write
    rw [List.append_assoc, writeLine_append,
      readStatements_pair ⟨by simp, by decide⟩ (written_writeTexts _), hadd, Option.bind_some,
      hheader, readStatements_break, readStatements_header ⟨by simp, by decide⟩, hhead,
      Option.bind_some]
    exact readStatements_writePreferences _ n _
  have hmark : dropMark c.write = c.write := rfl
  unfold Toml.ofText?
  rw [hmark]
  dsimp only
  rw [hn, hread]
  rfl

/-! ## Values of the fields -/

theorem readTexts_map (ss : List String) : readTexts (.array (ss.map .text)) = some ss := by
  show (ss.map Toml.text).mapM readText = some ss
  induction ss with
  | nil => rfl
  | cons s ss ih =>
    rw [List.map_cons, List.mapM_cons, ih]
    rfl

theorem readCount_toNat (n : UInt64) : readCount (.integer n.toNat) = some n := by
  show (if n.toNat < UInt64.size then some (UInt64.ofNat n.toNat) else none) = some n
  rw [if_pos n.toNat_lt, UInt64.ofNat_toNat]

theorem readKeyPolicy_name (k : KeyPolicy) : readKeyPolicy (.text k.name) = some k := by
  cases k <;> rfl

theorem readModularity_name (m : Modularity) : readModularity (.text m.name) = some m := by
  cases m <;> rfl

theorem readPreferences_drafts (p : Preferences) :
    readPreferences (.table (Draft.finishEntries (drafts p))) = some p := by
  obtain ⟨maxRecent, templateDir, keyPolicy, defaultModularity⟩ := p
  cases defaultModularity with
  | none =>
    show ofFields (some (.integer maxRecent.toNat)) (some (.text templateDir))
      (some (.text keyPolicy.name)) none = _
    simp [ofFields, field, readCount_toNat, readText, readKeyPolicy_name]
  | some m =>
    show ofFields (some (.integer maxRecent.toNat)) (some (.text templateDir))
      (some (.text keyPolicy.name)) (some (.text m.name)) = _
    simp [ofFields, field, readCount_toNat, readText, readKeyPolicy_name, readModularity_name]

/-- A saved configuration is read back. -/
theorem ofText?_write (c : Config) : ofText? c.write = some c := by
  have hrecent : c.entriesOf.get? "recent_addresses"
      = some (.array (c.recentAddresses.map .text)) := rfl
  have hsettings : c.entriesOf.get? "settings"
      = some (.table (Draft.finishEntries (drafts c.settings))) := rfl
  unfold ofText?
  rw [tomlOfText?_write, Option.bind_some, ofEntries?, hrecent, hsettings]
  simp [field, readTexts_map, readPreferences_drafts]

end EdmxGen.Config
