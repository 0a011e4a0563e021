import EdmxGen.Proofs.Header.First
import EdmxGen.Proofs.Json.Accepted

/-!
# Headers of other writers

A header may be written by a program that knows more options, or puts them in another order. It
decodes to the same settings, since the reader of each object sees only what it knows, and
everything else of the block has to be JSON and no more (`decode_revised`).
-/

namespace EdmxGen.Header

open Json Text

/-- A block that is accepted as a revision of written settings reads as the settings. -/
theorem readWith_revised {s : FileSettings} {v : Json} {b : List Char}
    (hv : Relation.ReflTransGen (Revision FileSettings.schema) s.toJson v)
    (hb : Accepted maxDepth v b) : readWith FileSettings.read b = .ok s := by
  obtain ⟨d, hd, hvalue⟩ := hb
  obtain ⟨rfl, hdepth⟩ := Draft.eq_ofJson d hvalue
  have hread := s.read_kept (keeps_of_revisions s.keeps hv) hdepth
  rw [readWith, hd]
  simp only [bind, Except.bind, hread]
  rfl

/-- Take the object that is written for settings, put the members of its objects in other orders and
insert members that their readers do not know, as often as you like. Any text of the result, in
which each value is one that is accepted at its depth, decodes to the settings, as a block without a
closing marker that stands behind a text without an opening one. -/
theorem decode_revised {s : FileSettings} {v : Json} {p b : List Char}
    (hv : Relation.ReflTransGen (Revision FileSettings.schema) s.toJson v)
    (hb : Written maxDepth v b) (hp : ¬ opening <:+: p) (hclosing : ¬ closing <:+: b)
    (q : List Char) : decode (holding p b q) = .ok s := by
  rw [decode_of_block? ((firstBlock_holding q hp hclosing).block?_eq q),
    readWith_revised hv hb.isAccepted]
  rfl

/-- Settings in which every option is standard. -/
def standard : FileSettings := ⟨⟨"s", .modular, {}⟩, none⟩

/-- The members of these settings that are strings. -/
def leading : List (String × Json) := [("source", .str "s"), ("modularity", .str "Modular")]

/-- Options that only a newer version knows. -/
def newer : String × Json := ("requestOptions", .obj [("retries", .arr [.null])])

/-- The settings with an unknown member and the options in front. -/
def foreign : Json := .obj (newer :: ("version", .null) :: leading)

theorem revisions_foreign :
    Relation.ReflTransGen (Revision FileSettings.schema) standard.toJson foreign := by
  have hretries : Revision RequestOptions.schema (.obj []) newer.2 :=
    @Revision.insert _ _ [] [] "retries" _ (by decide)
  have hoptions : Revision FileSettings.schema standard.toJson (.obj (leading ++ [newer])) :=
    @Revision.inside _ _ leading [] "requestOptions" _ _ (by decide) hretries
  have hversion : Revision FileSettings.schema (.obj (leading ++ [newer]))
      (.obj (("version", .null) :: (leading ++ [newer]))) :=
    @Revision.insert _ _ [] _ "version" _ (by decide)
  have horder : Revision FileSettings.schema (.obj (("version", .null) :: (leading ++ [newer])))
      foreign :=
    .order (List.perm_append_singleton newer (("version", .null) :: leading))
  exact .tail (.tail (.single hoptions) hversion) horder

theorem written_foreign : Written maxDepth foreign (foreign.pretty "\t") := by
  have htab : Gap "\t".toList := by
    intro c hc
    rw [show c = '\t' by simpa using hc]
    rfl
  have hplain : Plain foreign := by
    simp [foreign, newer, leading, Plain, PlainMembers, PlainItems]
  have haccepted := accepted_spells (spells_pretty htab hplain) gap_nil gap_nil
    (by decide : depth foreign ≤ maxDepth)
  rw [List.append_nil] at haccepted
  exact .accepted haccepted

/-- The revised object decodes to the settings that it was written for. -/
theorem decode_revised_foreign : ¬ closing <:+: foreign.pretty "\t" ∧
    decode (holding [] (foreign.pretty "\t") closing) = .ok standard := by
  have hclosing : ¬ closing <:+: foreign.pretty "\t" := by decide +kernel
  exact ⟨hclosing, decode_revised revisions_foreign written_foreign (by decide +kernel) hclosing _⟩

end EdmxGen.Header
