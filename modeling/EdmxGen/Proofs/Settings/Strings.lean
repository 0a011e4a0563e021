import EdmxGen.Proofs.Json.Mark
import EdmxGen.Proofs.Settings.Json

/-!
# The strings of settings

The strings in the written form of settings that can hold a mark are those that the settings store:
neither the keys nor the name of a modularity has a hash.
-/

namespace EdmxGen

open Json Text

def Auth.strings (a : Auth) : List String := a.user.toList ++ a.pass.toList ++ a.bearer.toList

def RequestOptions.strings (o : RequestOptions) : List String :=
  o.headers.entries.flatMap (fun e => [e.1, e.2]) ++ o.auth.toList.flatMap Auth.strings ++
    o.proxy.toList

def ServiceSettings.strings (s : ServiceSettings) : List String :=
  s.source :: s.requestOptions.strings

/-- The strings in the settings of a file. -/
def FileSettings.strings (s : FileSettings) : List String := s.service.strings ++ s.template.toList

section Marked

variable {w : List Char}

theorem RequestOptions.marked_headers (h : Dictionary) : Marked w (headersToJson h) ↔
    ∃ s ∈ h.entries.flatMap (fun e => [e.1, e.2]), w <:+: s.toList := by
  rw [headersToJson, marked_obj, markedMembers_map]
  simp only [marked_str, List.mem_flatMap, List.mem_cons, List.not_mem_nil, or_false]
  constructor
  · rintro ⟨e, he, h | h⟩
    · exact ⟨e.1, ⟨e, he, Or.inl rfl⟩, h⟩
    · exact ⟨e.2, ⟨e, he, Or.inr rfl⟩, h⟩
  · rintro ⟨s, ⟨e, he, rfl | rfl⟩, h⟩
    · exact ⟨e, he, Or.inl h⟩
    · exact ⟨e, he, Or.inr h⟩

theorem RequestOptions.marked_sent (o : RequestOptions) :
    (∃ h ∈ o.sent.toList, Marked w (headersToJson h)) ↔
      ∃ s ∈ o.headers.entries.flatMap (fun e => [e.1, e.2]), w <:+: s.toList := by
  by_cases he : o.headers.isEmpty
  · rw [sent, if_pos he, Dictionary.eq_empty he]
    simp [Dictionary.empty]
  · rw [sent, if_neg he, ← marked_headers]
    simp

variable (hw : Mark w)

include hw

theorem Auth.marked_toJson (a : Auth) : Marked w a.toJson ↔ ∃ s ∈ a.strings, w <:+: s.toList := by
  rw [toJson, marked_obj, markedMembers_append, markedMembers_append,
    markedMembers_memberOf (hw.absent (by simp)),
    markedMembers_memberOf (hw.absent (by simp)),
    markedMembers_memberOf (hw.absent (by simp))]
  simp only [marked_str, strings, List.mem_append, or_and_right, exists_or]

theorem RequestOptions.marked_toJson (o : RequestOptions) :
    Marked w o.toJson ↔ ∃ s ∈ o.strings, w <:+: s.toList := by
  rw [toJson_eq, members, marked_obj]
  simp only [markedMembers_append]
  rw [markedMembers_memberOf (hw.absent (by simp)), marked_sent,
    markedMembers_memberOf (hw.absent (by simp)),
    markedMembers_memberOf (hw.absent (by simp)),
    markedMembers_memberOf (hw.absent (by simp)),
    markedMembers_memberOf (hw.absent (by simp))]
  have hauth : (∃ a ∈ o.auth.toList, Marked w a.toJson) ↔
      ∃ s ∈ o.auth.toList.flatMap Auth.strings, w <:+: s.toList := by
    cases o.auth with
    | none => simp
    | some a => simp [Auth.marked_toJson hw a]
  rw [hauth]
  simp only [not_marked_num, not_marked_bool, marked_str, strings, List.mem_append, or_and_right,
    exists_or, and_false, exists_false, or_false]

theorem ServiceSettings.markedMembers_members (s : ServiceSettings) :
    MarkedMembers w s.members ↔ ∃ t ∈ s.strings, w <:+: t.toList := by
  have hsource : ¬ w <:+: "source".toList := hw.absent (by simp)
  have hkey : ¬ w <:+: "modularity".toList := hw.absent (by simp)
  have hoptions : ¬ w <:+: "requestOptions".toList := hw.absent (by simp)
  have hmodularity : ¬ Marked w s.modularity.toJson := by
    rw [Modularity.toJson, marked_str]
    cases s.modularity <;> exact hw.absent (by simp [Modularity.name])
  rw [members, markedMembers_cons, markedMembers_cons, markedMembers_cons]
  simp only [hsource, hkey, hoptions, hmodularity, marked_str, RequestOptions.marked_toJson hw,
    not_markedMembers_nil, or_false, false_or, strings, List.mem_cons, or_and_right, exists_or,
    exists_eq_left]

/-- A mark in the written settings of a file is in one of their strings. -/
theorem FileSettings.marked_toJson (s : FileSettings) :
    Marked w s.toJson ↔ ∃ t ∈ s.strings, w <:+: t.toList := by
  rw [toJson_eq, members, marked_obj, markedMembers_append,
    ServiceSettings.markedMembers_members hw,
    markedMembers_memberOf (hw.absent (by simp))]
  simp only [marked_str, strings, List.mem_append, or_and_right, exists_or]

end Marked

end EdmxGen
