import EdmxGen.Address
import EdmxGen.Proofs.Text.Blank
import EdmxGen.Proofs.Text.Cut

/-!
# Addresses and the roots that they name

Behind the root of a service an address may have slashes, or the segment of the metadata between
slashes (`Names`). An address is brought into its normal form by finding such a root in it
(`names_root`) and putting one slash and the segment behind it, so what is in normal form stays as
it is (`normalize_normal`). The segment is found by its characters, not by the slash before it: a
root that ends in them without a slash loses them (`normalize_root`).
-/

namespace EdmxGen.Address

open Text

variable {raw r : List Char} {m n : Nat}

/-! ## Slashes -/

def slashes (n : Nat) : List Char := List.replicate n '/'

theorem dropSlashes_append (cs : List Char) (n : Nat) :
    dropSlashes (cs ++ slashes n) = dropSlashes cs := by
  refine dropEndWhile_append fun c hc => ?_
  rw [List.eq_of_mem_replicate hc]
  rfl

theorem dropSlashes_eq_self {cs : List Char} (h : cs.getLast? ≠ some '/') :
    dropSlashes cs = cs := by
  refine dropEndWhile_eq_self fun c hc => beq_eq_false_iff_ne.2 ?_
  rintro rfl
  exact h hc

theorem getLast?_dropSlashes (cs : List Char) : (dropSlashes cs).getLast? ≠ some '/' := by
  intro h
  have hslash := getLast?_dropEndWhile '/' h
  simp at hslash

theorem exists_slashes (cs : List Char) : ∃ n, cs = dropSlashes cs ++ slashes n := by
  obtain ⟨w, hsplit, hw⟩ := exists_dropEndWhile (· == '/') cs
  have hslashes : w = slashes w.length :=
    List.eq_replicate_of_mem fun c hc => beq_iff_eq.1 (hw c hc)
  refine ⟨w.length, ?_⟩
  rw [← hslashes]
  exact hsplit

/-! ## The root in an address -/

/-- A text is a root with slashes behind it, or with the segment between slashes. -/
def Names (text root : List Char) : Prop :=
  (∃ n, text = root ++ slashes n) ∨ ∃ m n, text = root ++ slashes m ++ segment ++ slashes n

theorem root_eq (raw : List Char) : root raw =
    dropSlashes ((stripSuffix? segment (dropSlashes (trim raw))).getD (dropSlashes (trim raw))) :=
  rfl

theorem getLast?_segment : segment.getLast? = some 'a' := by decide

theorem getLast?_append_segment (cs : List Char) : (cs ++ segment).getLast? = some 'a' := by
  rw [List.getLast?_append, getLast?_segment]
  rfl

theorem root_of_whole (h : trim raw = r ++ slashes m ++ segment ++ slashes n)
    (hr : r.getLast? ≠ some '/') : root raw = r := by
  have hend : dropSlashes (trim raw) = r ++ slashes m ++ segment := by
    rw [h, dropSlashes_append, dropSlashes_eq_self]
    rw [getLast?_append_segment]
    decide
  rw [root_eq, hend, stripSuffix?_eq_some_iff.2 rfl, Option.getD_some, dropSlashes_append,
    dropSlashes_eq_self hr]

theorem root_of_bare (h : trim raw = r ++ slashes n) (hr : r.getLast? ≠ some '/')
    (hsegment : ¬ segment <:+ r) : root raw = r := by
  have hend : dropSlashes (trim raw) = r := by
    rw [h, dropSlashes_append, dropSlashes_eq_self hr]
  rw [root_eq, hend, stripSuffix?_eq_none_iff.2 hsegment, Option.getD_none,
    dropSlashes_eq_self hr]

theorem names_root (raw : List Char) : Names (trim raw) (root raw) := by
  obtain ⟨n, hn⟩ := exists_slashes (trim raw)
  rw [root_eq]
  cases hstrip : stripSuffix? segment (dropSlashes (trim raw)) with
  | none =>
    rw [Option.getD_none, dropSlashes_eq_self (getLast?_dropSlashes _)]
    exact Or.inl ⟨n, hn⟩
  | some rest =>
    obtain ⟨m, hm⟩ := exists_slashes rest
    rw [Option.getD_some]
    refine Or.inr ⟨m, n, ?_⟩
    rw [← hm, ← stripSuffix?_eq_some_iff.1 hstrip]
    exact hn

theorem getLast?_root (raw : List Char) : (root raw).getLast? ≠ some '/' := by
  rw [root_eq]
  exact getLast?_dropSlashes _

theorem prefix_of_names {text root : List Char} (h : Names text root) : root <+: text := by
  rcases h with ⟨n, rfl⟩ | ⟨m, n, rfl⟩
  · exact List.prefix_append _ _
  · rw [List.append_assoc, List.append_assoc]
    exact List.prefix_append _ _

/-- No root is found exactly if there is nothing before the slashes and the segment. -/
theorem root_eq_nil_iff : root raw = [] ↔ Names (trim raw) [] := by
  constructor
  · intro h
    rw [← h]
    exact names_root raw
  · rintro (⟨n, hn⟩ | ⟨m, n, hn⟩)
    · exact root_of_bare hn (by decide) (by decide)
    · exact root_of_whole hn (by decide)

/-- A root begins with a character that is not blank and does not end in a slash. -/
structure IsRoot (root : List Char) : Prop where
  ne_nil : root ≠ []
  first : ∀ c ∈ root.head?, isBlank c = false
  last : root.getLast? ≠ some '/'

theorem isRoot_root (h : root raw ≠ []) : IsRoot (root raw) := by
  refine ⟨h, fun c hc => ?_, getLast?_root raw⟩
  obtain ⟨rest, hrest⟩ := prefix_of_names (names_root raw)
  refine (trimmed_trim raw).solid.first c ?_
  rw [← hrest]
  exact List.mem_head?_append_of_mem_head? hc

/-! ## The normal form -/

theorem ofList_endpoint (hr : r.getLast? ≠ some '/') :
    String.ofList (endpoint r) = String.ofList r ++ "/$metadata" := by
  rw [endpoint, dropSlashes_eq_self hr, String.ofList_append]
  rfl

theorem normalize_of_root {s : String} (h : root s.toList = r) (hr : r ≠ []) :
    normalize s = .ok (String.ofList r ++ "/$metadata") := by
  have hlast : r.getLast? ≠ some '/' := h ▸ getLast?_root s.toList
  unfold normalize
  rw [h, if_neg (by simpa using hr), ofList_endpoint hlast]

theorem normalize_ofList (h : root raw = r) (hr : r ≠ []) :
    normalize (String.ofList raw) = .ok (String.ofList r ++ "/$metadata") := by
  rw [← String.toList_ofList (l := raw)] at h
  exact normalize_of_root h hr

theorem normalize_of_rootless {s : String} (h : root s.toList = []) :
    normalize s = .error .noAddress := by
  unfold normalize
  rw [h]
  rfl

/-- What is normalised depends on the root that is found only. -/
theorem normalize_congr {s s' : String} (h : root s.toList = root s'.toList) :
    normalize s = normalize s' := by
  unfold normalize
  rw [h]

/-- The metadata address of a root names the root. -/
theorem root_endpoint (h : IsRoot r) :
    root (String.ofList r ++ "/$metadata").toList = r := by
  have htext : (String.ofList r ++ "/$metadata").toList = r ++ slashes 1 ++ segment := by
    have hend : "/$metadata".toList = slashes 1 ++ segment := by decide
    rw [String.toList_append, String.toList_ofList, hend, List.append_assoc]
  have hsolid : Solid (r ++ slashes 1 ++ segment) := by
    refine ⟨fun c hc => ?_, fun c hc => ?_⟩
    · obtain ⟨d, cs, rfl⟩ := List.exists_cons_of_ne_nil h.ne_nil
      exact h.first c hc
    · rw [getLast?_append_segment] at hc
      obtain rfl := Option.some.inj hc
      decide
  rw [htext]
  refine root_of_whole (m := 1) (n := 0) ?_ h.last
  rw [trim_eq_self hsolid]
  exact (List.append_nil _).symm

theorem normalize_again {s a : String} (h : normalize s = .ok a) : normalize a = .ok a := by
  by_cases hroot : root s.toList = []
  · rw [normalize_of_rootless hroot] at h
    nomatch h
  · rw [normalize_of_root rfl hroot] at h
    obtain rfl := Except.ok.inj h
    exact normalize_of_root (root_endpoint (isRoot_root hroot)) hroot

theorem solid_slashes (n : Nat) : Solid (slashes n) := by
  have hslash : ∀ c ∈ slashes n, isBlank c = false := by
    intro c hc
    rw [List.eq_of_mem_replicate hc]
    decide
  exact ⟨fun c hc => hslash c (List.mem_of_mem_head? hc),
    fun c hc => hslash c (List.mem_of_mem_getLast? hc)⟩

/-- Blanks around an address and slashes at its end do not matter. -/
theorem root_surrounded {c w₁ w₂ : List Char} (hc : Solid c) (h₁ : Blank w₁) (h₂ : Blank w₂)
    (n : Nat) : root (w₁ ++ c ++ slashes n ++ w₂) = root c := by
  have htrim : trim (w₁ ++ c ++ slashes n ++ w₂) = c ++ slashes n := by
    rw [List.append_assoc w₁]
    exact trim_surrounded (hc.append (solid_slashes n)) h₁ h₂
  rw [root_eq, root_eq, htrim, dropSlashes_append, trim_eq_self hc]

/-- A text, without the blanks around it, gives no address exactly if it is nothing but slashes,
perhaps with the segment among them. Any other text gives a root that it names, followed by a slash
and the segment. An address that was given gives itself, and a text gives the same with blanks
around it and slashes at its end. -/
theorem normalize_normal :
    (∀ s : String, ∃ t, Trimmed s.toList t ∧
      (normalize s = .error .noAddress ↔ Names t []) ∧
      (¬ Names t [] → ∃ r, IsRoot r ∧ Names t r ∧
        normalize s = .ok (String.ofList r ++ "/$metadata"))) ∧
    (∀ s a, normalize s = .ok a → normalize a = .ok a) ∧
    ∀ (c w₁ w₂ : List Char) (n : Nat), Solid c → Blank w₁ → Blank w₂ →
      normalize (String.ofList (w₁ ++ c ++ slashes n ++ w₂)) = normalize (String.ofList c) := by
  refine ⟨fun s => ⟨trim s.toList, trimmed_trim _, ?_, fun h => ?_⟩, fun s a => normalize_again,
    fun c w₁ w₂ n hc h₁ h₂ => normalize_congr ?_⟩
  · rw [← root_eq_nil_iff]
    constructor
    · intro h
      by_contra hroot
      rw [normalize_of_root rfl hroot] at h
      nomatch h
    · exact normalize_of_rootless
  · rw [← root_eq_nil_iff] at h
    exact ⟨root s.toList, isRoot_root h, names_root _, normalize_of_root rfl h⟩
  · rw [String.toList_ofList, String.toList_ofList]
    exact root_surrounded hc h₁ h₂ n

/-- A blank inside an address stays, and slashes before a blank around it go. -/
theorem normalize_normal_blanks :
    normalize " http://h /$metadata// " = .ok "http://h /$metadata" ∧
      (∃ r, IsRoot r ∧
        normalize " http://h /$metadata// " = .ok (String.ofList r ++ "/$metadata")) ∧
      normalize "http://h /$metadata" = .ok "http://h /$metadata" ∧
      normalize (String.ofList ([' '] ++ "http://h /s".toList ++ slashes 2 ++ ['\n'])) =
        normalize (String.ofList "http://h /s".toList) := by
  have hgiven : normalize " http://h /$metadata// " = .ok "http://h /$metadata" := by
    decide +kernel
  obtain ⟨t, -, hnone, hsome⟩ := normalize_normal.1 " http://h /$metadata// "
  have hnames : ¬ Names t [] := by
    intro h
    rw [hnone.2 h] at hgiven
    nomatch hgiven
  obtain ⟨r, hr, -, hroot⟩ := hsome hnames
  have hsolid : Solid "http://h /s".toList := by decide +kernel
  exact ⟨hgiven, ⟨r, hr, hroot⟩, normalize_normal.2.1 _ _ hgiven,
    normalize_normal.2.2 _ _ _ 2 hsolid (by decide) (by decide)⟩

/-! ## Segments -/

/-- The root of a service: no blanks are around it, no slash is at its end, and its last segment is
not that of the metadata. -/
structure ServiceRoot (root : List Char) : Prop extends IsRoot root where
  unblank : ∀ c ∈ root.getLast?, isBlank c = false
  whole : (splitAt (· == '/') root).getLast? ≠ some segment

theorem ServiceRoot.solid (h : ServiceRoot r) : Solid r := ⟨h.first, h.unblank⟩

theorem getLast?_splitAt_segment {d : List Char} (h : d = [] ∨ d.getLast? = some '/') :
    (splitAt (· == '/') (d ++ segment)).getLast? = some segment := by
  have hpiece : splitAt (· == '/') segment = [segment] := by decide
  rcases h with rfl | h
  · rw [List.nil_append, hpiece]
    rfl
  · obtain ⟨d, rfl⟩ := List.getLast?_eq_some_iff.1 h
    rw [List.append_assoc, List.singleton_append, splitAt_append rfl, hpiece, List.getLast?_concat]

/-- What is before the segment at the end of the root of a service is a root itself. -/
theorem ServiceRoot.before {d : List Char} (h : ServiceRoot (d ++ segment)) :
    d ≠ [] ∧ d.getLast? ≠ some '/' :=
  ⟨fun hd => h.whole (getLast?_splitAt_segment (Or.inl hd)),
    fun hd => h.whole (getLast?_splitAt_segment (Or.inr hd))⟩

theorem solid_segment : Solid segment := by decide

theorem ServiceRoot.trim_slashes (h : ServiceRoot r) (k : Nat) :
    trim (r ++ slashes k) = r ++ slashes k :=
  trim_eq_self (h.solid.append (solid_slashes k))

theorem ServiceRoot.trim_whole (h : ServiceRoot r) (m k : Nat) :
    trim (r ++ slashes m ++ segment ++ slashes k) = r ++ slashes m ++ segment ++ slashes k :=
  trim_eq_self (((h.solid.append (solid_slashes m)).append solid_segment).append (solid_slashes k))

theorem ServiceRoot.normalize_whole (h : ServiceRoot r) (m k : Nat) :
    normalize (String.ofList (r ++ slashes m ++ segment ++ slashes k)) =
      .ok (String.ofList r ++ "/$metadata") :=
  normalize_ofList (root_of_whole (h.trim_whole m k) h.last) h.ne_nil

theorem ServiceRoot.normalize_bare (h : ServiceRoot r) (hsegment : ¬ segment <:+ r) (k : Nat) :
    normalize (String.ofList (r ++ slashes k)) = .ok (String.ofList r ++ "/$metadata") :=
  normalize_ofList (root_of_bare (h.trim_slashes k) h.last hsegment) h.ne_nil

/-- The characters of the segment at the end of the root of a service are taken for the segment. -/
theorem ServiceRoot.normalize_cut {d : List Char} (h : ServiceRoot (d ++ segment)) (k : Nat) :
    normalize (String.ofList (d ++ segment ++ slashes k)) =
      .ok (String.ofList d ++ "/$metadata") := by
  obtain ⟨hnil, hlast⟩ := h.before
  refine normalize_ofList (root_of_whole (m := 0) (n := k) ?_ hlast) hnil
  rw [h.trim_slashes k]
  exact congrArg (· ++ segment ++ slashes k) (List.append_nil d).symm

/-- Different roots have different metadata addresses. -/
theorem eq_of_address_eq {d : List Char}
    (h : String.ofList d ++ "/$metadata" = String.ofList r ++ "/$metadata") : d = r := by
  have hchars := congrArg String.toList h
  simp only [String.toList_append, String.toList_ofList] at hchars
  exact List.append_cancel_right hchars

/-- The root of a service with the segment between slashes behind it gives the address of that root.
With slashes behind it only, it does so unless it ends in the characters of the segment, and then it
gives the address of what is before these characters. -/
theorem normalize_root {c : List Char} (h : ServiceRoot c) (m k : Nat) :
    normalize (String.ofList (c ++ slashes m ++ segment ++ slashes k)) =
        .ok (String.ofList c ++ "/$metadata") ∧
      (normalize (String.ofList (c ++ slashes k)) = .ok (String.ofList c ++ "/$metadata") ↔
        ¬ segment <:+ c) ∧
      ∀ d, c = d ++ segment →
        normalize (String.ofList (c ++ slashes k)) = .ok (String.ofList d ++ "/$metadata") := by
  refine ⟨h.normalize_whole m k, ⟨?_, fun hsegment => h.normalize_bare hsegment k⟩, ?_⟩
  · rintro hkeep ⟨d, rfl⟩
    rw [h.normalize_cut k] at hkeep
    have hsame := eq_of_address_eq (Except.ok.inj hkeep)
    exact absurd (List.self_eq_append_right.1 hsame) (by decide)
  · rintro d rfl
    exact h.normalize_cut k

theorem serviceRoot_dollar : ServiceRoot "http://h/svc$metadata".toList := by
  have hsolid : Solid "http://h/svc$metadata".toList := by decide +kernel
  exact ⟨⟨by decide +kernel, hsolid.first, by decide +kernel⟩, hsolid.last, by decide +kernel⟩

/-- The segment behind two slashes goes, and the same characters in the root stay, unless they are
at the end of the text. -/
theorem normalize_root_twice :
    normalize "http://h/svc$metadata//$metadata/" = .ok "http://h/svc$metadata/$metadata" ∧
      normalize "http://h/svc$metadata/" = .ok "http://h/svc/$metadata" := by
  obtain ⟨hwhole, -, hcut⟩ := normalize_root serviceRoot_dollar 2 1
  exact ⟨hwhole, hcut "http://h/svc".toList (by decide +kernel)⟩

/-- The last segment of a root is `svc$metadata`, and the address is that of another root. -/
theorem normalize_shortens : ServiceRoot "http://h/svc$metadata".toList ∧
    normalize "http://h/svc$metadata" = .ok "http://h/svc/$metadata" ∧
    normalize "http://h/svc$metadata" ≠ .ok ("http://h/svc$metadata" ++ "/$metadata") :=
  ⟨serviceRoot_dollar, by decide +kernel, by decide +kernel⟩

end EdmxGen.Address
