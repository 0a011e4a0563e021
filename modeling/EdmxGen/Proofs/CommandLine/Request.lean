import EdmxGen.CommandLine.Invocation
import EdmxGen.Proofs.Run
import EdmxGen.Proofs.Text.Blank
import EdmxGen.Proofs.Text.Cut
import EdmxGen.Proofs.Text.Dictionary

/-!
# Options of a request on a command line

A header is a text with a colon. What stands in front of its first colon, without blanks around it,
is its name, and what stands behind that colon its value (`IsHeader`). The headers of a command line
are put in one after the other, so the last one of a name counts (`get?_addHeaders`), and the first
text that is no header with a name decides about failure (`addHeaders_error_iff`).
-/

namespace EdmxGen

open Text

variable {raw name value name' value' : String}

/-! ## One header -/

/-- The first colon of the text stands between these parts. -/
def Divides (raw : String) (lead rest : List Char) : Prop :=
  raw.toList = lead ++ ':' :: rest ∧ ':' ∉ lead

/-- The text is a header of this name and value; the name may be empty. -/
def IsHeader (raw name value : String) : Prop :=
  ∃ lead rest, Divides raw lead rest ∧ Trimmed lead name.toList ∧ Trimmed rest value.toList

/-- The text is no header, or one whose name is blank, and these are the words for it. -/
inductive Faulty (raw : String) : String → Prop
  | noColon (h : ':' ∉ raw.toList) : Faulty raw s!"Header '{raw}' must look like 'Name: value'"
  | emptyName {lead rest : List Char} (h : Divides raw lead rest) (hblank : Blank lead) :
    Faulty raw s!"Header '{raw}' has an empty name"

theorem divides_iff {lead rest : List Char} :
    Divides raw lead rest ↔ cut? [':'] raw.toList = some (lead, rest) :=
  cut?_char_eq_some_iff.symm

theorem exists_divides_iff : (∃ lead rest, Divides raw lead rest) ↔ ':' ∈ raw.toList := by
  constructor
  · rintro ⟨lead, rest, h, -⟩
    rw [h]
    exact List.mem_append_right _ List.mem_cons_self
  · intro h
    cases hcut : cut? [':'] raw.toList with
    | none => exact absurd h (cut?_char_eq_none_iff.1 hcut)
    | some parts => exact ⟨parts.1, parts.2, divides_iff.2 hcut⟩

theorem trimmed_iff {cs : List Char} {s : String} :
    Trimmed cs s.toList ↔ String.ofList (trim cs) = s := by
  constructor
  · intro h
    rw [h.trim_eq, String.ofList_toList]
  · rintro rfl
    rw [String.toList_ofList]
    exact trimmed_trim cs

theorem ofList_trim_eq_empty_iff {cs : List Char} :
    String.ofList (trim cs) = "" ↔ Blank cs := by
  rw [← trim_eq_nil_iff, ← String.toList_inj, String.toList_ofList]
  rfl

section

variable {lead rest : List Char} (h : Divides raw lead rest)

include h

theorem isHeader_iff : IsHeader raw name value ↔
    String.ofList (trim lead) = name ∧ String.ofList (trim rest) = value := by
  rw [← trimmed_iff, ← trimmed_iff]
  constructor
  · rintro ⟨lead', rest', h', hname, hvalue⟩
    have hsame := (divides_iff.1 h').symm.trans (divides_iff.1 h)
    obtain ⟨rfl, rfl⟩ := Prod.mk.inj (Option.some.inj hsame)
    exact ⟨hname, hvalue⟩
  · rintro ⟨hname, hvalue⟩
    exact ⟨lead, rest, h, hname, hvalue⟩

theorem parseHeader_of_divides : parseHeader raw =
    if Blank lead then .error (.emptyName raw)
    else .ok (String.ofList (trim lead), String.ofList (trim rest)) := by
  unfold parseHeader
  rw [divides_iff.1 h]
  simp only [List.isEmpty_iff, trim_eq_nil_iff]

end

theorem parseHeader_of_noColon (h : ':' ∉ raw.toList) :
    parseHeader raw = .error (.noColon raw) := by
  unfold parseHeader
  rw [cut?_char_eq_none_iff.2 h]

theorem IsHeader.unique (h : IsHeader raw name value) (h' : IsHeader raw name' value') :
    name = name' ∧ value = value' := by
  obtain ⟨lead, rest, hdivides, -⟩ := id h
  obtain ⟨rfl, rfl⟩ := (isHeader_iff hdivides).1 h
  exact (isHeader_iff hdivides).1 h'

theorem IsHeader.parse (h : IsHeader raw name value) :
    parseHeader raw = if name = "" then .error (.emptyName raw) else .ok (name, value) := by
  obtain ⟨lead, rest, hdivides, -⟩ := id h
  obtain ⟨rfl, rfl⟩ := (isHeader_iff hdivides).1 h
  rw [parseHeader_of_divides hdivides]
  simp only [ofList_trim_eq_empty_iff]

/-- Headers with a name are read. -/
theorem parseHeader_eq_ok_iff :
    parseHeader raw = .ok (name, value) ↔ name ≠ "" ∧ IsHeader raw name value := by
  constructor
  · intro h
    by_cases hcolon : ':' ∈ raw.toList
    · obtain ⟨lead, rest, hdivides⟩ := exists_divides_iff.2 hcolon
      have hheader := (isHeader_iff hdivides).2 ⟨rfl, rfl⟩
      rw [hheader.parse] at h
      split at h
      · nomatch h
      · next hname =>
        obtain ⟨rfl, rfl⟩ := Prod.mk.inj (Except.ok.inj h)
        exact ⟨hname, hheader⟩
    · rw [parseHeader_of_noColon hcolon] at h
      nomatch h
  · rintro ⟨hname, h⟩
    rw [h.parse, if_neg hname]

/-- All other texts are refused, with the words for their fault. -/
theorem faulty_iff {message : String} :
    Faulty raw message ↔ ∃ f : HeaderFault, f.message = message ∧ parseHeader raw = .error f := by
  constructor
  · rintro (h | ⟨h, hblank⟩)
    · exact ⟨.noColon raw, rfl, parseHeader_of_noColon h⟩
    · refine ⟨.emptyName raw, rfl, ?_⟩
      rw [parseHeader_of_divides h, if_pos hblank]
  · rintro ⟨f, rfl, h⟩
    by_cases hcolon : ':' ∈ raw.toList
    · obtain ⟨lead, rest, hdivides⟩ := exists_divides_iff.2 hcolon
      rw [parseHeader_of_divides hdivides] at h
      split at h
      · next hblank =>
        obtain rfl := Except.error.inj h
        exact .emptyName hdivides hblank
      · nomatch h
    · rw [parseHeader_of_noColon hcolon] at h
      obtain rfl := Except.error.inj h
      exact .noColon hcolon

/-! ## Headers one after the other -/

/-- The words are those for the first of the texts that has a fault. -/
def FirstFault (raws : List String) (message : String) : Prop :=
  ∃ before raw after, raws = before ++ raw :: after ∧
    (∀ good ∈ before, ∀ other, ¬ Faulty good other) ∧ Faulty raw message

/-- The last header of this name has this value. -/
def LastGiven (raws : List String) (name value : String) : Prop :=
  ∃ before raw after, raws = before ++ raw :: after ∧ IsHeader raw name value ∧
    ∀ later ∈ after, ∀ other, ¬ IsHeader later name other

variable {raws rest : List String} {o o' : RequestOptions}

theorem firstFault_cons {message : String} : FirstFault (raw :: rest) message ↔
    Faulty raw message ∨ (∀ other, ¬ Faulty raw other) ∧ FirstFault rest message := by
  constructor
  · rintro ⟨before, first, after, hsplit, hgood, hfault⟩
    cases before with
    | nil =>
      obtain ⟨rfl, rfl⟩ := List.cons.inj hsplit
      exact Or.inl hfault
    | cons good before =>
      obtain ⟨rfl, rfl⟩ := List.cons.inj hsplit
      obtain ⟨hgood, hbefore⟩ := List.forall_mem_cons.1 hgood
      exact Or.inr ⟨hgood, before, first, after, rfl, hbefore, hfault⟩
  · rintro (hfault | ⟨hgood, before, first, after, rfl, hbefore, hfault⟩)
    · exact ⟨[], raw, rest, rfl, by simp, hfault⟩
    · exact ⟨raw :: before, first, after, rfl, List.forall_mem_cons.2 ⟨hgood, hbefore⟩, hfault⟩

theorem exists_firstFault_iff :
    (∃ message, FirstFault raws message) ↔ ∃ raw ∈ raws, ∃ message, Faulty raw message := by
  induction raws with
  | nil => simp [FirstFault]
  | cons raw rest ih =>
    simp only [firstFault_cons, exists_or, exists_and_left, ih, List.exists_mem_cons_iff]
    constructor
    · rintro (h | ⟨-, h⟩)
      · exact Or.inl h
      · exact Or.inr h
    · intro h
      by_cases hraw : ∃ message, Faulty raw message
      · exact Or.inl hraw
      · exact Or.inr ⟨not_exists.1 hraw, h.resolve_left hraw⟩

theorem lastGiven_cons : LastGiven (raw :: rest) name value ↔
    LastGiven rest name value ∨
      IsHeader raw name value ∧ ∀ later ∈ rest, ∀ other, ¬ IsHeader later name other := by
  constructor
  · rintro ⟨before, last, after, hsplit, hheader, hafter⟩
    cases before with
    | nil =>
      obtain ⟨rfl, rfl⟩ := List.cons.inj hsplit
      exact Or.inr ⟨hheader, hafter⟩
    | cons first before =>
      obtain ⟨rfl, rfl⟩ := List.cons.inj hsplit
      exact Or.inl ⟨before, last, after, rfl, hheader, hafter⟩
  · rintro (⟨before, last, after, rfl, hheader, hafter⟩ | ⟨hheader, hafter⟩)
    · exact ⟨raw :: before, last, after, rfl, hheader, hafter⟩
    · exact ⟨[], raw, rest, rfl, hheader, hafter⟩

theorem exists_lastGiven_iff : (∃ value, LastGiven raws name value) ↔
    ∃ raw ∈ raws, ∃ value, IsHeader raw name value := by
  induction raws with
  | nil => simp [LastGiven]
  | cons raw rest ih =>
    simp only [lastGiven_cons, exists_or, exists_and_right, ih, List.exists_mem_cons_iff]
    constructor
    · rintro (h | ⟨h, -⟩)
      · exact Or.inr h
      · exact Or.inl h
    · intro h
      by_cases hrest : ∃ later ∈ rest, ∃ value, IsHeader later name value
      · exact Or.inl hrest
      · refine Or.inr ⟨h.resolve_right hrest, fun later hlater other hother => ?_⟩
        exact hrest ⟨later, hlater, other, hother⟩

namespace CommandLine.RequestArguments

theorem addHeaders_cons_ok (h : parseHeader raw = .ok (name, value)) (o : RequestOptions)
    (rest : List String) :
    addHeaders o (raw :: rest) = addHeaders (o.withHeader name value) rest := by
  rw [addHeaders, h]
  rfl

theorem addHeaders_cons_error {f : HeaderFault} (h : parseHeader raw = .error f)
    (o : RequestOptions) (rest : List String) : addHeaders o (raw :: rest) = .error f := by
  rw [addHeaders, h]
  rfl

/-- The first fault decides about failure. -/
theorem addHeaders_error_iff {message : String} :
    FirstFault raws message ↔
      ∃ f : HeaderFault, f.message = message ∧ addHeaders o raws = .error f := by
  induction raws generalizing o with
  | nil =>
    constructor
    · rintro ⟨before, raw, after, hsplit, -⟩
      simp at hsplit
    · rintro ⟨f, -, h⟩
      nomatch h
  | cons raw rest ih =>
    rw [firstFault_cons]
    cases hparse : parseHeader raw with
    | error f =>
      have hfaulty : Faulty raw f.message := faulty_iff.2 ⟨f, rfl, hparse⟩
      rw [addHeaders_cons_error hparse, faulty_iff, hparse]
      constructor
      · rintro (⟨f', hwords, h⟩ | ⟨hgood, -⟩)
        · obtain rfl := Except.error.inj h
          exact ⟨f, hwords, rfl⟩
        · exact absurd hfaulty (hgood _)
      · rintro ⟨f', hwords, h⟩
        obtain rfl := Except.error.inj h
        exact Or.inl ⟨f, hwords, rfl⟩
    | ok header =>
      have hgood : ∀ other, ¬ Faulty raw other := by
        intro other hfaulty
        obtain ⟨f, -, h⟩ := faulty_iff.1 hfaulty
        rw [hparse] at h
        nomatch h
      rw [addHeaders_cons_ok hparse, ← ih]
      exact ⟨fun h => (h.resolve_left (hgood _)).2, fun h => Or.inr ⟨hgood, h⟩⟩

/-- Headers change nothing but the headers. -/
theorem addHeaders_ok (h : addHeaders o raws = .ok o') : o' = { o with headers := o'.headers } := by
  induction raws generalizing o with
  | nil =>
    obtain rfl := Except.ok.inj h
    rfl
  | cons raw rest ih =>
    cases hparse : parseHeader raw with
    | error f =>
      rw [addHeaders_cons_error hparse] at h
      nomatch h
    | ok header =>
      rw [addHeaders_cons_ok hparse] at h
      rw [ih h]
      rfl

/-- The last header of a name counts, and before all of them what was there. -/
theorem get?_addHeaders (h : addHeaders o raws = .ok o') :
    o'.headers.get? name = some value ↔ LastGiven raws name value ∨
      (∀ raw ∈ raws, ∀ other, ¬ IsHeader raw name other) ∧ o.headers.get? name = some value := by
  induction raws generalizing o with
  | nil =>
    obtain rfl := Except.ok.inj h
    constructor
    · intro hget
      exact Or.inr ⟨by simp, hget⟩
    · rintro (⟨before, raw, after, hsplit, -⟩ | ⟨-, hget⟩)
      · simp at hsplit
      · exact hget
  | cons raw rest ih =>
    cases hparse : parseHeader raw with
    | error f =>
      rw [addHeaders_cons_error hparse] at h
      nomatch h
    | ok header =>
      obtain ⟨given, text⟩ := header
      have hheader := (parseHeader_eq_ok_iff.1 hparse).2
      rw [addHeaders_cons_ok hparse] at h
      rw [ih h, lastGiven_cons, List.forall_mem_cons]
      show _ ∨ _ ∧ (o.headers.insert given text).get? name = some value ↔ _
      rw [Dictionary.get?_insert]
      by_cases hname : name = given
      · subst hname
        have hvalue : IsHeader raw name value ↔ some text = some value := by
          rw [Option.some.injEq]
          exact ⟨fun h => (hheader.unique h).2, fun h => h ▸ hheader⟩
        have hgiven : ¬ ∀ other, ¬ IsHeader raw name other := fun h => h text hheader
        rw [if_pos rfl, hvalue]
        simp only [hgiven, false_and, or_false, and_comm]
      · have hother : ∀ other, ¬ IsHeader raw name other := fun other h =>
          hname (h.unique hheader).1
        rw [if_neg hname]
        simp only [hother, false_and, or_false, not_false_eq_true, implies_true, true_and]

theorem addHeaders_append (before after : List String) (o : RequestOptions) :
    addHeaders o (before ++ after) = addHeaders o before >>= fun o' => addHeaders o' after := by
  induction before generalizing o with
  | nil => rfl
  | cons raw before ih =>
    rw [List.cons_append]
    cases hparse : parseHeader raw with
    | error f =>
      rw [addHeaders_cons_error hparse, addHeaders_cons_error hparse]
      rfl
    | ok header => rw [addHeaders_cons_ok hparse, addHeaders_cons_ok hparse, ih]

theorem withHeader_comm (o : RequestOptions) (h : name ≠ name') (value value' : String) :
    (o.withHeader name value).withHeader name' value' =
      (o.withHeader name' value').withHeader name value := by
  unfold RequestOptions.withHeader
  rw [Dictionary.insert_comm _ h]

/-- Headers of different names can change places, even if one of the names is blank. -/
theorem addHeaders_swap {first second : String} (hfirst : IsHeader first name value)
    (hsecond : IsHeader second name' value') (h : name ≠ name') (o : RequestOptions)
    (rest : List String) :
    addHeaders o (first :: second :: rest) = addHeaders o (second :: first :: rest) := by
  have hparse := hfirst.parse
  have hparse' := hsecond.parse
  by_cases hname : name = ""
  · rw [if_pos hname] at hparse
    rw [if_neg (hname ▸ Ne.symm h)] at hparse'
    rw [addHeaders_cons_error hparse, addHeaders_cons_ok hparse', addHeaders_cons_error hparse]
  · rw [if_neg hname] at hparse
    by_cases hname' : name' = ""
    · rw [if_pos hname'] at hparse'
      rw [addHeaders_cons_ok hparse, addHeaders_cons_error hparse', addHeaders_cons_error hparse']
    · rw [if_neg hname'] at hparse'
      rw [addHeaders_cons_ok hparse, addHeaders_cons_ok hparse', addHeaders_cons_ok hparse',
        addHeaders_cons_ok hparse, withHeader_comm o h]

/-! ## All options -/

/-- The options without headers and credentials. -/
def bare (r : RequestArguments) : RequestOptions where
  timeout := r.timeout
  strictSsl := if r.insecure then some false else none
  proxy := r.proxy

/-- The credentials, if there is a name or a token. -/
def credentials (r : RequestArguments) : Option Auth :=
  if r.user.isSome || r.bearer.isSome then some ⟨r.user, r.pass, r.bearer⟩ else none

theorem toOptions_eq (r : RequestArguments) : r.toOptions =
    (addHeaders r.bare r.headers).map fun o => { o with auth := r.credentials } := by
  show (addHeaders r.bare r.headers >>= _) = _
  cases hadd : addHeaders r.bare r.headers with
  | error f => rfl
  | ok o =>
    have hauth : o.auth = none := by
      rw [addHeaders_ok hadd]
      rfl
    show (if r.user.isSome || r.bearer.isSome then _ else _) = Except.ok _
    unfold credentials
    split
    · rfl
    · rw [← hauth]
      rfl

theorem toOptions_error_iff {r : RequestArguments} {f : HeaderFault} :
    r.toOptions = .error f ↔ addHeaders r.bare r.headers = .error f := by
  rw [toOptions_eq]
  cases addHeaders r.bare r.headers <;> simp [Except.map]

theorem exists_of_toOptions {r : RequestArguments} {o : RequestOptions} (h : r.toOptions = .ok o) :
    ∃ o', addHeaders r.bare r.headers = .ok o' ∧
      o = { r.bare with headers := o'.headers, auth := r.credentials } := by
  rw [toOptions_eq] at h
  cases hadd : addHeaders r.bare r.headers with
  | error f =>
    rw [hadd] at h
    nomatch h
  | ok o' =>
    rw [hadd] at h
    obtain rfl := Except.ok.inj h
    refine ⟨o', rfl, ?_⟩
    rw [addHeaders_ok hadd]

theorem get?_toOptions {r : RequestArguments} {o : RequestOptions} (h : r.toOptions = .ok o) :
    o.headers.get? name = some value ↔ LastGiven r.headers name value := by
  obtain ⟨o', hadd, rfl⟩ := exists_of_toOptions h
  show o'.headers.get? name = some value ↔ _
  rw [get?_addHeaders hadd]
  exact or_iff_left fun hbare => nomatch hbare.2

/-- Options of a request cannot be made exactly if a text has no colon or a blank in front of its
first one, and then the first such text is told. Otherwise they have exactly the headers that are
given, of each name the last one, and the credentials as they are given if there is a name or a
token. Neighbouring headers of different names can change places. -/
theorem toOptions_given (r : RequestArguments) :
    (∀ message, (∃ f : HeaderFault, f.message = message ∧ r.toOptions = .error f) ↔
      FirstFault r.headers message) ∧
    ((∃ f, r.toOptions = .error f) ↔ ∃ raw ∈ r.headers, ∃ message, Faulty raw message) ∧
    (∀ o, r.toOptions = .ok o →
      (∀ name, (∃ value, o.headers.get? name = some value) ↔
        ∃ raw ∈ r.headers, ∃ value, IsHeader raw name value) ∧
      (∀ name value, o.headers.get? name = some value ↔ LastGiven r.headers name value) ∧
      o.auth = (if r.user.isSome || r.bearer.isSome then some ⟨r.user, r.pass, r.bearer⟩
        else none) ∧
      o.timeout = r.timeout ∧ o.strictSsl = (if r.insecure then some false else none) ∧
      o.proxy = r.proxy) ∧
    (∀ before first second after name name' value value',
      r.headers = before ++ first :: second :: after →
      IsHeader first name value → IsHeader second name' value' → name ≠ name' →
      toOptions { r with headers := before ++ second :: first :: after } = r.toOptions) := by
  have hfault : ∀ message, (∃ f : HeaderFault, f.message = message ∧ r.toOptions = .error f) ↔
      FirstFault r.headers message := by
    intro message
    rw [addHeaders_error_iff (o := r.bare)]
    simp only [toOptions_error_iff]
  refine ⟨hfault, ?_, fun o h => ⟨fun name => ?_, fun name value => get?_toOptions h, ?_⟩, ?_⟩
  · rw [← exists_firstFault_iff]
    constructor
    · rintro ⟨f, h⟩
      exact ⟨f.message, (hfault _).1 ⟨f, rfl, h⟩⟩
    · rintro ⟨message, h⟩
      obtain ⟨f, -, hf⟩ := (hfault _).2 h
      exact ⟨f, hf⟩
  · rw [← exists_lastGiven_iff]
    simp only [get?_toOptions h]
  · obtain ⟨o', -, rfl⟩ := exists_of_toOptions h
    exact ⟨rfl, rfl, rfl, rfl⟩
  · intro before first second after name name' value value' hheaders hfirst hsecond hname
    rw [toOptions_eq, toOptions_eq, hheaders, addHeaders_append, addHeaders_append]
    simp only [addHeaders_swap hfirst hsecond hname]
    rfl

/-- Two spellings of one name around another one, and a password without a name. -/
def twice : RequestArguments where
  headers := ["A: 1", "B:2", " A :3:4"]
  pass := some "p"
  bearer := some "t"

/-- The second spelling counts with its whole value, and the first can come after the other name. -/
theorem toOptions_given_twice :
    ∃ o, twice.toOptions = .ok o ∧ o.headers.get? "A" = some "3:4" ∧
      o.auth = some ⟨none, some "p", some "t"⟩ ∧
      toOptions { twice with headers := ["B:2", "A: 1", " A :3:4"] } = twice.toOptions := by
  have hA : IsHeader "A: 1" "A" "1" := (parseHeader_eq_ok_iff.1 (by decide +kernel)).2
  have hB : IsHeader "B:2" "B" "2" := (parseHeader_eq_ok_iff.1 (by decide +kernel)).2
  have hlast : IsHeader " A :3:4" "A" "3:4" := (parseHeader_eq_ok_iff.1 (by decide +kernel)).2
  obtain ⟨o, ho⟩ : ∃ o, twice.toOptions = .ok o := ⟨_, rfl⟩
  obtain ⟨-, -, hok, hswap⟩ := toOptions_given twice
  obtain ⟨-, hget, hauth, -⟩ := hok o ho
  refine ⟨o, ho, (hget _ _).2 ⟨["A: 1", "B:2"], _, [], rfl, hlast, by simp⟩, hauth, ?_⟩
  exact hswap [] "A: 1" "B:2" [" A :3:4"] "A" "B" "1" "2" rfl hA hB (by decide)

end CommandLine.RequestArguments

end EdmxGen
