import EdmxGen.Proofs.Json.Schema
import EdmxGen.Proofs.Text.Dictionary
import EdmxGen.Proofs.Json.Torn
import EdmxGen.Settings.Json

/-!
# Settings are read back

Every reader of settings gives back what was written, and does so from every value that keeps what
it knows of it (`FileSettings.read_kept`). From the written form of the settings of a file that
breaks off, the reader learns that the text has ended (`read_torn`).
-/

namespace EdmxGen

open Json

/-! ## Scalars -/

theorem optional_string (s : String) :
    Draft.optional Draft.asString (Draft.ofJson (.str s)) = .ok (some s) := rfl

theorem optional_natural (n : UInt64) :
    Draft.optional Draft.asUInt64 (Draft.ofJson (.num (.natural n))) = .ok (some n) := rfl

theorem optional_bool (b : Bool) :
    Draft.optional Draft.asBool (Draft.ofJson (.bool b)) = .ok (some b) := rfl

/-- A value that must stay the same is read as it was. -/
theorem read_value {α β : Type} {reader : Reader β} {f : α → Json} {g : α → β}
    (h : ∀ a, reader (Draft.ofJson (f a)) = .ok (g a)) :
    ∀ a w, Schema.value.Keeps (f a) w → reader (Draft.ofJson w) = .ok (g a) := by
  rintro a _ rfl
  exact h a

theorem Modularity.read_ofJson (origin : Origin) (m : Modularity) :
    Modularity.read origin (Draft.ofJson m.toJson) = .ok m := by
  cases m <;> cases origin <;> rfl

namespace Auth

variable (a : Auth)

/-- What a reader knows of credentials. -/
def schema : Schema := .record ["user", "pass", "bearer"] fun _ => .value

theorem keeps : schema.Keeps a.toJson a.toJson := by
  refine keeps_record (distinct_of_sublist ?_ (by decide : ["user", "pass", "bearer"].Nodup))
    fun _ _ _ _ => rfl
  rw [List.map_append, List.map_append]
  exact (keys_memberOf.append keys_memberOf).append keys_memberOf

theorem names_fields : fields.map Field.name = ["user", "pass", "bearer"] := rfl

/-- What stands under a known name is read as it was written. -/
theorem checks : ∀ f ∈ fields, ∀ v, member? f.name a.toJson = some v → ∀ w,
    Schema.value.Keeps v w → f.check (Draft.ofJson w) = .ok () := by
  unfold toJson
  simp only [fields, List.forall_mem_cons]
  refine ⟨?_, ?_, ?_, by simp⟩
  all_goals
    intro v hv w hw
    obtain ⟨s, -, rfl⟩ : ∃ s, _ = some s ∧ Json.str s = v := by
      simpa [Field.defaulted] using hv
    exact check_defaulted (read_value optional_string s w hw)

theorem read_kept (origin : Origin) {w : Json} (h : schema.Keeps a.toJson w) :
    read origin (Draft.ofJson w) = .ok a := by
  have htext := read_value optional_string
  obtain ⟨given, hgiven, hholds⟩ := asRecord_kept origin "Auth" names_fields h a.checks
  have huser : given.defaulted "user" readText none = .ok a.user := by
    have hheld : given.Holds "user" .value (a.user.map .str) := by
      simpa using hholds "user" (by decide)
    exact hheld.defaulted_map htext
  have hpass : given.defaulted "pass" readText none = .ok a.pass := by
    have hheld : given.Holds "pass" .value (a.pass.map .str) := by
      simpa using hholds "pass" (by decide)
    exact hheld.defaulted_map htext
  have hbearer : given.defaulted "bearer" readText none = .ok a.bearer := by
    have hheld : given.Holds "bearer" .value (a.bearer.map .str) := by
      simpa using hholds "bearer" (by decide)
    exact hheld.defaulted_map htext
  simp only [read, hgiven, huser, hpass, hbearer, bind, Except.bind, pure, Except.pure]

end Auth

namespace RequestOptions

theorem eachEntry_ofMembers (es : List (String × String)) :
    Draft.eachEntry (Draft.ofMembers (es.map fun e => (e.1, .str e.2))) = .ok es := by
  induction es with
  | nil => rfl
  | cons e es ih =>
    rw [List.map_cons, Draft.ofMembers, Draft.eachEntry, ih]
    rfl

/-- Members in another order are those of entries in another order. -/
theorem exists_entries {es : List (String × String)} {ns : List (String × Json)}
    (h : (es.map fun e => (e.1, Json.str e.2)).Perm ns) :
    ∃ es', es.Perm es' ∧ ns = es'.map fun e => (e.1, Json.str e.2) := by
  have hinj : Function.Injective fun e : String × String => (e.1, Json.str e.2) := by
    intro e e' heq
    obtain ⟨hkey, htext⟩ := Prod.mk.inj heq
    exact Prod.ext hkey (Json.str.inj htext)
  obtain ⟨es', rfl⟩ : ∃ es' : List (String × String),
      es'.map (fun e => (e.1, Json.str e.2)) = ns := by
    have hrange : ∀ n ∈ ns, ∃ e : String × String, (e.1, Json.str e.2) = n := by
      intro n hn
      obtain ⟨e, -, he⟩ := List.mem_map.1 (h.mem_iff.2 hn)
      exact ⟨e, he⟩
    clear h
    induction ns with
    | nil => exact ⟨[], rfl⟩
    | cons n ns ih =>
      obtain ⟨e, he⟩ := hrange n List.mem_cons_self
      obtain ⟨es', hes⟩ := ih fun m hm => hrange m (List.mem_cons_of_mem _ hm)
      exact ⟨e :: es', by rw [List.map_cons, he, hes]⟩
  exact ⟨es', (List.map_perm_map_iff hinj).1 h, rfl⟩

theorem readHeaders_kept (h : Text.Dictionary) (w : Json)
    (hw : Schema.dictionary.Keeps (headersToJson h) w) : readHeaders (Draft.ofJson w) = .ok h := by
  obtain ⟨ms, ns, hms, rfl, hp⟩ := hw
  obtain rfl := Json.obj.inj hms
  obtain ⟨es, hes, rfl⟩ := exists_entries hp
  rw [readHeaders, Draft.ofJson, Draft.asEntries, eachEntry_ofMembers]
  show Except.ok (Text.Dictionary.ofList es) = .ok h
  rw [← Text.Dictionary.ofList_perm hes h.keys_nodup, Text.Dictionary.ofList_entries]

theorem optional_auth (origin : Origin) (a : Auth) (w : Json) (hw : Auth.schema.Keeps a.toJson w) :
    Draft.optional (Auth.read origin) (Draft.ofJson w) = .ok (some a) := by
  obtain ⟨_, ns, -, rfl, -⟩ := id hw
  exact optional_obj (a.read_kept origin hw)

theorem names_fields (origin : Origin) : (fields origin).map Field.name =
    ["headers", "auth", "timeout", "strictSSL", "proxy"] := rfl

/-- What a reader knows of request options. -/
def schema : Schema :=
  .record ["headers", "auth", "timeout", "strictSSL", "proxy"] fun key =>
    if key = "headers" then .dictionary else if key = "auth" then Auth.schema else .value

variable (o : RequestOptions)

/-- The headers, if there are any. -/
def sent : Option Text.Dictionary := if o.headers.isEmpty then none else some o.headers

def members : List (String × Json) :=
  memberOf "headers" headersToJson o.sent ++ memberOf "auth" Auth.toJson o.auth ++
    memberOf "timeout" (fun n => .num (.natural n)) o.timeout ++
    memberOf "strictSSL" .bool o.strictSsl ++ memberOf "proxy" .str o.proxy

theorem toJson_eq : o.toJson = .obj o.members := by
  rw [toJson, members, sent]
  split <;> rfl

theorem distinct (names : List String) : Distinct names o.members := by
  refine distinct_of_sublist ?_ (by decide : ((fields .text).map Field.name).Nodup)
  rw [names_fields, members]
  simp only [List.map_append]
  exact (((keys_memberOf.append keys_memberOf).append keys_memberOf).append keys_memberOf).append
    keys_memberOf

theorem keeps : schema.Keeps o.toJson o.toJson := by
  rw [toJson_eq]
  refine keeps_record (o.distinct _) ?_
  intro key _ v hv
  by_cases hheaders : key = "headers"
  · rw [if_pos hheaders]
    obtain ⟨h, -, rfl⟩ : ∃ h, o.sent = some h ∧ headersToJson h = v := by
      simpa [members, hheaders] using hv
    exact ⟨_, _, rfl, rfl, List.Perm.refl _⟩
  rw [if_neg hheaders]
  by_cases hauth : key = "auth"
  · rw [if_pos hauth]
    obtain ⟨a, -, rfl⟩ : ∃ a, o.auth = some a ∧ a.toJson = v := by simpa [members, hauth] using hv
    exact a.keeps
  · rw [if_neg hauth]
    rfl

/-- What stands under a known name is read as it was written. -/
theorem checks (origin : Origin) : ∀ f ∈ fields origin, ∀ v,
    member? f.name (.obj o.members) = some v → ∀ w,
    (if f.name = "headers" then Schema.dictionary else if f.name = "auth" then Auth.schema
      else .value).Keeps v w → f.check (Draft.ofJson w) = .ok () := by
  simp only [fields, List.forall_mem_cons]
  refine ⟨?_, ?_, ?_, ?_, ?_, by simp⟩ <;> intro v hv w hw
  · obtain ⟨h, -, rfl⟩ : ∃ h, o.sent = some h ∧ headersToJson h = v := by
      simpa [Field.defaulted, members] using hv
    exact check_defaulted (readHeaders_kept h w hw)
  · obtain ⟨a, -, rfl⟩ : ∃ a, o.auth = some a ∧ a.toJson = v := by
      simpa [Field.defaulted, members] using hv
    exact check_defaulted (optional_auth origin a w hw)
  · obtain ⟨n, -, rfl⟩ : ∃ n, o.timeout = some n ∧ Json.num (.natural n) = v := by
      simpa [Field.defaulted, members] using hv
    exact check_defaulted (read_value optional_natural n w hw)
  · obtain ⟨b, -, rfl⟩ : ∃ b, o.strictSsl = some b ∧ Json.bool b = v := by
      simpa [Field.defaulted, members] using hv
    exact check_defaulted (read_value optional_bool b w hw)
  · obtain ⟨s, -, rfl⟩ : ∃ s, o.proxy = some s ∧ Json.str s = v := by
      simpa [Field.defaulted, members] using hv
    exact check_defaulted (read_value optional_string s w hw)

theorem read_kept (origin : Origin) {w : Json} (h : schema.Keeps o.toJson w) :
    read origin (Draft.ofJson w) = .ok o := by
  rw [toJson_eq] at h
  obtain ⟨given, hgiven, hholds⟩ :=
    asRecord_kept origin "RequestOptions" (names_fields origin) h (o.checks origin)
  have hheaders : given.defaulted "headers" readHeaders .empty = .ok o.headers := by
    have hheld : given.Holds "headers" .dictionary (o.sent.map headersToJson) := by
      simpa [members] using hholds "headers" (by decide)
    by_cases he : o.headers.isEmpty
    · rw [sent, if_pos he] at hheld
      rw [hheld.defaulted_none, Text.Dictionary.eq_empty he]
    · rw [sent, if_neg he] at hheld
      exact hheld.defaulted_some _ (readHeaders_kept o.headers)
  have hauth : given.defaulted "auth" (Draft.optional (Auth.read origin)) none = .ok o.auth := by
    have hheld : given.Holds "auth" Auth.schema (o.auth.map Auth.toJson) := by
      simpa [members] using hholds "auth" (by decide)
    exact hheld.defaulted_map (optional_auth origin)
  have htimeout :
      given.defaulted "timeout" (Draft.optional Draft.asUInt64) none = .ok o.timeout := by
    have hheld : given.Holds "timeout" .value (o.timeout.map fun n => .num (.natural n)) := by
      simpa [members] using hholds "timeout" (by decide)
    exact hheld.defaulted_map (read_value optional_natural)
  have hssl : given.defaulted "strictSSL" (Draft.optional Draft.asBool) none = .ok o.strictSsl := by
    have hheld : given.Holds "strictSSL" .value (o.strictSsl.map .bool) := by
      simpa [members] using hholds "strictSSL" (by decide)
    exact hheld.defaulted_map (read_value optional_bool)
  have hproxy : given.defaulted "proxy" Auth.readText none = .ok o.proxy := by
    have hheld : given.Holds "proxy" .value (o.proxy.map .str) := by
      simpa [members] using hholds "proxy" (by decide)
    exact hheld.defaulted_map (read_value optional_string)
  simp only [read, hgiven, hheaders, hauth, htimeout, hssl, hproxy, bind, Except.bind, pure,
    Except.pure]

end RequestOptions

/-! ## The settings of a service -/

namespace ServiceSettings

theorem names_fields (origin : Origin) : (fields origin).map Field.name =
    ["source", "modularity", "requestOptions"] := rfl

/-- What a reader knows of the member with a name. -/
def inner (key : String) : Schema :=
  if key = "requestOptions" then RequestOptions.schema else .value

/-- What a reader knows of the settings of a service. -/
def schema : Schema := .record ["source", "modularity", "requestOptions"] inner

variable (s : ServiceSettings)

theorem keys_members : s.members.map Prod.fst = ["source", "modularity", "requestOptions"] := rfl

theorem keeps_member {key : String} {v : Json} (hv : member? key (.obj s.members) = some v) :
    (inner key).Keeps v v := by
  unfold inner
  by_cases hoptions : key = "requestOptions"
  · rw [if_pos hoptions]
    obtain rfl : s.requestOptions.toJson = v := by simpa [members, hoptions] using hv
    exact s.requestOptions.keeps
  · rw [if_neg hoptions]
    rfl

theorem checks (origin : Origin) : ∀ f ∈ fields origin, ∀ v,
    member? f.name (.obj s.members) = some v → ∀ w, (inner f.name).Keeps v w →
    f.check (Draft.ofJson w) = .ok () := by
  simp only [fields, List.forall_mem_cons]
  refine ⟨?_, ?_, ?_, by simp⟩ <;> intro v hv w hw
  · obtain rfl : Json.str s.source = v := by simpa [Field.required, members] using hv
    obtain rfl : Json.str s.source = w := hw
    rfl
  · obtain rfl : s.modularity.toJson = v := by simpa [Field.required, members] using hv
    obtain rfl : s.modularity.toJson = w := hw
    exact check_required (s.modularity.read_ofJson origin)
  · obtain rfl : s.requestOptions.toJson = v := by simpa [Field.defaulted, members] using hv
    exact check_defaulted (s.requestOptions.read_kept origin hw)

/-- The settings of a record whose fields keep the values that were written. -/
theorem ofGiven_kept (origin : Origin) {given : Given}
    (hholds : ∀ key ∈ ["source", "modularity", "requestOptions"],
      given.Holds key (inner key) (member? key (.obj s.members))) :
    ofGiven origin given = .ok s := by
  have hsource : given.required "source" Draft.asString = .ok s.source := by
    have hheld : given.Holds "source" .value (some (.str s.source)) := by
      simpa [members, inner] using hholds "source" (by decide)
    exact hheld.required (by rintro _ rfl; rfl)
  have hmodularity : given.required "modularity" (Modularity.read origin) = .ok s.modularity := by
    have hheld : given.Holds "modularity" .value (some s.modularity.toJson) := by
      simpa [members, inner] using hholds "modularity" (by decide)
    exact hheld.required (by rintro _ rfl; exact s.modularity.read_ofJson origin)
  have hoptions : given.defaulted "requestOptions" (RequestOptions.read origin) {} =
      .ok s.requestOptions := by
    have hheld :
        given.Holds "requestOptions" RequestOptions.schema (some s.requestOptions.toJson) := by
      simpa [members, inner] using hholds "requestOptions" (by decide)
    exact hheld.defaulted_some _ fun w => s.requestOptions.read_kept origin
  simp only [ofGiven, hsource, hmodularity, hoptions, bind, Except.bind, pure, Except.pure]

end ServiceSettings

/-! ## Depth -/

theorem Auth.depth_toJson (a : Auth) : depth a.toJson ≤ 1 := by
  have h : ∀ k o, depthOfMembers (memberOf k .str o) ≤ 0 := fun k o =>
    depthOfMembers_memberOf fun s => Nat.le_refl 0
  have huser := h "user" a.user
  have hpass := h "pass" a.pass
  have hbearer := h "bearer" a.bearer
  simp only [toJson, depth, depthOfMembers_append]
  omega

theorem RequestOptions.depth_toJson (o : RequestOptions) : depth o.toJson ≤ 2 := by
  have hheaders : depthOfMembers (memberOf "headers" headersToJson o.sent) ≤ 1 :=
    depthOfMembers_memberOf fun h =>
      Nat.succ_le_succ (depthOfMembers_map (fun e => Nat.le_refl 0) h.entries)
  have hauth : depthOfMembers (memberOf "auth" Auth.toJson o.auth) ≤ 1 :=
    depthOfMembers_memberOf Auth.depth_toJson
  have htimeout :
      depthOfMembers (memberOf "timeout" (fun n => .num (.natural n)) o.timeout) ≤ 1 :=
    depthOfMembers_memberOf fun n => Nat.zero_le 1
  have hssl : depthOfMembers (memberOf "strictSSL" .bool o.strictSsl) ≤ 1 :=
    depthOfMembers_memberOf fun b => Nat.zero_le 1
  have hproxy : depthOfMembers (memberOf "proxy" .str o.proxy) ≤ 1 :=
    depthOfMembers_memberOf fun s => Nat.zero_le 1
  simp only [toJson_eq, members, depth, depthOfMembers_append]
  omega

theorem ServiceSettings.depthOfMembers_members (s : ServiceSettings) :
    depthOfMembers s.members ≤ 2 := by
  have hoptions := s.requestOptions.depth_toJson
  simp only [members, Modularity.toJson, depthOfMembers, depth]
  omega

/-! ## The settings of a file -/

namespace FileSettings

def members (s : FileSettings) : List (String × Json) :=
  s.service.members ++ memberOf "useTemplate" .str s.template

theorem toJson_eq (s : FileSettings) : s.toJson = .obj s.members := rfl

theorem depthOfMembers_members (s : FileSettings) : depthOfMembers s.members ≤ 2 := by
  rw [members, depthOfMembers_append, Nat.max_le]
  exact ⟨s.service.depthOfMembers_members,
    depthOfMembers_memberOf (f := .str) fun t => Nat.zero_le 2⟩

/-- What a reader knows of the settings of a file. -/
def schema : Schema :=
  .record ["source", "modularity", "requestOptions", "useTemplate"] ServiceSettings.inner

theorem service_keys (s : ServiceSettings) : ∀ m ∈ s.members, m.1 ≠ "useTemplate" := by
  simp [ServiceSettings.members]

theorem keys_sublist (s : FileSettings) :
    (s.members.map Prod.fst).Sublist ["source", "modularity", "requestOptions", "useTemplate"] := by
  rw [members, List.map_append, s.service.keys_members]
  exact (List.Sublist.refl ["source", "modularity", "requestOptions"]).append keys_memberOf

theorem member?_members (s : FileSettings) {key : String} (h : key ≠ "useTemplate") :
    member? key (.obj s.members) = member? key (.obj s.service.members) := by
  simp [members, Ne.symm h]

theorem keeps (s : FileSettings) : schema.Keeps s.toJson s.toJson := by
  rw [toJson_eq]
  refine keeps_record (distinct_of_sublist s.keys_sublist (by decide)) ?_
  intro key _ v hv
  by_cases htemplate : key = "useTemplate"
  · subst htemplate
    rfl
  · rw [s.member?_members htemplate] at hv
    exact s.service.keeps_member hv

/-- The members that are not the template are held back. -/
theorem hold_others (held : Held) {ms : List (String × Json)}
    (hd : depthOfMembers ms ≤ maxDepth - 1) (hms : ∀ m ∈ ms, m.1 ≠ "useTemplate")
    (rest : List Draft.Member) :
    hold held (Draft.ofMembers ms ++ rest) =
      hold { held with members := held.members ++ ms } rest := by
  induction ms generalizing held with
  | nil => simp [Draft.ofMembers]
  | cons m ms ih =>
    rw [depthOfMembers, Nat.max_le] at hd
    rw [Draft.ofMembers, List.cons_append, hold]
    simp only [bind, Except.bind, if_neg (hms m List.mem_cons_self),
      Draft.toJson_ofJson m.2 hd.1]
    rw [ih _ hd.2 fun n hn => hms n (List.mem_cons_of_mem _ hn)]
    simp

/-- Of members with one template at most, it is read and the others are held back. -/
theorem hold_members {ns : List (String × Json)} {o : Option String}
    (hd : depthOfMembers ns ≤ maxDepth - 1) (hns : Distinct ["useTemplate"] ns)
    (ho : member? "useTemplate" (.obj ns) = o.map .str) :
    ∃ t others, hold {} (Draft.ofMembers ns) = .ok ⟨t, others⟩ ∧ t.join = o ∧
      others.Sublist ns ∧
      ∀ key, key ≠ "useTemplate" → member? key (.obj others) = member? key (.obj ns) := by
  have hnone : ∀ {ms : List (String × Json)}, member? "useTemplate" (.obj ms) = none →
      ∀ m ∈ ms, m.1 ≠ "useTemplate" := by
    intro ms h m hm
    rw [member?, Option.map_eq_none_iff, List.find?_eq_none] at h
    simpa using h m hm
  cases o with
  | none =>
    refine ⟨none, ns, ?_, rfl, List.Sublist.refl _, fun _ _ => rfl⟩
    have := hold_others {} hd (hnone ho) []
    rwa [List.append_nil] at this
  | some t =>
    -- the template divides the members
    obtain ⟨as, bs, rfl⟩ := List.append_of_mem
      ((member?_eq_some_iff hns List.mem_cons_self).1 ho)
    obtain ⟨-, htail, hcross⟩ := List.pairwise_append.1 hns
    have has : ∀ m ∈ as, m.1 ≠ "useTemplate" := by
      intro m hm heq
      exact hcross m hm _ List.mem_cons_self heq (by rw [heq]; exact List.mem_cons_self)
    have hbs : ∀ m ∈ bs, m.1 ≠ "useTemplate" := by
      intro m hm heq
      exact (List.pairwise_cons.1 htail).1 m hm heq.symm List.mem_cons_self
    rw [depthOfMembers_append, depthOfMembers, Nat.max_le, Nat.max_le] at hd
    refine ⟨some (some t), as ++ bs, ?_, rfl, ?_, fun key hkey => ?_⟩
    · rw [Draft.ofMembers_append, hold_others {} hd.1 has]
      have := hold_others ⟨some (some t), as⟩ hd.2.2 hbs []
      rw [List.append_nil] at this
      exact this
    · exact (List.Sublist.refl as).append (List.sublist_cons_self _ bs)
    · rw [member?_append, member?_append, member?_cons, if_neg (Ne.symm hkey)]

/-- The settings are read from every value that keeps what a reader knows of them. -/
theorem read_kept (s : FileSettings) {w : Json} (h : schema.Keeps s.toJson w)
    (hd : depth w ≤ maxDepth) : read (Draft.ofJson w) = .ok s := by
  obtain ⟨ms, ns, hms, rfl, hdistinct, hkept⟩ := h
  obtain rfl : s.members = ms := Json.obj.inj hms
  have htemplate : member? "useTemplate" (.obj ns) = s.template.map .str := by
    have hrel := hkept "useTemplate" (by decide)
    rw [show member? "useTemplate" (.obj s.members) = s.template.map .str by
      simp [members, ServiceSettings.members]] at hrel
    revert hrel
    generalize member? "useTemplate" (.obj ns) = o
    intro hrel
    cases ht : s.template with
    | none => rw [ht] at hrel; cases hrel; rfl
    | some t =>
      rw [ht] at hrel
      cases hrel with
      | some heq => exact congrArg some (show Json.str t = _ from heq).symm
  obtain ⟨t, others, hhold, ht, hsub, hmember⟩ := hold_members
    (Nat.le_sub_one_of_lt (Nat.lt_of_succ_le hd))
    (hdistinct.mono (by decide)) htemplate
  have hothers : ServiceSettings.schema.Keeps s.service.toJson (.obj others) := by
    refine ⟨_, _, rfl, rfl, Distinct.mono (List.Pairwise.sublist hsub hdistinct) (by decide), ?_⟩
    intro key hkey
    have hne : key ≠ "useTemplate" := by
      rintro rfl
      exact absurd hkey (by decide)
    rw [hmember key hne, ← s.member?_members hne]
    exact hkept key (List.mem_append_left ["useTemplate"] hkey)
  obtain ⟨given, hgiven, hholds⟩ :=
    gather_kept (ServiceSettings.names_fields .held) hothers (s.service.checks .held)
  have hservice := s.service.ofGiven_kept .held hholds
  rw [Draft.ofJson, read]
  simp only [hhold, Draft.checkFlaw, hgiven, hservice, ht, bind, Except.bind, pure, Except.pure]

theorem read_ofJson (s : FileSettings) : read (Draft.ofJson s.toJson) = .ok s :=
  s.read_kept s.keeps (Nat.le_trans (Nat.succ_le_succ s.depthOfMembers_members) (by decide))

/-! ## Settings that break off -/

theorem torn_string {v : String} {d : Draft} (h : Draft.Torn (.str v) d) :
    Auth.readText d = .error .ended := by
  cases h with
  | ended hf => exact congrArg Except.error hf

theorem whole_string {v : String} {d : Draft} (h : Draft.Whole (.str v) d) :
    d = .str v := by
  rcases h with rfl | ⟨m, n, h, -⟩
  · rfl
  · simp at h

/-- Holding back members that break off ends too early, or leaves that to what stops them. -/
theorem hold_torn : ∀ {ms : List (String × Json)} {ds : List Draft.Member} {stop : Option Flaw},
    Draft.TornMembers ms ds stop → ∀ (held : Held), depthOfMembers ms ≤ maxDepth - 1 →
    (∀ m ∈ ms, m.1 = "useTemplate" → held.template = none ∧ ∃ t, m.2 = .str t) →
    ms.Pairwise (fun m n => m.1 = n.1 → m.1 ≠ "useTemplate") →
      hold held ds = .error .ended ∨
        (∃ more, hold held ds = .ok more) ∧ Draft.checkFlaw stop = .error .ended
  | _, _, _, .stop hf, held, _, _, _ => Or.inr ⟨⟨held, rfl⟩, by rw [Draft.checkFlaw, hf]⟩
  | _, _, _, .key, held, _, _, _ => Or.inl rfl
  | _, _, _, @Draft.TornMembers.item k v ms d stop h, held, hd, ht, _ => by
    rw [depthOfMembers, Nat.max_le] at hd
    left
    simp only [hold, bind, Except.bind]
    by_cases hk : k = "useTemplate"
    · obtain ⟨hnone, t, hv⟩ := ht (k, v) List.mem_cons_self hk
      obtain rfl : v = .str t := hv
      simp only [hk, if_true, hnone, Option.isSome_none, Bool.false_eq_true, if_false,
        torn_string h]
    · simp only [hk, if_false, Draft.toJson_torn h hd.1]
  | _, _, _, @Draft.TornMembers.next k v ms d ds stop hw h, held, hd, ht, hp => by
    rw [depthOfMembers, Nat.max_le] at hd
    obtain ⟨hk', hms⟩ := List.pairwise_cons.1 hp
    simp only [hold, bind, Except.bind]
    by_cases hk : k = "useTemplate"
    · obtain ⟨hnone, t, hv⟩ := ht (k, v) List.mem_cons_self hk
      obtain rfl : v = .str t := hv
      have htext : Auth.readText d = .ok (some t) := by rw [whole_string hw]; rfl
      simp only [hk, if_true, hnone, Option.isSome_none, Bool.false_eq_true, if_false, htext]
      refine hold_torn h _ hd.2 (fun m hm hmk => ?_) hms
      exact absurd hk (hk' m hm (hk.trans hmk.symm))
    · obtain ⟨w, hw⟩ := Draft.toJson_whole hw hd.1
      simp only [hk, if_false, hw]
      exact hold_torn h _ hd.2 (fun m hm => ht m (List.mem_cons_of_mem _ hm)) hms

/-- From written settings that break off the reader learns that the text has ended. -/
theorem read_torn {s : FileSettings} {d : Draft} (h : Draft.Torn s.toJson d) :
    read d = .error .ended := by
  rw [toJson_eq] at h
  cases h with
  | ended hf => exact congrArg Except.error hf
  | @obj _ ds stop h =>
    have hdepth : depthOfMembers s.members ≤ maxDepth - 1 :=
      Nat.le_trans s.depthOfMembers_members (by decide)
    have htemplate : ∀ m ∈ s.members, m.1 = "useTemplate" →
        ({} : Held).template = none ∧ ∃ t, m.2 = .str t := by
      intro m hm hk
      rcases List.mem_append.1 hm with hm | hm
      · exact absurd hk (service_keys s.service m hm)
      · cases ht : s.template with
        | none => simp [memberOf, ht] at hm
        | some t => exact ⟨rfl, t, by rw [ht, memberOf, List.mem_singleton] at hm; rw [hm]⟩
    have hapart : s.members.Pairwise fun m n => m.1 = n.1 → m.1 ≠ "useTemplate" := by
      have hkeys := s.keys_sublist.nodup (by decide)
      exact (List.pairwise_map.1 hkeys).imp fun hne heq => absurd heq hne
    rw [read]
    rcases hold_torn h {} hdepth htemplate hapart with hh | ⟨⟨more, hh⟩, hstop⟩
    · rw [hh]; rfl
    · rw [hh]
      simp only [bind, Except.bind, hstop]

end FileSettings

/-! ## Numbers -/

theorem Auth.plain_toJson (a : Auth) : Plain a.toJson := by
  have h : ∀ k o, PlainMembers (memberOf k .str o) := fun k o =>
    plainMembers_memberOf fun s => trivial
  exact plainMembers_append.2 ⟨plainMembers_append.2 ⟨h _ _, h _ _⟩, h _ _⟩

theorem RequestOptions.plain_toJson (o : RequestOptions) : Plain o.toJson := by
  rw [toJson_eq, members]
  refine plainMembers_append.2 ⟨plainMembers_append.2 ⟨plainMembers_append.2
    ⟨plainMembers_append.2 ⟨?_, ?_⟩, ?_⟩, ?_⟩, ?_⟩
  · have h : ∀ e : String × String, Plain (.str e.2) := fun e => trivial
    exact plainMembers_memberOf fun d => plainMembers_map h d.entries
  · exact plainMembers_memberOf Auth.plain_toJson
  · exact plainMembers_memberOf fun n => trivial
  · exact plainMembers_memberOf fun b => trivial
  · exact plainMembers_memberOf fun s => trivial

theorem FileSettings.plain_toJson (s : FileSettings) : Plain s.toJson :=
  plainMembers_append.2 ⟨⟨trivial, trivial, s.service.requestOptions.plain_toJson, trivial⟩,
    plainMembers_memberOf fun _ => trivial⟩

/-- Plain settings are written as those of a file without a template. -/
theorem ServiceSettings.toJson_eq (g : ServiceSettings) :
    g.toJson = FileSettings.toJson ⟨g, none⟩ := by
  rw [toJson, FileSettings.toJson, memberOf, List.append_nil]

end EdmxGen
