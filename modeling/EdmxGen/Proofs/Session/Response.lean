import EdmxGen.Proofs.Session.Fetch
import EdmxGen.Proofs.Text.Utf8

/-!
# What becomes of a response

A response that arrives whole is judged by its status, then by its bytes, then by the text that they
encode, then by the XML that the text is. One report goes out for a page that comes with another
status than success, or for a text whose outermost element is not that of metadata. The pieces in
which the bytes arrive have no part in it (`fetch_verdict`).
-/

namespace EdmxGen.Session

open Http Text

/-! ## Verdicts -/

/-- The status means success. -/
def Succeeds (r : Response) : Prop := 200 ≤ r.status ∧ r.status < 300

instance (r : Response) : Decidable (Succeeds r) :=
  inferInstanceAs (Decidable (200 ≤ r.status ∧ r.status < 300))

/-- What becomes of a response with these bytes to a request for an address: the result, and the
texts that are reported as unusable. -/
inductive Verdict (decoder : PageDecoder) (address : String) (r : Response) (bytes : List UInt8) :
    Except Failure Xml.Element → List (List Char) → Prop
  /-- A status other than success, with a page. -/
  | refusedWithPage (h : ¬ Succeeds r) (hpage : decoder.text r.contentType bytes ≠ []) :
    Verdict decoder address r bytes (.error (.httpStatus address r.status))
      [decoder.text r.contentType bytes]
  /-- A status other than success, without a page. -/
  | refused (h : ¬ Succeeds r) (hpage : decoder.text r.contentType bytes = []) :
    Verdict decoder address r bytes (.error (.httpStatus address r.status)) []
  /-- No bytes. -/
  | empty (h : Succeeds r) (hbytes : bytes.length = 0) :
    Verdict decoder address r bytes (.error (.emptyResponse address)) []
  /-- Bytes that encode no text. -/
  | noText (h : Succeeds r) (hbytes : bytes.length ≠ 0) (hnone : ∀ text, Utf8.encode text ≠ bytes)
    (fault : Utf8.Fault) (hfault : Utf8.decode bytes = .error fault) :
    Verdict decoder address r bytes (.error (.invalidEncoding address fault)) []
  /-- A text that is no XML. -/
  | noXml (h : Succeeds r) (hbytes : bytes.length ≠ 0) (text : List Char)
    (htext : Utf8.encode text = bytes) (fault : Xml.Fault)
    (hfault : Xml.Element.parse (String.ofList text) = .error fault) :
    Verdict decoder address r bytes (.error (.malformedXml fault)) []
  /-- XML whose outermost element is not that of metadata. -/
  | noMetadata (h : Succeeds r) (hbytes : bytes.length ≠ 0) (text : List Char)
    (htext : Utf8.encode text = bytes) (root : Xml.Element)
    (hroot : Xml.Element.parse (String.ofList text) = .ok root) (hname : root.name ≠ "edmx:Edmx") :
    Verdict decoder address r bytes (.error (.invalidMetadata root.name)) [text]
  /-- Metadata. -/
  | metadata (h : Succeeds r) (hbytes : bytes.length ≠ 0) (text : List Char)
    (htext : Utf8.encode text = bytes) (root : Xml.Element)
    (hroot : Xml.Element.parse (String.ofList text) = .ok root) (hname : root.name = "edmx:Edmx") :
    Verdict decoder address r bytes (.ok root) []

/-- The page that is reported about a response. -/
def pageOf (decoder : PageDecoder) (r : Response) : List (List Char) :=
  if r.isSuccess then [] else if (r.page decoder).isEmpty then [] else [r.page decoder]

/-- The texts that are reported about a response. -/
def reportsOf (decoder : PageDecoder) (address : String) (r : Response) : List (List Char) :=
  if r.isSuccess then
    match r.text address with
    | .ok text => (Metadata.reported (String.ofList text)).map String.toList
    | .error _ => []
  else pageOf decoder r

section

variable {decoder : PageDecoder} {address : String} {r : Response} {bytes : List UInt8}
  {text : List Char}

theorem isSuccess_iff : r.isSuccess = true ↔ Succeeds r := by
  unfold Response.isSuccess Succeeds
  simp

theorem page_of_content (hbytes : r.content? = some bytes) :
    r.page decoder = decoder.text r.contentType bytes := by
  unfold Response.page
  rw [hbytes]

theorem pageOf_of_succeeds (h : Succeeds r) : pageOf decoder r = [] := if_pos (isSuccess_iff.2 h)

theorem pageOf_of_refused (h : ¬ Succeeds r) :
    pageOf decoder r = if (r.page decoder).isEmpty then [] else [r.page decoder] :=
  if_neg (mt isSuccess_iff.1 h)

theorem text_of_refused (h : ¬ Succeeds r) :
    r.text address = .error (.httpStatus address r.status) := by
  unfold Response.text
  rw [← isSuccess_iff, Bool.not_eq_true] at h
  simp [h]

theorem text_of_empty (address : String) (h : Succeeds r) (hbytes : r.content? = some []) :
    r.text address = .error (.emptyResponse address) := by
  unfold Response.text
  simp [isSuccess_iff.2 h, hbytes]

theorem text_of_bytes (h : Succeeds r) (hbytes : r.content? = some bytes)
    (hsome : bytes.length ≠ 0) :
    r.text address = (Utf8.decode bytes).mapError (.invalidEncoding address) := by
  unfold Response.text
  cases bytes with
  | nil => exact absurd rfl hsome
  | cons b bs => simp [isSuccess_iff.2 h, hbytes]

theorem text_of_text (address : String) (h : Succeeds r) (hbytes : r.content? = some bytes)
    (hsome : bytes.length ≠ 0) (htext : Utf8.encode text = bytes) :
    r.text address = .ok text := by
  rw [text_of_bytes h hbytes hsome, Utf8.decode_eq_ok.2 htext]
  rfl

theorem reportsOf_refused (address : String) (h : ¬ Succeeds r) :
    reportsOf decoder address r = pageOf decoder r := if_neg (mt isSuccess_iff.1 h)

theorem reportsOf_error (h : Succeeds r) {f : Failure} (htext : r.text address = .error f) :
    reportsOf decoder address r = [] := by
  unfold reportsOf
  rw [if_pos (isSuccess_iff.2 h), htext]

theorem reportsOf_text (h : Succeeds r) (htext : r.text address = .ok text) :
    reportsOf decoder address r = (Metadata.reported (String.ofList text)).map String.toList := by
  unfold reportsOf
  rw [if_pos (isSuccess_iff.2 h), htext]

theorem metadataOf_error {f : Failure} (htext : r.text address = .error f) :
    metadataOf address (.response r) = .error f := by
  show (r.text address >>= fun text => Metadata.parse (String.ofList text)) = _
  rw [htext]
  rfl

theorem metadataOf_text (htext : r.text address = .ok text) :
    metadataOf address (.response r) = Metadata.parse (String.ofList text) :=
  metadataOf_of_text htext

theorem parse_of_fault {whole : String} {fault : Xml.Fault}
    (h : Xml.Element.parse whole = .error fault) :
    Metadata.parse whole = .error (.malformedXml fault) ∧ Metadata.reported whole = [] := by
  have hparse : Metadata.parse whole = .error (.malformedXml fault) := by
    unfold Metadata.parse
    rw [h]
  unfold Metadata.reported
  rw [hparse]
  exact ⟨rfl, rfl⟩

theorem parse_of_other {whole : String} {root : Xml.Element}
    (h : Xml.Element.parse whole = .ok root) (hname : root.name ≠ "edmx:Edmx") :
    Metadata.parse whole = .error (.invalidMetadata root.name) ∧
      Metadata.reported whole = [whole] := by
  have hparse : Metadata.parse whole = .error (.invalidMetadata root.name) := by
    unfold Metadata.parse
    rw [h]
    exact if_neg hname
  unfold Metadata.reported
  rw [hparse]
  exact ⟨rfl, rfl⟩

theorem parse_of_root {whole : String} {root : Xml.Element}
    (h : Xml.Element.parse whole = .ok root) (hname : root.name = "edmx:Edmx") :
    Metadata.parse whole = .ok root ∧ Metadata.reported whole = [] := by
  have hparse : Metadata.parse whole = .ok root := by
    unfold Metadata.parse
    rw [h]
    exact if_pos hname
  unfold Metadata.reported
  rw [hparse]
  exact ⟨rfl, rfl⟩

/-- A verdict says what comes of the response and what is reported. -/
theorem Verdict.sound (hbytes : r.content? = some bytes) {result : Except Failure Xml.Element}
    {reports : List (List Char)} (h : Verdict decoder address r bytes result reports) :
    metadataOf address (.response r) = result ∧ reportsOf decoder address r = reports := by
  cases h with
  | refusedWithPage h hpage =>
    refine ⟨metadataOf_error (text_of_refused h), ?_⟩
    rw [reportsOf_refused address h, pageOf_of_refused h, page_of_content hbytes,
      if_neg (by simpa using hpage)]
  | refused h hpage =>
    refine ⟨metadataOf_error (text_of_refused h), ?_⟩
    rw [reportsOf_refused address h, pageOf_of_refused h, page_of_content hbytes,
      if_pos (by simpa using hpage)]
  | empty h hnone =>
    rw [List.eq_nil_of_length_eq_zero hnone] at hbytes
    have htext := text_of_empty address h hbytes
    exact ⟨metadataOf_error htext, reportsOf_error h htext⟩
  | noText h hsome _ fault hfault =>
    have htext : r.text address = .error (.invalidEncoding address fault) := by
      rw [text_of_bytes h hbytes hsome, hfault]
      rfl
    exact ⟨metadataOf_error htext, reportsOf_error h htext⟩
  | noXml h hsome text htext fault hfault =>
    have htext := text_of_text address h hbytes hsome htext
    obtain ⟨hparse, hreported⟩ := parse_of_fault hfault
    rw [metadataOf_text htext, reportsOf_text h htext, hreported]
    exact ⟨hparse, rfl⟩
  | noMetadata h hsome text htext root hroot hname =>
    have htext := text_of_text address h hbytes hsome htext
    obtain ⟨hparse, hreported⟩ := parse_of_other hroot hname
    rw [metadataOf_text htext, reportsOf_text h htext, hreported]
    exact ⟨hparse, by simp⟩
  | metadata h hsome text htext root hroot hname =>
    have htext := text_of_text address h hbytes hsome htext
    obtain ⟨hparse, hreported⟩ := parse_of_root hroot hname
    rw [metadataOf_text htext, reportsOf_text h htext, hreported]
    exact ⟨hparse, rfl⟩

/-- There is a verdict about every response. -/
theorem exists_verdict (decoder : PageDecoder) (address : String) (r : Response)
    (bytes : List UInt8) : ∃ result reports, Verdict decoder address r bytes result reports := by
  by_cases h : Succeeds r
  case neg =>
    by_cases hpage : decoder.text r.contentType bytes = []
    · exact ⟨_, _, .refused h hpage⟩
    · exact ⟨_, _, .refusedWithPage h hpage⟩
  by_cases hsome : bytes.length = 0
  · exact ⟨_, _, .empty h hsome⟩
  cases hdecode : Utf8.decode bytes with
  | error fault =>
    refine ⟨_, _, .noText h hsome (fun text htext => ?_) fault hdecode⟩
    rw [Utf8.decode_eq_ok.2 htext] at hdecode
    nomatch hdecode
  | ok text =>
    have htext := Utf8.decode_eq_ok.1 hdecode
    cases hparse : Xml.Element.parse (String.ofList text) with
    | error fault => exact ⟨_, _, .noXml h hsome text htext fault hparse⟩
    | ok root =>
      by_cases hname : root.name = "edmx:Edmx"
      · exact ⟨_, _, .metadata h hsome text htext root hparse hname⟩
      · exact ⟨_, _, .noMetadata h hsome text htext root hparse hname⟩

/-- Failures after a response are failures of the round trip, but for an outermost element that is
not that of metadata. -/
theorem Verdict.isTransport_iff {f : Failure} {reports : List (List Char)}
    (h : Verdict decoder address r bytes (.error f) reports) :
    f.isTransport = true ↔ ∀ name, f ≠ .invalidMetadata name := by
  cases h <;> simp [Failure.isTransport]

/-! ## Reports -/

/-- The texts that notices report as unusable. -/
def reports (notices : List Notice) : List (List Char) :=
  notices.filterMap fun
    | .unusable payload => some payload
    | _ => none

@[simp] theorem reports_append (ns ns' : List Notice) :
    reports (ns ++ ns') = reports ns ++ reports ns' := List.filterMap_append

variable {env : Environment} {w : World} {o : RequestOptions}

theorem run_notify (n : Notice) (w : World) :
    (notify n).run w = ((), { w with notices := w.notices ++ [n] }) := rfl

theorem reportPage_run (env : Environment) (w : World) (address : String) (r : Response) :
    ∃ notices, (reportPage env address r).run w = ((), { w with notices := w.notices ++ notices }) ∧
      reports notices = pageOf env.decoder r := by
  unfold reportPage
  by_cases hsuccess : r.isSuccess = true
  · rw [if_pos hsuccess, pageOf_of_succeeds (isSuccess_iff.1 hsuccess)]
    exact ⟨[], by simp; rfl, rfl⟩
  · rw [if_neg hsuccess, pageOf_of_refused (mt isSuccess_iff.2 hsuccess),
      run_state_bind (run_notify _ w)]
    by_cases hpage : (r.page env.decoder).isEmpty = true
    · rw [if_pos hpage, if_pos hpage]
      exact ⟨_, rfl, rfl⟩
    · rw [if_neg hpage, if_neg hpage, run_notify]
      exact ⟨[.refusedByServer address r.status, .unusable (r.page env.decoder)], by simp, rfl⟩

theorem notifyEach_run (payloads : List String) (w : World) :
    (forIn payloads PUnit.unit fun payload _ => do
      notify (.unusable payload.toList)
      pure (ForInStep.yield PUnit.unit) : Session PUnit).run w
      = (PUnit.unit, { w with
        notices := w.notices ++ payloads.map fun payload => .unusable payload.toList }) := by
  induction payloads generalizing w with
  | nil =>
    rw [List.map_nil, List.append_nil]
    rfl
  | cons payload payloads ih =>
    rw [List.forIn_cons, List.map_cons, List.append_cons]
    exact ih { w with notices := w.notices ++ [.unusable payload.toList] }

theorem reports_map (payloads : List String) :
    reports (payloads.map fun payload => .unusable payload.toList)
      = payloads.map String.toList := by
  induction payloads with
  | nil => rfl
  | cons payload payloads ih => exact congrArg (payload.toList :: ·) ih

theorem parseMetadata_run (w : World) (text : List Char) :
    ∃ notices, (parseMetadata text).run w
        = (Metadata.parse (String.ofList text), { w with notices := w.notices ++ notices }) ∧
      reports notices = (Metadata.reported (String.ofList text)).map String.toList := by
  let parsing : Notice := .parsing (Utf8.byteLength text)
  let payloads := Metadata.reported (String.ofList text)
  refine ⟨parsing :: payloads.map fun payload : String => Notice.unusable payload.toList, ?_,
    reports_map payloads⟩
  unfold parseMetadata
  rw [run_state_bind (run_notify parsing w)]
  dsimp only
  rw [run_state_bind (notifyEach_run payloads _), List.append_assoc]
  rfl

variable {sending : Sending}

theorem send_run (hsending : prepare? address o = some sending)
    (hreply : env.network w.requests sending = .response r) :
    (send env address o).run w
      = (.response r, { w with requests := w.requests ++ [sending] }) := by
  have hget : (get : Session World).run w = (w, w) := rfl
  unfold send
  rw [hsending]
  dsimp only
  rw [run_state_bind hget, hreply]
  rfl

/-- Notices that come before the request and report nothing change nothing of this. -/
theorem receive_run (hsending : prepare? address o = some sending)
    (hreply : env.network w.requests sending = .response r) {told : List Notice}
    (htold : reports told = []) :
    ∃ notices, (receive env address o).run { w with notices := w.notices ++ told }
        = (r.text address,
          { w with requests := w.requests ++ [sending], notices := w.notices ++ notices }) ∧
      reports notices = pageOf env.decoder r := by
  obtain ⟨notices, hpage, hreports⟩ := reportPage_run env { w with
    requests := w.requests ++ [sending], notices := w.notices ++ told } address r
  have hsend : (send env address o).run { w with notices := w.notices ++ told }
      = (.response r, { w with
        requests := w.requests ++ [sending], notices := w.notices ++ told }) :=
    send_run hsending hreply
  refine ⟨told ++ notices, ?_, ?_⟩
  · unfold receive
    rw [run_state_bind hsend]
    dsimp only
    rw [run_state_bind hpage, List.append_assoc]
    rfl
  · rw [reports_append, htold, List.nil_append, hreports]

theorem fetchText_run (hsending : prepare? address o = some sending)
    (hreply : env.network w.requests sending = .response r) :
    ∃ notices, (fetchText env address o).run w
        = (r.text address,
          { w with requests := w.requests ++ [sending], notices := w.notices ++ notices }) ∧
      reports notices = pageOf env.decoder r := by
  rw [fetchText_eq, run_state_bind (run_notify _ w)]
  split
  · rw [run_state_bind (run_notify _ _)]
    dsimp only
    rw [List.append_assoc]
    have htold : reports [.fetching address, .uncheckedCertificates] = [] := rfl
    exact receive_run hsending hreply htold
  · have htold : reports [.fetching address] = [] := rfl
    exact receive_run hsending hreply htold

/-- Fetching reports what is to be reported about the response, and nothing else. -/
theorem fetch_run (hsending : prepare? address o = some sending)
    (hreply : env.network w.requests sending = .response r) :
    ∃ notices, (fetch env address o).run w
        = (metadataOf address (.response r),
          { w with requests := w.requests ++ [sending], notices := w.notices ++ notices }) ∧
      reports notices = reportsOf env.decoder address r := by
  obtain ⟨notices, hfetch, hreports⟩ := fetchText_run hsending hreply
  unfold fetch
  rw [run_state_bind hfetch]
  cases htext : r.text address with
  | error f =>
    refine ⟨notices, ?_, ?_⟩
    · rw [metadataOf_error htext]
      rfl
    · rw [hreports]
      by_cases hsuccess : Succeeds r
      · rw [pageOf_of_succeeds hsuccess, reportsOf_error hsuccess htext]
      · rw [reportsOf_refused address hsuccess]
  | ok text =>
    obtain ⟨more, hparse, hmore⟩ := parseMetadata_run
      { w with requests := w.requests ++ [sending], notices := w.notices ++ notices } text
    have hsuccess : Succeeds r := by
      by_contra hrefused
      rw [text_of_refused hrefused] at htext
      nomatch htext
    refine ⟨notices ++ more, ?_, ?_⟩
    · rw [metadataOf_text htext, ← List.append_assoc]
      exact hparse
    · rw [reports_append, hreports, hmore, pageOf_of_succeeds hsuccess, List.nil_append,
        reportsOf_text hsuccess htext]

/-- In which pieces the bytes come is not to be seen in the text or the page. -/
theorem text_chunks {chunks : List (List UInt8)} (h : chunks.flatten = r.chunks.flatten)
    (address : String) : ({ r with chunks } : Response).text address = r.text address ∧
      ({ r with chunks } : Response).page decoder = r.page decoder := by
  have hcontent : ({ r with chunks } : Response).content? = r.content? := by
    unfold Response.content? Response.body
    rw [h]
    rfl
  unfold Response.text Response.page
  rw [hcontent]
  exact ⟨rfl, rfl⟩

theorem outcome_chunks (decoder : PageDecoder) {chunks : List (List UInt8)}
    (h : chunks.flatten = r.chunks.flatten) (address : String) :
    metadataOf address (.response { r with chunks }) = metadataOf address (.response r) ∧
      reportsOf decoder address { r with chunks } = reportsOf decoder address r := by
  obtain ⟨htext, hpage⟩ := text_chunks h address
  constructor
  · show (_ >>= _ : Except Failure Xml.Element) = r.text address >>= _
    rw [← htext]
    rfl
  · unfold reportsOf pageOf
    rw [htext, hpage]
    rfl

/-- A request that brings a whole response ends with the only verdict about that response, and the
reports of the verdict go out. In how many pieces its bytes came does not matter. -/
theorem fetch_verdict (hsending : prepare? address o = some sending)
    (hreply : env.network w.requests sending = .response r) (hbytes : r.content? = some bytes)
    {result : Except Failure Xml.Element} {w' : World}
    (h : (fetch env address o).run w = (result, w')) :
    ∃ payloads, Verdict env.decoder address r bytes result payloads ∧
      (∀ result' payloads', Verdict env.decoder address r bytes result' payloads' →
        result' = result ∧ payloads' = payloads) ∧
      reports w'.notices = reports w.notices ++ payloads ∧
      (∀ f, result = .error f → (f.isTransport = true ↔ ∀ name, f ≠ .invalidMetadata name)) ∧
      ∀ (env₂ : Environment) (w₂ w₂' : World) (result₂ : Except Failure Xml.Element)
        (chunks : List (List UInt8)), env₂.decoder = env.decoder →
        chunks.flatten = r.chunks.flatten →
        env₂.network w₂.requests sending = .response { r with chunks } →
        (fetch env₂ address o).run w₂ = (result₂, w₂') →
        result₂ = result ∧ reports w₂'.notices = reports w₂.notices ++ payloads := by
  obtain ⟨notices, hrun, hreports⟩ := fetch_run hsending hreply
  obtain ⟨hresult, rfl⟩ := Prod.mk.inj (hrun.symm.trans h)
  obtain ⟨verdict, payloads, hverdict⟩ := exists_verdict env.decoder address r bytes
  obtain ⟨hmetadata, hpayloads⟩ := hverdict.sound hbytes
  obtain rfl : verdict = result := hmetadata.symm.trans hresult
  refine ⟨payloads, hverdict, fun result' payloads' h' => ?_, ?_, ?_, ?_⟩
  · obtain ⟨hmetadata', hpayloads'⟩ := h'.sound hbytes
    exact ⟨hmetadata'.symm.trans hmetadata, hpayloads'.symm.trans hpayloads⟩
  · rw [reports_append, hreports, hpayloads]
  · rintro f rfl
    exact hverdict.isTransport_iff
  · intro env₂ w₂ w₂' result₂ chunks hdecoder hchunks hreply₂ h₂
    obtain ⟨notices₂, hrun₂, hreports₂⟩ := fetch_run hsending hreply₂
    obtain ⟨hsame, hsamePayloads⟩ := outcome_chunks env.decoder hchunks address
    obtain ⟨hresult₂, rfl⟩ := Prod.mk.inj (hrun₂.symm.trans h₂)
    refine ⟨?_, ?_⟩
    · rw [← hresult₂, hsame, hmetadata]
    · rw [reports_append, hreports₂, hdecoder, hsamePayloads, hpayloads]

end

/-! ## Responses of each kind -/

/-- A server that gives this response to every request. -/
def answering (r : Response) : Environment where
  configPath := ""
  now := ⟨0, 0⟩
  network _ _ := .response r
  prompter _ := .none

/-- What comes of this response, with the name of the outermost element, and what is reported. -/
def outcomeOf (r : Response) : Except Failure String × List (List Char) :=
  let ran := (fetch (answering r) "https://h/svc" {}).run {}
  (ran.1.map (·.name), reports ran.2.notices)

/-- A response with success whose content is this text. -/
def showing (text : List Char) : Response := { chunks := [Utf8.encode text] }

theorem content_showing (text : List Char) : (showing text).content? = some (Utf8.encode text) := by
  show some (List.flatten [_]) = _
  rw [List.flatten_singleton]

theorem exists_of_name {whole name : String}
    (h : (Xml.Element.parse whole).map (·.name) = .ok name) :
    ∃ root, Xml.Element.parse whole = .ok root ∧ root.name = name := by
  cases hparse : Xml.Element.parse whole with
  | error fault =>
    rw [hparse] at h
    nomatch h
  | ok root =>
    rw [hparse] at h
    exact ⟨root, rfl, Except.ok.inj h⟩

theorem fault_of_name {whole : String} {fault : Xml.Fault}
    (h : (Xml.Element.parse whole).map (·.name) = .error fault) :
    Xml.Element.parse whole = .error fault := by
  cases hparse : Xml.Element.parse whole with
  | error fault' =>
    rw [hparse] at h
    exact congrArg Except.error (Except.error.inj h)
  | ok root =>
    rw [hparse] at h
    nomatch h

/-- One response of each kind. The page of the failure is a character that comes in two pieces. -/
theorem fetch_verdict_split :
    outcomeOf { status := 500, chunks := [[0xC3], [0xA9]] }
        = (.error (.httpStatus "https://h/svc" 500), [['é']]) ∧
      outcomeOf { status := 404 } = (.error (.httpStatus "https://h/svc" 404), []) ∧
      outcomeOf {} = (.error (.emptyResponse "https://h/svc"), []) ∧
      outcomeOf { chunks := [[0xC3], [0x28]] }
        = (.error (.invalidEncoding "https://h/svc" (.invalid 1 0)), []) ∧
      outcomeOf (showing ['<', 'a']) = (.error (.malformedXml .noRoot), []) ∧
      outcomeOf (showing ['<', 'a', '/', '>'])
        = (.error (.invalidMetadata "a"), [['<', 'a', '/', '>']]) ∧
      outcomeOf (showing "<edmx:Edmx xmlns:edmx=\"\"/>".toList) = (.ok "edmx:Edmx", []) := by
  obtain ⟨sending, hsending⟩ : ∃ sending, prepare? "https://h/svc" {} = some sending :=
    Option.isSome_iff_exists.1 (by decide +kernel)
  have houtcome : ∀ {r : Response} {bytes : List UInt8} {result : Except Failure Xml.Element}
      {payloads : List (List Char)}, r.content? = some bytes →
      Verdict (answering r).decoder "https://h/svc" r bytes result payloads →
      outcomeOf r = (result.map (·.name), payloads) := by
    intro r bytes result payloads hbytes hverdict
    rcases hrun : (fetch (answering r) "https://h/svc" {}).run {} with ⟨result', w'⟩
    obtain ⟨payloads', _, honly, hreports, _⟩ := fetch_verdict hsending rfl hbytes hrun
    obtain ⟨rfl, rfl⟩ := honly _ _ hverdict
    unfold outcomeOf
    rw [hrun]
    exact congrArg (Prod.mk _) hreports
  have hpage : Charset.decode none [0xC3, 0xA9] = ['é'] := by decide +kernel
  have hfault : Utf8.decode [0xC3, 0x28] = .error (.invalid 1 0) := by decide +kernel
  have hnone : ∀ text, Utf8.encode text ≠ [0xC3, 0x28] := fun text htext => by
    rw [Utf8.decode_eq_ok.2 htext] at hfault
    nomatch hfault
  have hxml : Xml.Element.parse (String.ofList ['<', 'a']) = .error .noRoot :=
    fault_of_name (by decide +kernel)
  obtain ⟨other, hother, hotherName⟩ : ∃ root,
      Xml.Element.parse (String.ofList ['<', 'a', '/', '>']) = .ok root ∧ root.name = "a" :=
    exists_of_name (by decide +kernel)
  obtain ⟨root, hroot, hrootName⟩ : ∃ root,
      Xml.Element.parse (String.ofList "<edmx:Edmx xmlns:edmx=\"\"/>".toList) = .ok root ∧
        root.name = "edmx:Edmx" := exists_of_name (by decide +kernel)
  refine ⟨?_, ?_, ?_, ?_, ?_, ?_, ?_⟩
  · have hverdict := houtcome (r := { status := 500, chunks := [[0xC3], [0xA9]] }) rfl
      (.refusedWithPage (by decide) (fun hnil => nomatch hpage.symm.trans hnil))
    rw [hverdict]
    exact congrArg (fun page => (_, [page])) hpage
  · exact houtcome rfl (.refused (by decide) rfl)
  · exact houtcome rfl (.empty (by decide) rfl)
  · exact houtcome rfl (.noText (by decide) (by decide) hnone _ hfault)
  · exact houtcome (content_showing _) (.noXml (by decide) (by decide) _ rfl _ hxml)
  · have hverdict := houtcome (content_showing _)
      (.noMetadata (by decide) (by decide) _ rfl other hother (by rw [hotherName]; decide))
    rwa [hotherName] at hverdict
  · have hverdict := houtcome (content_showing _)
      (.metadata (by decide) (by decide +kernel) _ rfl root hroot hrootName)
    rwa [Except.map, hrootName] at hverdict

end EdmxGen.Session
