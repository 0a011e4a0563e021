import EdmxGen.Command
import EdmxGen.Proofs.Header.First
import EdmxGen.Proofs.Session.Questions

/-!
# Settings for an update

A file with a block between the markers of a header says by itself what its settings are, or that it
has been damaged, and nobody is asked. Only a file without such a block makes the update ask for an
address and, unless the configuration prefers one, for a shape of the code (`settingsFor_asks`).
-/

namespace EdmxGen

/-! ## The shape of the code -/

/-- What the answer to the question for the shape of the code leads to. -/
def Answer.modularity : Answer → Except Trouble Modularity
  | position n =>
    match Modularity.all[n]? with
    | some m => .ok m
    | Option.none => .error (.note "No modularity selected")
  | refused reason => .error (.note reason)
  | text _ | none => .error (.note "No modularity selected")

theorem Answer.position_of_modularity {a : Answer} {m : Modularity} (h : a.modularity = .ok m) :
    ∃ n, a = .position n ∧ Modularity.all[n]? = some m := by
  cases a with
  | position n =>
    refine ⟨n, rfl, ?_⟩
    unfold modularity at h
    dsimp only at h
    split at h
    · next m' hm =>
      obtain rfl := Except.ok.inj h
      exact hm
    · nomatch h
  | text s => nomatch h
  | none => nomatch h
  | refused reason => nomatch h

namespace Prompter

/-- The question for the shape of the code. -/
def forModularity : Question :=
  .select "Select to generate the service as a modular or ambient version"
    (Modularity.all.map Modularity.name) 0

theorem modularity_run (p : Prompter) (asked : List Question) :
    p.modularity.run.run asked =
      ((p (asked ++ [forModularity])).modularity, asked ++ [forModularity]) := by
  have hselect : (p.select _ _).run.run asked =
      ((p (asked ++ [forModularity])).given.map Answer.position?, asked ++ [forModularity]) :=
    select_run p _ _ asked
  unfold modularity
  rw [run_bind, hselect]
  cases p (asked ++ [forModularity]) with
  | position n =>
    show (match Modularity.all[n]? with
        | some m => pure m
        | none => throw (.note "No modularity selected") : Asking Modularity).run.run _ =
      (match Modularity.all[n]? with
        | some m => .ok m
        | none => .error (.note "No modularity selected"), _)
    cases Modularity.all[n]? <;> rfl
  | text s => rfl
  | none => rfl
  | refused reason => rfl

theorem forModularity_ne_amongRecent (recent : List String) :
    forModularity ≠ amongRecent recent := by
  intro h
  have hprompt := (Question.select.inj h).1
  exact absurd hprompt (by decide)

theorem forModularity_ne_forAddress (recent : List String) :
    forModularity ≠ forAddress recent := nofun

end Prompter

namespace Session

open Prompter

variable {env : Environment} {config : Config} {w w' : World}

theorem asks_chooseModularity_known {m : Modularity}
    (h : config.settings.defaultModularity = some m) (w : World) :
    Asks w (chooseModularity env none config) [] (.ok m) := by
  unfold chooseModularity
  rw [h]
  exact asks_none

theorem asks_chooseModularity_unknown (h : config.settings.defaultModularity = none) (w : World) :
    Asks w (chooseModularity env none config) [forModularity]
      (env.prompter (w.asked ++ [forModularity])).modularity := by
  unfold chooseModularity
  rw [h]
  exact asks_ask (modularity_run env.prompter w.asked)

theorem exists_asks_modularity (env : Environment) (config : Config) (w : World) :
    ∃ questions r, Asks w (chooseModularity env none config) questions r := by
  cases h : config.settings.defaultModularity with
  | some m => exact ⟨_, _, asks_chooseModularity_known h w⟩
  | none => exact ⟨_, _, asks_chooseModularity_unknown h w⟩

end Session

/-- The world in which the lack of a header has been noticed. -/
def World.warned (w : World) : World := { w with notices := w.notices ++ [.headerMissing] }

namespace Command

open Prompter Session

variable {env : Environment} {config : Config} {text : String} {w w' : World}

/-- What a file without a header leads to. -/
def inquire (env : Environment) (config : Config) : Attempt FileSettings := do
  let address ← chooseAddress env none config
  let modularity ← chooseModularity env none config
  pure ⟨⟨address, modularity, {}⟩, none⟩

theorem settingsFor_headed (h : ∃ a b c, text.toList = Header.holding a b c) :
    (settingsFor env config text).run.run w =
      (inContext "Failed to read the odata tools header" (Header.decode text.toList), w) := by
  unfold settingsFor
  split
  · next s hdecode =>
    rw [hdecode]
    rfl
  · next hdecode => exact absurd h (Header.decode_eq_noHeader_iff.1 hdecode)
  · next f _ hdecode =>
    rw [hdecode]
    rfl

theorem settingsFor_unheaded (h : ¬ ∃ a b c, text.toList = Header.holding a b c) :
    (settingsFor env config text).run.run w = (inquire env config).run.run w.warned := by
  unfold settingsFor
  rw [Header.decode_eq_noHeader_iff.2 h]
  rfl

/-- The shape of the code is preferred, or it is asked for and shown at the chosen position. -/
inductive Shaped (env : Environment) (config : Config) (asked : List Question) :
    List Question → Modularity → Prop
  | preferred {m : Modularity} (h : config.settings.defaultModularity = some m) :
    Shaped env config asked [] m
  | chosen {n : Nat} {m : Modularity} (h : config.settings.defaultModularity = none)
    (hanswer : env.prompter (asked ++ [forModularity]) = .position n)
    (hshown : (Modularity.all.map Modularity.name)[n]? = some m.name) :
    Shaped env config asked [forModularity] m

theorem shown_iff {n : Nat} {m : Modularity} :
    (Modularity.all.map Modularity.name)[n]? = some m.name ↔ Modularity.all[n]? = some m := by
  have hname : ∀ m' : Modularity, m'.name = m.name → m' = m := by
    intro m' h
    cases m <;> cases m' <;> first | rfl | exact absurd h (by decide)
  rw [List.getElem?_map, Option.map_eq_some_iff]
  constructor
  · rintro ⟨m', hm', heq⟩
    rw [hm', hname m' heq]
  · intro h
    exact ⟨m, h, rfl⟩

theorem shaped_iff {questions : List Question} {m : Modularity} :
    Shaped env config w.asked questions m ↔
      Asks w (chooseModularity env none config) questions (.ok m) := by
  constructor
  · rintro (h | ⟨h, hanswer, hshown⟩)
    · exact asks_chooseModularity_known h w
    · have hasked : Asks w (chooseModularity env none config) [forModularity]
          (env.prompter (w.asked ++ [forModularity])).modularity :=
        asks_chooseModularity_unknown h w
      rw [hanswer] at hasked
      unfold Answer.modularity at hasked
      dsimp only at hasked
      rw [shown_iff.1 hshown] at hasked
      exact hasked
  · intro h
    cases hdefault : config.settings.defaultModularity with
    | some m' =>
      obtain ⟨rfl, hm⟩ := h.unique (asks_chooseModularity_known hdefault w)
      obtain rfl := Except.ok.inj hm
      exact .preferred hdefault
    | none =>
      obtain ⟨rfl, hm⟩ := h.unique (asks_chooseModularity_unknown hdefault w)
      obtain ⟨n, hanswer, hshown⟩ := Answer.position_of_modularity hm.symm
      exact .chosen hdefault hanswer (shown_iff.2 hshown)

/-- The questions for an address come first and do not depend on the shape of the code. -/
theorem exists_asks_address (env : Environment) (config : Config) (w : World) :
    ∃ questions r, Asks w (chooseAddress env none config) questions r ∧
      forModularity ∉ questions := by
  obtain ⟨questions, r, h, hall⟩ := exists_asks env config w
  refine ⟨questions, r, h, fun hmem => ?_⟩
  rcases hall _ hmem with heq | heq
  · exact forModularity_ne_amongRecent _ heq
  · exact forModularity_ne_forAddress _ heq

/-- The settings that were asked for: an address in its normal form, after questions of which none
was for the shape of the code, then that shape, and nothing else. -/
structure Inquired (env : Environment) (config : Config) (w : World)
    (questions questions' : List Question) (s : FileSettings) : Prop where
  address : Asks w (chooseAddress env none config) questions (.ok s.service.source)
  normal : Address.normalize s.service.source = .ok s.service.source
  apart : forModularity ∉ questions
  shape : Shaped env config (w.asked ++ questions) questions' s.service.modularity
  template : s.template = none
  request : s.service.requestOptions = {}

theorem inquire_ok {s : FileSettings} (h : (inquire env config).run.run w = (.ok s, w')) :
    ∃ questions questions', Inquired env config w questions questions' s ∧
      w' = w.asking (questions ++ questions') := by
  obtain ⟨questions, r, haddress, hapart⟩ := exists_asks_address env config w
  obtain ⟨questions', r', hmodularity⟩ :=
    exists_asks_modularity env config (w.asking questions)
  obtain ⟨address, w₁, h₁, h⟩ := ok_of_run_bind h
  obtain ⟨rfl, rfl⟩ := Prod.mk.inj (h₁.symm.trans haddress)
  obtain ⟨modularity, w₂, h₂, h⟩ := ok_of_run_bind h
  obtain ⟨rfl, rfl⟩ := Prod.mk.inj (h₂.symm.trans hmodularity)
  obtain ⟨hs, rfl⟩ := Prod.mk.inj h
  obtain rfl := Except.ok.inj hs
  have hnormal := normal_of_chooseAddress haddress
  exact ⟨questions, questions', ⟨haddress, hnormal, hapart, shaped_iff.2 hmodularity, rfl, rfl⟩,
    World.asking_asking w questions questions'⟩

theorem Inquired.run {questions questions' : List Question} {s : FileSettings}
    (h : Inquired env config w questions questions' s) :
    (inquire env config).run.run w = (.ok s, w.asking (questions ++ questions')) := by
  obtain ⟨⟨source, modularity, request⟩, template⟩ := s
  obtain ⟨haddress, -, -, hshape, rfl, rfl⟩ := h
  have hmodularity : Asks (w.asking questions) (chooseModularity env none config) questions'
      (.ok modularity) := shaped_iff.1 hshape
  unfold inquire
  rw [run_bind_ok haddress, run_bind_ok hmodularity, World.asking_asking]
  rfl

/-- The settings of a file with a block between the markers of a header are what decoding it gives,
also if that is a failure: nobody is asked, and nothing changes. The settings of any other file are
those that the user is asked for. -/
theorem settingsFor_asks (env : Environment) (config : Config) (text : String) (w : World) :
    ((∃ a b c, text.toList = Header.holding a b c) →
      (settingsFor env config text).run.run w =
        (inContext "Failed to read the odata tools header" (Header.decode text.toList), w)) ∧
    ((¬ ∃ a b c, text.toList = Header.holding a b c) → ∀ s w',
      (settingsFor env config text).run.run w = (.ok s, w') ↔
        ∃ questions questions', Inquired env config w.warned questions questions' s ∧
          w' = w.warned.asking (questions ++ questions')) := by
  refine ⟨settingsFor_headed, fun hnone s w' => ?_⟩
  rw [settingsFor_unheaded hnone]
  constructor
  · exact inquire_ok
  · rintro ⟨questions, questions', hinquired, rfl⟩
    exact hinquired.run

/-- A user who chooses the second of any choice and enters an address. -/
def decided : Environment where
  configPath := ""
  now := ⟨0, 0⟩
  network _ _ := .refused
  prompter asked :=
    match asked.getLast? with
    | some (.select _ _ _) => .position 1
    | _ => .text "http://h/svc"

theorem inquired_decided : Inquired decided {} (World.warned {}) [forAddress []] [forModularity]
    ⟨⟨"http://h/svc/$metadata", .ambient, {}⟩, none⟩ := by
  have hnamed : named "http://h/svc" = .ok "http://h/svc/$metadata" := by decide +kernel
  have haddress : Asks (World.warned {}) (chooseAddress decided none {}) [forAddress []]
      (named "http://h/svc") := asks_of_empty rfl decided _
  rw [hnamed] at haddress
  exact ⟨haddress, normal_of_named hnamed, by simp [forModularity_ne_forAddress],
    .chosen rfl rfl rfl, rfl, rfl⟩

/-- A damaged header stays one, and a file without any is asked about. -/
theorem settingsFor_asks_damaged :
    (settingsFor decided {} (String.ofList (Header.holding [] ['{'] []))).run.run {} =
        (.error (.within "Failed to read the odata tools header"
          (.failure (.headerDecode .ended))), {}) ∧
      ∃ w', (settingsFor decided {} "").run.run {} =
        (.ok ⟨⟨"http://h/svc/$metadata", .ambient, {}⟩, none⟩, w') ∧
        w'.asked = [forAddress [], forModularity] := by
  have hdamaged : ∃ a b c, (String.ofList (Header.holding [] ['{'] [])).toList =
      Header.holding a b c := ⟨_, _, _, String.toList_ofList⟩
  have hdecode : Header.decode (String.ofList (Header.holding [] ['{'] [])).toList =
      .error (.headerDecode .ended) := by decide +kernel
  have hnone : ¬ ∃ a b c, "".toList = Header.holding a b c := by
    rw [← Header.block?_eq_none_iff]
    decide +kernel
  refine ⟨?_, _, ((settingsFor_asks decided {} "" {}).2 hnone _ _).2
    ⟨_, _, inquired_decided, rfl⟩, rfl⟩
  rw [(settingsFor_asks decided {} _ {}).1 hdamaged, hdecode]
  rfl

end Command

end EdmxGen
