import EdmxGen.Proofs.Address
import EdmxGen.Proofs.Run
import EdmxGen.Session.Generate

/-!
# Questions for an address

A question is in the record before its answer is used (`ask_run`). So the questions that a step asks
and what it makes of their answers are told by one equation about its run (`Asks`). An address comes
from an option, from the history or from a text that is entered, and whichever it is, it is brought
into its normal form (`chooseAddress_asks`).
-/

namespace EdmxGen

/-! ## Answers -/

namespace Answer

/-- The answer, or why the question could not be asked. -/
def given : Answer → Except Trouble Answer
  | refused reason => .error (.note reason)
  | answer => .ok answer

def position? : Answer → Option Nat
  | position n => some n
  | _ => Option.none

def text? : Answer → Option String
  | text s => some s
  | _ => Option.none

end Answer

/-- The address that a text names. -/
def named (raw : String) : Except Trouble String := (Address.normalize raw).mapError .failure

/-- What the answer to the question for an address leads to; no text is no address. -/
def Answer.address : Answer → Except Trouble String
  | text raw => named raw
  | refused reason => .error (.note reason)
  | position _ | none => .error (.failure .noAddress)

theorem normal_of_named {raw address : String} (h : named raw = .ok address) :
    Address.normalize address = .ok address := by
  unfold named at h
  cases hnormal : Address.normalize raw with
  | ok a =>
    rw [hnormal] at h
    obtain rfl := Except.ok.inj h
    exact Address.normalize_again hnormal
  | error f =>
    rw [hnormal] at h
    nomatch h

/-- Nothing but blanks is no address. -/
theorem named_blank {raw : String} (h : Text.Blank raw.toList) :
    named raw = .error (.failure .noAddress) := by
  have hroot : Address.root raw.toList = [] := by
    rw [Address.root_eq_nil_iff, Text.trim_eq_nil_iff.2 h]
    exact Or.inl ⟨0, rfl⟩
  unfold named
  rw [Address.normalize_of_rootless hroot]
  rfl

namespace Answer

theorem normal_of_address {a : Answer} {address : String} (h : a.address = .ok address) :
    Address.normalize address = .ok address := by
  cases a with
  | text raw => exact normal_of_named h
  | position n => nomatch h
  | none => nomatch h
  | refused reason => nomatch h

end Answer

namespace Prompter

variable {p : Prompter} {recent : List String} {asked : List Question}

/-! ## Single questions -/

/-- The question for one of the addresses used recently. -/
def amongRecent (recent : List String) : Question :=
  .select "Select from recently used addresses or add new entry" (newEntry :: recent) 0

/-- The question for an address that is not in the history. -/
def forAddress (recent : List String) : Question :=
  .input "Please enter uri of your oData service" recent.head? placeholder

theorem ask_run (p : Prompter) (q : Question) (asked : List Question) :
    (p.ask q).run.run asked = ((p (asked ++ [q])).given, asked ++ [q]) := by
  have hmodify : (modify (· ++ [q]) : Asking PUnit).run.run asked = (.ok (), asked ++ [q]) := rfl
  have hget : (get : Asking (List Question)).run.run (asked ++ [q])
      = (.ok (asked ++ [q]), asked ++ [q]) := rfl
  unfold ask
  rw [run_bind_ok hmodify, run_bind_ok hget]
  cases p (asked ++ [q]) <;> rfl

theorem select_run (p : Prompter) (prompt : String) (items : List String)
    (asked : List Question) :
    (p.select prompt items).run.run asked =
      ((p (asked ++ [.select prompt items 0])).given.map Answer.position?,
        asked ++ [.select prompt items 0]) := by
  unfold select
  rw [run_bind, ask_run]
  cases p (asked ++ [.select prompt items 0]) <;> rfl

theorem input_run (p : Prompter) (prompt : String) (initial : Option String)
    (placeholder : String) (asked : List Question) :
    (p.input prompt initial placeholder).run.run asked =
      ((p (asked ++ [.input prompt initial placeholder])).given.map Answer.text?,
        asked ++ [.input prompt initial placeholder]) := by
  unfold input
  rw [run_bind, ask_run]
  cases p (asked ++ [.input prompt initial placeholder]) <;> rfl

/-! ## An address -/

theorem offer_nil (p : Prompter) (asked : List Question) :
    (p.offer []).run.run asked = (.ok none, asked) := rfl

/-- What an answer to the offer of the history leads to: none of it, or the entry that was chosen. -/
def picked (recent : List String) : Answer → Except Trouble (Option String)
  | .position 0 => .ok none
  | .position (n + 1) => .ok recent[n]?
  | .refused reason => .error (.note reason)
  | _ => .error (.failure .noAddress)

theorem offer_run (h : recent ≠ []) (p : Prompter) (asked : List Question) :
    (p.offer recent).run.run asked =
      (picked recent (p (asked ++ [amongRecent recent])), asked ++ [amongRecent recent]) := by
  have hselect : (p.select _ _).run.run asked =
      ((p (asked ++ [amongRecent recent])).given.map Answer.position?,
        asked ++ [amongRecent recent]) := select_run p _ _ asked
  unfold offer
  dsimp only
  rw [if_neg (by simpa using h), run_bind, hselect]
  cases p (asked ++ [amongRecent recent]) with
  | position n => cases n <;> rfl
  | text s => rfl
  | none => rfl
  | refused reason => rfl

/-- Once an entry of the history is chosen nothing more is asked. -/
theorem address_of_picked {raw : String} {after : List Question}
    (h : (p.offer recent).run.run asked = (.ok (some raw), after)) :
    (p.address recent).run.run asked = (named raw, after) := by
  unfold address
  rw [run_bind_ok h]
  rfl

theorem address_of_unpicked {after : List Question}
    (h : (p.offer recent).run.run asked = (.ok none, after)) :
    (p.address recent).run.run asked =
      ((p (after ++ [forAddress recent])).address, after ++ [forAddress recent]) := by
  have hinput : (p.input _ _ _).run.run after =
      ((p (after ++ [forAddress recent])).given.map Answer.text?, after ++ [forAddress recent]) :=
    input_run p _ _ _ after
  unfold address
  rw [run_bind_ok h]
  dsimp only
  rw [run_bind, hinput]
  cases p (after ++ [forAddress recent]) <;> rfl

theorem address_of_error {t : Trouble} {after : List Question}
    (h : (p.offer recent).run.run asked = (.error t, after)) :
    (p.address recent).run.run asked = (.error t, after) := by
  unfold address
  rw [run_bind, h]

/-- An address that is given after all questions is in its normal form. -/
theorem normal_of_address {address : String} {after : List Question}
    (h : (p.address recent).run.run asked = (.ok address, after)) :
    Address.normalize address = .ok address := by
  rcases hoffer : (p.offer recent).run.run asked with ⟨r, between⟩
  cases r with
  | error t =>
    rw [address_of_error hoffer] at h
    nomatch (Prod.mk.inj h).1
  | ok chosen =>
    cases chosen with
    | some raw =>
      rw [address_of_picked hoffer] at h
      exact normal_of_named (Prod.mk.inj h).1
    | none =>
      rw [address_of_unpicked hoffer] at h
      exact Answer.normal_of_address (Prod.mk.inj h).1

end Prompter

/-! ## The questions of a run -/

/-- The world in which these questions have been asked as well. -/
def World.asking (w : World) (questions : List Question) : World :=
  { w with asked := w.asked ++ questions }

theorem World.asking_asking (w : World) (questions questions' : List Question) :
    (w.asking questions).asking questions' = w.asking (questions ++ questions') := by
  unfold World.asking
  rw [List.append_assoc]

namespace Session

open Prompter

/-- In this world the step asks these questions and ends so, and it changes nothing else. -/
def Asks {α : Type} (w : World) (x : Attempt α) (questions : List Question)
    (result : Except Trouble α) : Prop :=
  x.run.run w = (result, w.asking questions)

variable {env : Environment} {config : Config} {w w' : World}

theorem asks_none {α : Type} {r : Except Trouble α} : Asks w (Attempt.ofExcept r) [] r := by
  show (r, w) = (r, { w with asked := w.asked ++ [] })
  rw [List.append_nil]

variable {α : Type} {x : Attempt α} {questions questions' : List Question}

/-- What a step asks and how it ends is determined. -/
theorem Asks.unique {r r' : Except Trouble α} (h : Asks w x questions r)
    (h' : Asks w x questions' r') : questions = questions' ∧ r = r' := by
  obtain ⟨hr, hw⟩ := Prod.mk.inj (h.symm.trans h')
  exact ⟨List.append_cancel_left (congrArg World.asked hw), hr⟩

theorem asks_ask {a : Asking α} {r : Except Trouble α}
    (h : a.run.run w.asked = (r, w.asked ++ questions)) : Asks w (Attempt.ask a) questions r := by
  show ((a.run.run w.asked).1, { w with asked := (a.run.run w.asked).2 }) = _
  rw [h]
  rfl

theorem normal_of_chooseAddress {given : Option String} {address : String}
    (h : (chooseAddress env given config).run.run w = (.ok address, w')) :
    Address.normalize address = .ok address := by
  cases given with
  | some raw => exact normal_of_named (Prod.mk.inj h).1
  | none =>
    have haddress : ((env.prompter.address config.recentAddresses).run.run w.asked).1 =
        .ok address := (Prod.mk.inj h).1
    exact normal_of_address (Prod.ext haddress rfl)

section

variable {recent : List String} (hrecent : config.recentAddresses = recent)

include hrecent

/-- Where the offer of the history ends with an entry of it, nothing else is asked. -/
theorem asks_of_picked {questions : List Question} {raw : String}
    (h : (env.prompter.offer recent).run.run w.asked = (.ok (some raw), w.asked ++ questions)) :
    Asks w (chooseAddress env none config) questions (named raw) := by
  rw [← hrecent] at h
  exact asks_ask (address_of_picked h)

/-- Where it ends with none, the user is asked for a text. -/
theorem asks_of_unpicked {questions : List Question}
    (h : (env.prompter.offer recent).run.run w.asked = (.ok none, w.asked ++ questions)) :
    Asks w (chooseAddress env none config) (questions ++ [forAddress recent])
      (env.prompter (w.asked ++ (questions ++ [forAddress recent]))).address := by
  rw [← hrecent] at h ⊢
  have haddress := address_of_unpicked h
  rw [List.append_assoc] at haddress
  exact asks_ask haddress

theorem asks_of_error {questions : List Question} {t : Trouble}
    (h : (env.prompter.offer recent).run.run w.asked = (.error t, w.asked ++ questions)) :
    Asks w (chooseAddress env none config) questions (.error t) := by
  rw [← hrecent] at h
  exact asks_ask (address_of_error h)

end

/-- Without a history the user is asked for a text at once. -/
theorem asks_of_empty (h : config.recentAddresses = []) (env : Environment) (w : World) :
    Asks w (chooseAddress env none config) [forAddress []]
      (env.prompter (w.asked ++ [forAddress []])).address := by
  have hoffer : (env.prompter.offer []).run.run w.asked = (.ok none, w.asked ++ []) := by
    rw [List.append_nil]
    exact offer_nil env.prompter w.asked
  exact asks_of_unpicked h hoffer

/-- No other questions are asked for an address. -/
theorem exists_asks (env : Environment) (config : Config) (w : World) :
    ∃ questions r, Asks w (chooseAddress env none config) questions r ∧
      ∀ q ∈ questions, q = amongRecent config.recentAddresses ∨
        q = forAddress config.recentAddresses := by
  by_cases h : config.recentAddresses = []
  · exact ⟨_, _, asks_of_empty h env w, by simp [h]⟩
  · have hoffer := offer_run h env.prompter w.asked
    cases hpicked : picked config.recentAddresses
        (env.prompter (w.asked ++ [amongRecent config.recentAddresses])) with
    | error t =>
      rw [hpicked] at hoffer
      exact ⟨_, _, asks_of_error rfl hoffer, by simp⟩
    | ok chosen =>
      rw [hpicked] at hoffer
      cases chosen with
      | some raw => exact ⟨_, _, asks_of_picked rfl hoffer, by simp⟩
      | none => exact ⟨_, _, asks_of_unpicked rfl hoffer, by simp⟩

/-- Whatever way an address is named, it is brought into its normal form. One that is given is not
asked for. Without a history the user is asked for a text once, with nothing to start from. With a
history the user is offered a new entry and the addresses of the history, once. The address at a
position of the history is taken as if it were given. For a new entry the user is asked for a text
once, with the last address to start from, and for no choice there is no address. A text that is
entered is taken as if it were given, and no text or a blank one is no address. -/
theorem chooseAddress_asks (env : Environment) (config : Config) (w : World) :
    let recent := config.recentAddresses
    let choice := env.prompter (w.asked ++ [amongRecent recent])
    (∀ given address w', (chooseAddress env given config).run.run w = (.ok address, w') →
      Address.normalize address = .ok address) ∧
    (∀ raw, Asks w (chooseAddress env (some raw) config) [] (named raw)) ∧
    (recent = [] →
      Asks w (chooseAddress env none config) [forAddress []]
        (env.prompter (w.asked ++ [forAddress []])).address) ∧
    (recent ≠ [] →
      (∀ i raw, choice = .position (i + 1) → recent[i]? = some raw →
        Asks w (chooseAddress env none config) [amongRecent recent] (named raw)) ∧
      (∀ n, choice = .position n → n = 0 ∨ recent.length < n →
        Asks w (chooseAddress env none config) [amongRecent recent, forAddress recent]
          (env.prompter (w.asked ++ [amongRecent recent, forAddress recent])).address) ∧
      (choice = .none →
        Asks w (chooseAddress env none config) [amongRecent recent]
          (.error (.failure .noAddress))) ∧
      (∀ reason, choice = .refused reason →
        Asks w (chooseAddress env none config) [amongRecent recent] (.error (.note reason)))) ∧
    (∀ answer : Answer, (answer = .none ∨ ∃ raw, answer = .text raw ∧ Text.Blank raw.toList) →
      answer.address = .error (.failure .noAddress)) ∧
    ∀ raw, (Answer.text raw).address = named raw := by
  intro recent choice
  refine ⟨fun given address w' => normal_of_chooseAddress, fun raw => asks_none,
    fun h => asks_of_empty h env w, fun h => ?_, fun answer h => ?_, fun raw => rfl⟩
  · have hoffer : (env.prompter.offer recent).run.run w.asked =
        (picked recent choice, w.asked ++ [amongRecent recent]) := offer_run h _ _
    refine ⟨fun i raw hchoice hraw => ?_, fun n hchoice hn => ?_, fun hchoice => ?_,
      fun reason hchoice => ?_⟩
    · rw [hchoice] at hoffer
      refine asks_of_picked rfl (hoffer.trans ?_)
      rw [picked, hraw]
    · rw [hchoice] at hoffer
      have hnone : picked recent (.position n) = .ok none := by
        cases n with
        | zero => rfl
        | succ n =>
          have hlength : recent.length ≤ n := by omega
          rw [picked, List.getElem?_eq_none hlength]
      rw [hnone] at hoffer
      exact asks_of_unpicked rfl hoffer
    · rw [hchoice] at hoffer
      exact asks_of_error rfl hoffer
    · rw [hchoice] at hoffer
      exact asks_of_error rfl hoffer
  · rcases h with rfl | ⟨raw, rfl, hblank⟩
    · rfl
    · exact named_blank hblank

/-- A user who chooses the last of two addresses, and enters a blank for an address. -/
def hesitant : Environment where
  configPath := ""
  now := ⟨0, 0⟩
  network _ _ := .refused
  prompter asked :=
    match asked.getLast? with
    | some (.select _ _ _) => .position 2
    | _ => .text " "

/-- The last address of the history is brought into its normal form, and without a history there is
no address. -/
theorem chooseAddress_asks_hesitant :
    let config : Config := { recentAddresses := ["http://a/svc/$metadata", "http://b/svc"] }
    Asks {} (chooseAddress hesitant none config) [amongRecent config.recentAddresses]
        (.ok "http://b/svc/$metadata") ∧
      Address.normalize "http://b/svc/$metadata" = .ok "http://b/svc/$metadata" ∧
      Asks {} (chooseAddress hesitant none {}) [forAddress []] (.error (.failure .noAddress)) := by
  intro config
  have hnamed : named "http://b/svc" = .ok "http://b/svc/$metadata" := by decide +kernel
  obtain ⟨hnormal, -, -, hhistory, -⟩ := chooseAddress_asks hesitant config {}
  have hsecond := (hhistory (by decide)).1 1 "http://b/svc" rfl rfl
  rw [hnamed] at hsecond
  obtain ⟨-, -, hempty, -, hblank, -⟩ := chooseAddress_asks hesitant {} {}
  have hentered := hempty rfl
  have hnone : (Answer.text " ").address = .error (.failure .noAddress) :=
    hblank _ (Or.inr ⟨" ", rfl, by decide +kernel⟩)
  exact ⟨hsecond, hnormal none _ _ hsecond, hentered.trans (congrArg (·, _) hnone)⟩

end Session

end EdmxGen
