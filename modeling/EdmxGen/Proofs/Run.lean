/-!
# Runs of steps that may fail

A run of two steps one after the other succeeds if both do, and fails where one of them does.
-/

namespace EdmxGen

section

variable {σ α β : Type} {x : StateM σ α} {f : α → StateM σ β} {w w' : σ}

theorem of_run_state_bind {r : β} (h : (x >>= f).run w = (r, w')) :
    ∃ a w₁, x.run w = (a, w₁) ∧ (f a).run w₁ = (r, w') :=
  ⟨(x.run w).1, (x.run w).2, rfl, h⟩

theorem run_state_bind {a : α} (h : x.run w = (a, w')) : (x >>= f).run w = (f a).run w' := by
  show (f (x.run w).1).run (x.run w).2 = _
  rw [h]

end

/-- Two results one after the other are a success if both are. -/
theorem ok_of_bind {ε α β : Type} {x : Except ε α} {f : α → Except ε β} {b : β}
    (h : x >>= f = .ok b) : ∃ a, x = .ok a ∧ f a = .ok b := by
  cases x with
  | ok a => exact ⟨a, rfl, h⟩
  | error e => cases h

/-- Two results one after the other that are no failure have a result each. -/
theorem exists_of_toBool {ε α β : Type} {x : Except ε α} {f : α → Except ε β}
    (h : (x >>= f).toBool = true) : ∃ a b, x = .ok a ∧ f a = .ok b := by
  cases hx : x >>= f with
  | ok b =>
    obtain ⟨a, ha, hb⟩ := ok_of_bind hx
    exact ⟨a, b, ha, hb⟩
  | error e =>
    rw [hx] at h
    nomatch h

variable {ε σ α β : Type} {x : ExceptT ε (StateM σ) α} {f : α → ExceptT ε (StateM σ) β} {w : σ}

/-- A run goes on from what its first step leaves. -/
theorem run_bind : (x >>= f).run.run w =
    match x.run.run w with
    | (.ok a, w') => (f a).run.run w'
    | (.error e, w') => (.error e, w') := by
  show (StateT.bind x (ExceptT.bindCont f)) w = _
  unfold StateT.bind
  show (match x w with | (r, w') => ExceptT.bindCont f r w') = match x w with
    | (.ok a, w') => f a w'
    | (.error e, w') => (.error e, w')
  rcases x w with ⟨r, w'⟩
  cases r <;> rfl

theorem run_bind_ok {a : α} {w' : σ} (h : x.run.run w = (.ok a, w')) :
    (x >>= f).run.run w = (f a).run.run w' := by rw [run_bind, h]

/-- A run that succeeds has succeeded in its first step and from there on. -/
theorem ok_of_run_bind {b : β} {w'' : σ} (h : (x >>= f).run.run w = (.ok b, w'')) :
    ∃ a w', x.run.run w = (.ok a, w') ∧ (f a).run.run w' = (.ok b, w'') := by
  rw [run_bind] at h
  rcases hx : x.run.run w with ⟨r, w'⟩
  rw [hx] at h
  cases r with
  | ok a => exact ⟨a, w', rfl, h⟩
  | error e => exact absurd (congrArg Prod.fst h) (by simp)

/-- A run that fails has failed in its first step or from there on. -/
theorem error_of_run_bind {e : ε} {w'' : σ} (h : (x >>= f).run.run w = (.error e, w'')) :
    x.run.run w = (.error e, w'') ∨
      ∃ a w', x.run.run w = (.ok a, w') ∧ (f a).run.run w' = (.error e, w'') := by
  rw [run_bind] at h
  rcases hx : x.run.run w with ⟨r, w'⟩
  rw [hx] at h
  cases r with
  | ok a => exact Or.inr ⟨a, w', rfl, h⟩
  | error e' =>
    obtain ⟨he, rfl⟩ := Prod.mk.inj h
    rw [Except.error.inj he]
    exact Or.inl rfl

/-- A run ends where its first step fails, or goes on from what that leaves. -/
theorem of_run_bind {r : Except ε β} {w'' : σ} (h : (x >>= f).run.run w = (r, w'')) :
    (∃ e, x.run.run w = (.error e, w'') ∧ r = .error e) ∨
      ∃ a w', x.run.run w = (.ok a, w') ∧ (f a).run.run w' = (r, w'') := by
  cases r with
  | ok b => exact Or.inr (ok_of_run_bind h)
  | error e =>
    rcases error_of_run_bind h with h | h
    · exact Or.inl ⟨e, h, rfl⟩
    · exact Or.inr h

/-- A step that cannot fail is followed by the rest of its run. -/
theorem of_run_lift_bind {s : StateM σ α} {r : Except ε β} {w'' : σ}
    (h : (ExceptT.lift s >>= f).run.run w = (r, w'')) :
    ∃ a w', s.run w = (a, w') ∧ (f a).run.run w' = (r, w'') :=
  ⟨(s.run w).1, (s.run w).2, rfl, h⟩

theorem of_run_lift {s : StateM σ α} {r : Except ε α} {w' : σ}
    (h : (ExceptT.lift s : ExceptT ε (StateM σ) α).run.run w = (r, w')) :
    ∃ a, r = .ok a ∧ s.run w = (a, w') := by
  obtain ⟨hr, hw⟩ := Prod.mk.inj h
  exact ⟨(s.run w).1, hr.symm, Prod.ext rfl hw⟩

/-- A result that was there leaves the state as it is. -/
theorem of_run_result {r : Except ε α} {s : Except ε α} {w' : σ}
    (h : (ExceptT.mk (pure r : StateM σ (Except ε α))).run.run w = (s, w')) : r = s ∧ w = w' :=
  Prod.mk.inj h

section

variable {ε' : Type} {s : StateM σ (Except ε α)} {g : ε → ε'} {w' : σ} {a : α}

/-- A step whose errors are put otherwise succeeds as it did. -/
theorem run_mapError (h : s.run w = (.ok a, w')) :
    (do pure ((← s).mapError g) : StateM σ (Except ε' α)).run w = (.ok a, w') := by
  rw [run_state_bind h]
  rfl

theorem exists_of_run_mapError {r : Except ε' α}
    (h : (do pure ((← s).mapError g) : StateM σ (Except ε' α)).run w = (r, w')) :
    ∃ r₀, s.run w = (r₀, w') := by
  obtain ⟨r₀, w₁, hs, h⟩ := of_run_state_bind h
  obtain ⟨_, rfl⟩ := Prod.mk.inj h
  exact ⟨r₀, hs⟩

theorem of_run_mapError
    (h : (do pure ((← s).mapError g) : StateM σ (Except ε' α)).run w = (.ok a, w')) :
    s.run w = (.ok a, w') := by
  obtain ⟨r, w₁, hs, h⟩ := of_run_state_bind h
  obtain ⟨hr, rfl⟩ := Prod.mk.inj h
  cases r with
  | ok b =>
    obtain rfl := Except.ok.inj hr
    exact hs
  | error e => nomatch hr

theorem error_of_run_mapError {e' : ε'}
    (h : (do pure ((← s).mapError g) : StateM σ (Except ε' α)).run w = (.error e', w')) :
    ∃ e, s.run w = (.error e, w') ∧ e' = g e := by
  obtain ⟨r, w₁, hs, h⟩ := of_run_state_bind h
  obtain ⟨hr, rfl⟩ := Prod.mk.inj h
  cases r with
  | ok b => nomatch hr
  | error e => exact ⟨e, hs, (Except.error.inj hr).symm⟩

end

end EdmxGen
