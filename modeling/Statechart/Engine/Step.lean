import Statechart.Engine.Basic

/-!
# The run loop, step by step

`Engine.step` performs one step of the run loop without waiting:

* a stopped engine stays stopped;
* while stabilizing, a step is a microstep without an event or, if that selects nothing, one for the
  oldest internal event; if there is none either, the engine waits;
* a waiting engine takes the oldest external event, or stops if the queue is closed;
* an event that has been taken is processed in the next step.

`Engine.stabilize` steps until the engine no longer stabilizes.  It ends because every step either
takes transitions, which the limit allows only so often, or consumes an internal event without
raising another (`Engine.step_decreases`).
-/

namespace Statechart

/-- What a step did. -/
inductive Outcome
  /-- A microstep, for an event or without one, with the number of transitions it took. -/
  | microstep (event : Option String) (transitions : Nat)
  /-- The configuration is stable. -/
  | settled
  /-- An external event was taken off the queue. -/
  | dequeued (event : String)
  /-- There is no external event. -/
  | idle
  /-- The chart has reached a final child of the root. -/
  | halted
  /-- The engine does not run. -/
  | stopped
  deriving DecidableEq, Repr

/-- Whether a step took transitions. -/
def Outcome.executed : Outcome → Bool
  | microstep _ n => 0 < n
  | _ => false

namespace Engine

variable {κ σ : Type}

/-- Ends a step of a stabilization: halts if the chart is at its end, and counts microsteps that took
transitions against the limit. -/
def afterMicrostep (su : Setup κ σ) (event : Option String) (n : Nat) (e : Engine κ σ) :
    Except Error Outcome × Engine κ σ :=
  if e.halted then (.ok .halted, e.shutdown)
  else if 0 < n then
    let e := { e with settling := e.settling + 1 }
    if su.options.maxMicrosteps < e.settling then
      (.error (.stabilizationLimit su.options.maxMicrosteps), e.shutdown)
    else (.ok (.microstep event n), e)
  else (.ok (.microstep event n), e)

/-- A step of a stabilization for the oldest internal event. -/
def consume [Context κ] (su : Setup κ σ) (e : Engine κ σ) : Except Error Outcome × Engine κ σ :=
  match e.store.internal with
  | [] => (.ok .settled, { e with phase := .waiting })
  | event :: rest =>
    let e :=
      { e with
        store := { e.store with internal := rest }
        stats := { e.stats with internalEvents := e.stats.internalEvents + 1 } }
    match guardedMicrostep su (some event) e with
    | (.error err, e) => (.error err, e)
    | (.ok n, e) => afterMicrostep su (some event.name) n e

/-- A step of a stabilization. -/
def stabilizeOnce [Context κ] (su : Setup κ σ) (e : Engine κ σ) :
    Except Error Outcome × Engine κ σ :=
  match guardedMicrostep su none e with
  | (.error err, e) => (.error err, e)
  | (.ok n, e) => if 0 < n then afterMicrostep su none n e else consume su e

/-- Takes an external event off the queue. -/
def accept (event : Event) (queue : ExternalQueue) (e : Engine κ σ) : Engine κ σ :=
  { e with external := queue, current := some event, phase := .processing }

/-- A step of a waiting engine. -/
def await (e : Engine κ σ) : Except Error Outcome × Engine κ σ :=
  if e.external.closed then (.ok .stopped, e.shutdown)
  else match e.external.pop with
    | (some event, queue) => (.ok (.dequeued event.name), e.accept event queue)
    | (none, _) => (.ok .idle, e)

/-- Processes the external event that has been taken. -/
def processCurrent [Context κ] (su : Setup κ σ) (e : Engine κ σ) :
    Except Error Outcome × Engine κ σ :=
  match e.current with
  | none => (.ok .idle, { e with phase := .waiting })
  | some event =>
    let e :=
      { e with
        current := none
        stats := { e.stats with macrosteps := e.stats.macrosteps + 1 } }
    match guardedMicrostep su (some event) e with
    | (.error err, e) => (.error err, e)
    | (.ok n, e) =>
      if e.halted then (.ok .halted, e.shutdown)
      else
        (.ok (.microstep (some event.name) n),
          { e with settling := 0, phase := if 0 < n then .stabilizing else .waiting })

/-- One step of the run loop. -/
def step [Context κ] (su : Setup κ σ) (e : Engine κ σ) : Except Error Outcome × Engine κ σ :=
  match e.phase with
  | .stopped => (.ok .stopped, e)
  | .stabilizing => stabilizeOnce su e
  | .waiting => e.await
  | .processing => processCurrent su e

/-! ### Why a stabilization ends -/

@[simp] theorem phase_shutdown (e : Engine κ σ) : e.shutdown.phase = .stopped := rfl

/-- A microstep keeps what only the run loop changes, and one without transitions raises nothing. -/
theorem microstep_frame [Context κ] {su : Setup κ σ} {event : Option Event} {e e' : Engine κ σ}
    {r : Except Error Nat} (h : microstep su event e = (r, e')) :
    e'.phase = e.phase ∧ e'.settling = e.settling ∧ e'.external = e.external ∧
      e'.current = e.current ∧ (r = .ok 0 → e'.store.internal = e.store.internal) := by
  have hx : ∀ ts e₁, selectTransitions su event (expose su event e) = (ts, e₁) →
      e₁.phase = e.phase ∧ e₁.settling = e.settling ∧ e₁.external = e.external ∧
        e₁.current = e.current ∧ e₁.store.internal = e.store.internal := by
    intro ts e₁ h₁
    simp only [selectTransitions, Prod.mk.injEq] at h₁
    obtain ⟨-, rfl⟩ := h₁
    unfold expose
    split <;> (try split) <;> simp [Store.report]
  unfold microstep at h
  split at h
  · next e₁ h₁ =>
    obtain ⟨rfl, rfl⟩ := Prod.mk.inj h
    have := hx _ _ h₁
    exact ⟨this.1, this.2.1, this.2.2.1, this.2.2.2.1, fun _ => this.2.2.2.2⟩
  · next ts e₁ hts h₁ =>
    have := hx _ _ h₁
    dsimp only at h
    split at h
    · obtain ⟨rfl, rfl⟩ := Prod.mk.inj h
      exact ⟨this.1, this.2.1, this.2.2.1, this.2.2.2.1, by simp⟩
    · obtain ⟨rfl, rfl⟩ := Prod.mk.inj h
      refine ⟨this.1, this.2.1, this.2.2.1, this.2.2.2.1, fun h0 => ?_⟩
      simp only [Except.ok.injEq, List.length_eq_zero_iff] at h0
      exact absurd h0 (by simpa using hts)

/-- A guarded microstep that does not fail is a microstep. -/
theorem guardedMicrostep_ok [Context κ] {su : Setup κ σ} {event : Option Event} {e e' : Engine κ σ}
    {n : Nat} (h : guardedMicrostep su event e = (.ok n, e')) :
    microstep su event e = (.ok n, e') := by
  unfold guardedMicrostep at h
  split at h
  · next h₁ => rw [h₁, h]
  · simp at h

/-- A guarded microstep that fails stops the engine. -/
theorem guardedMicrostep_error [Context κ] {su : Setup κ σ} {event : Option Event}
    {e e' : Engine κ σ} {err : Error} (h : guardedMicrostep su event e = (.error err, e')) :
    e'.phase = .stopped := by
  unfold guardedMicrostep at h
  split at h
  · simp at h
  · obtain ⟨-, rfl⟩ := Prod.mk.inj h
    rfl

/-- How much a stabilization can still do: the microsteps that the limit leaves, and the internal
events that wait. -/
def remaining (su : Setup κ σ) (e : Engine κ σ) : Nat × Nat × Nat :=
  match e.phase with
  | .stabilizing => (1, su.options.maxMicrosteps + 1 - e.settling, e.store.internal.length)
  | _ => (0, 0, 0)

/-- The end of a step either stops the engine, or counts a microstep that took transitions, or
changes nothing. -/
theorem afterMicrostep_cases (su : Setup κ σ) (event : Option String) (n : Nat) (e : Engine κ σ) :
    (afterMicrostep su event n e).2.phase = .stopped ∨
      (0 < n ∧ e.settling + 1 ≤ su.options.maxMicrosteps ∧
        (afterMicrostep su event n e).2 = { e with settling := e.settling + 1 }) ∨
      (n = 0 ∧ (afterMicrostep su event n e).2 = e) := by
  unfold afterMicrostep
  split
  · simp
  · split
    · next h =>
      dsimp only
      split
      · simp
      · next hle => exact .inr (.inl ⟨h, by omega, rfl⟩)
    · next h => exact .inr (.inr ⟨by omega, rfl⟩)

/-- A step of a stabilization makes progress. -/
theorem step_decreases [Context κ] (su : Setup κ σ) {e : Engine κ σ} (h : e.phase = .stabilizing) :
    Prod.Lex (· < ·) (Prod.Lex (· < ·) (· < ·)) (remaining su (step su e).2) (remaining su e) := by
  have here : remaining su e =
      (1, su.options.maxMicrosteps + 1 - e.settling, e.store.internal.length) := by
    simp [remaining, h]
  have ends : ∀ e' : Engine κ σ, e'.phase ≠ .stabilizing →
      Prod.Lex (· < ·) (Prod.Lex (· < ·) (· < ·)) (remaining su e') (remaining su e) := by
    intro e' h'
    have : remaining su e' = (0, 0, 0) := by
      unfold remaining
      split
      · contradiction
      · rfl
    rw [this, here]
    exact .left _ _ (by omega)
  have counts : ∀ e' : Engine κ σ, e'.settling = e.settling → e'.settling + 1 ≤ su.options.maxMicrosteps →
      Prod.Lex (· < ·) (Prod.Lex (· < ·) (· < ·))
        (remaining su { e' with settling := e'.settling + 1 }) (remaining su e) := by
    intro e' hs hle
    by_cases hp : e'.phase = .stabilizing
    · have : remaining su { e' with settling := e'.settling + 1 } =
          (1, su.options.maxMicrosteps + 1 - (e'.settling + 1), e'.store.internal.length) := by
        simp [remaining, hp]
      rw [this, here, hs]
      exact .right _ (.left _ _ (by omega))
    · exact ends _ hp
  have hstep : step su e = stabilizeOnce su e := by simp [step, h]
  rw [hstep]
  unfold stabilizeOnce
  split
  · next h₁ => exact ends _ (by simp [guardedMicrostep_error h₁])
  · next n e₁ h₁ =>
    obtain ⟨hp₁, hs₁, -, -, hi₁⟩ := microstep_frame (guardedMicrostep_ok h₁)
    split
    · next hn =>
      rcases afterMicrostep_cases su none n e₁ with h' | h' | h'
      · exact ends _ (by simp [h'])
      · rw [h'.2.2]; exact counts e₁ hs₁ h'.2.1
      · omega
    · next hn =>
      obtain rfl : n = 0 := by omega
      have hi₁ := hi₁ rfl
      unfold consume
      split
      · exact ends _ (by simp)
      · next event rest hq =>
        dsimp only
        split
        · next h₂ => exact ends _ (by simp [guardedMicrostep_error h₂])
        · next k e₂ h₂ =>
          obtain ⟨hp₂, hs₂, -, -, hi₂⟩ := microstep_frame (guardedMicrostep_ok h₂)
          rcases afterMicrostep_cases su (some event.name) k e₂
            with h' | h' | h'
          · exact ends _ (by simp [h'])
          · rw [h'.2.2]; exact counts e₂ (hs₂.trans hs₁) h'.2.1
          · obtain ⟨rfl, h'⟩ := h'
            rw [h']
            have hi₂ := hi₂ rfl
            have hp : e₂.phase = .stabilizing := by rw [hp₂]; exact hp₁.trans h
            have : remaining su e₂ =
                (1, su.options.maxMicrosteps + 1 - e.settling, rest.length) := by
              have hs : e₂.settling = e.settling := hs₂.trans hs₁
              simp [remaining, hp, hs, hi₂]
            rw [this, here, ← hi₁, hq]
            exact .right _ (.right _ (by simp))

/-- Steps until the engine no longer stabilizes.  Gives the number of microsteps that took
transitions, counted from `executed`. -/
def stabilizeFrom [Context κ] (su : Setup κ σ) (e : Engine κ σ) (executed : Nat) :
    Except Error Nat × Engine κ σ :=
  if _h : e.phase = .stabilizing then
    match _hs : step su e with
    | (.error err, e') => (.error err, e')
    | (.ok outcome, e') =>
      stabilizeFrom su e' (if outcome.executed then executed + 1 else executed)
  else (.ok executed, e)
termination_by remaining su e
decreasing_by
  have := step_decreases su _h
  rw [_hs] at this
  exact this

/-- Steps until the engine no longer stabilizes, and gives the number of microsteps that took
transitions. -/
def stabilize [Context κ] (su : Setup κ σ) (e : Engine κ σ) : Except Error Nat × Engine κ σ :=
  stabilizeFrom su e 0

end Engine

end Statechart
