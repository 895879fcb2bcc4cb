import Statechart.Engine.Step

/-!
# Operating an engine

What a host does with an engine: `start`, `stop`, `inject`, `processNext`, `send` and `run`; through
the external queue `push`, `closeQueue` and `reopenQueue`; and `writeContext`.

`run` processes external events until the queue is closed or the chart halts.  The host closes the
queue as soon as no event waits, so a run ends (`Engine.events_step_le`: no step makes the queue
longer, and `Engine.events_round_lt`: every round but the last takes an event).
-/

namespace Statechart.Engine

variable {κ σ : Type}

/-- An engine before a start: nothing waits, and the external queue is open. -/
def reset (e : Engine κ σ) : Engine κ σ :=
  { e with
    store := { e.store with internal := [] }
    external := e.external.reopen
    current := none
    halted := false
    settling := 0 }

/-- Enters the initial configuration and publishes it. -/
def enterInitial [Context κ] (su : Setup κ σ) (e : Engine κ σ) : Except Error Unit × Engine κ σ :=
  match Configuration.initial su.model with
  | .error err => (.error err, e)
  | .ok initial =>
    let entered := initial.states
    let none := Configuration.empty
    let store := e.store.runEntries su.model su.evaluator (none.entering entered)
    let next := none.enter entered
    let e := { e with store := store }
    match next.validate su.model with
    | .error err => (.error err, e)
    | .ok () =>
      let e := (e.publish next).raiseDone su.model entered.toList
      (.ok (), if e.halted then e.shutdown else { e with phase := .stabilizing })

/-- Enters the initial configuration and stabilizes. -/
def start [Context κ] (su : Setup κ σ) (e : Engine κ σ) : Except Error Unit × Engine κ σ :=
  if e.phase ≠ .stopped then (.error (.refused .start e.phase), e)
  else
    match enterInitial su e.reset with
    | (.error err, e) => (.error err, e)
    | (.ok (), e) =>
      match stabilize su e with
      | (.error err, e) => (.error err, e)
      | (.ok _, e) => (.ok (), e)

/-- Finishes the processing of the event that has been taken, with its stabilization. -/
def settle [Context κ] (su : Setup κ σ) (e : Engine κ σ) : Except Error Unit × Engine κ σ :=
  match if e.phase = .processing then step su e else (.ok .idle, e) with
  | (.error err, e) => (.error err, e)
  | (.ok _, e) =>
    match stabilize su e with
    | (.error err, e) => (.error err, e)
    | (.ok _, e) => (.ok (), e)

/-- Stops an engine after it has finished what it is doing. -/
def stop [Context κ] (su : Setup κ σ) (e : Engine κ σ) : Except Error Unit × Engine κ σ :=
  if e.phase = .stopped then (.error (.refused .stop e.phase), e)
  else match settle su e with
    | (.error err, e) => (.error err, e)
    | (.ok (), e) => (.ok (), if e.phase = .stopped then e else e.shutdown)

/-- Appends an event to the external queue. -/
def push (event : Event) (e : Engine κ σ) : Except Error Unit × Engine κ σ :=
  match e.external.push? event with
  | some queue => (.ok (), { e with external := queue })
  | none => (.error .queueClosed, e)

/-- Queues an external event for a running engine. -/
def inject (event : Event) (e : Engine κ σ) : Except Error Unit × Engine κ σ :=
  if e.phase = .stopped then (.error (.refused .inject e.phase), e) else e.push event

/-- Closes the external queue. -/
def closeQueue (e : Engine κ σ) : Engine κ σ := { e with external := e.external.close }

/-- Opens the external queue. -/
def reopenQueue (e : Engine κ σ) : Engine κ σ := { e with external := e.external.reopen }

/-- Changes the context. -/
def writeContext (change : κ → κ) (e : Engine κ σ) : Engine κ σ :=
  { e with store := { e.store with context := change e.store.context } }

/-- Processes the oldest external event with its stabilization, and tells whether there was one. -/
def processNext [Context κ] (su : Setup κ σ) (e : Engine κ σ) : Except Error Bool × Engine κ σ :=
  if e.phase ≠ .waiting then (.error (.refused .process e.phase), e)
  else match step su e with
    | (.error err, e) => (.error err, e)
    | (.ok (.dequeued _), e) =>
      match step su e with
      | (.error err, e) => (.error err, e)
      | (.ok _, e) =>
        match stabilize su e with
        | (.error err, e) => (.error err, e)
        | (.ok _, e) => (.ok true, e)
    | (.ok _, e) => (.ok false, e)

/-- Queues an external event for a running engine, and processes the oldest one that waits. -/
def send [Context κ] (su : Setup κ σ) (event : Event) (e : Engine κ σ) :
    Except Error Bool × Engine κ σ :=
  match e.inject event with
  | (.error err, e) => (.error err, e)
  | (.ok (), e) => processNext su e

/-! ### Why a run ends -/

theorem events_shutdown (e : Engine κ σ) : e.shutdown.external.events = [] := rfl

theorem events_guardedMicrostep_le [Context κ] {su : Setup κ σ} {event : Option Event}
    {e e' : Engine κ σ} {r : Except Error Nat} (h : guardedMicrostep su event e = (r, e')) :
    e'.external.events.length ≤ e.external.events.length := by
  unfold guardedMicrostep at h
  split at h
  · next h₁ =>
    obtain ⟨-, rfl⟩ := Prod.mk.inj h
    exact Nat.le_of_eq (congrArg (·.events.length) (microstep_frame h₁).2.2.1)
  · obtain ⟨-, rfl⟩ := Prod.mk.inj h
    simp [events_shutdown]

theorem events_afterMicrostep_le {su : Setup κ σ} {event : Option String} {n : Nat}
    {e : Engine κ σ} :
    (afterMicrostep su event n e).2.external.events.length ≤ e.external.events.length := by
  unfold afterMicrostep
  split
  · simp [events_shutdown]
  · split
    · dsimp only
      split <;> simp [events_shutdown]
    · simp

/-- No step makes the external queue longer. -/
theorem events_step_le [Context κ] (su : Setup κ σ) (e : Engine κ σ) :
    (step su e).2.external.events.length ≤ e.external.events.length := by
  unfold step
  split
  · simp
  · unfold stabilizeOnce
    split
    · next h => exact events_guardedMicrostep_le h
    · next n e₁ h =>
      have h₁ := events_guardedMicrostep_le h
      split
      · exact Nat.le_trans events_afterMicrostep_le h₁
      · unfold consume
        split
        · exact h₁
        · dsimp only
          split
          · next h₂ => exact Nat.le_trans (events_guardedMicrostep_le h₂) h₁
          · next h₂ =>
            exact Nat.le_trans events_afterMicrostep_le
              (Nat.le_trans (events_guardedMicrostep_le h₂) h₁)
  · unfold await
    split
    · simp [events_shutdown]
    · split
      · next h =>
        have := ExternalQueue.length_of_pop h
        simp only [accept]
        omega
      · simp
  · unfold processCurrent
    split
    · simp
    · dsimp only
      split
      · next h =>
        have h₁ := events_guardedMicrostep_le h
        exact h₁
      · next h =>
        have h₁ := events_guardedMicrostep_le h
        split
        · simp [events_shutdown]
        · exact h₁

theorem events_stabilizeFrom_le [Context κ] (su : Setup κ σ) (e : Engine κ σ) (k : Nat) :
    (stabilizeFrom su e k).2.external.events.length ≤ e.external.events.length := by
  fun_induction stabilizeFrom su e k with
  | case1 e k h err e' hs =>
    have := events_step_le su e
    rwa [hs] at this
  | case2 e k h outcome e' hs ih =>
    have := events_step_le su e
    rw [hs] at this
    exact Nat.le_trans ih this
  | case3 => simp

theorem events_settle_le [Context κ] (su : Setup κ σ) (e : Engine κ σ) :
    (settle su e).2.external.events.length ≤ e.external.events.length := by
  unfold settle
  have hstep : ∀ r e₁, (if e.phase = .processing then step su e else (.ok .idle, e)) = (r, e₁) →
      e₁.external.events.length ≤ e.external.events.length := by
    intro r e₁ h
    have := events_step_le su e
    split at h <;> simp_all
  split
  · next h => exact hstep _ _ h
  · next e₁ h =>
    have h₁ := hstep _ _ h
    have h₂ := events_stabilizeFrom_le su e₁ 0
    unfold stabilize
    split
    · next h₃ => rw [h₃] at h₂; exact Nat.le_trans h₂ h₁
    · next h₃ => rw [h₃] at h₂; exact Nat.le_trans h₂ h₁

/-! ### Running -/

/-- What a run gives: the configurations that it has shown, how it ended, and the engine after it. -/
structure Run (κ σ : Type) where
  observed : List Configuration
  result : Except Error Unit
  engine : Engine κ σ

/-- The configurations that an observer has seen when an engine has settled.  `shown` tells how many
had been published when the last of `seen` was shown. -/
def observe (seen : List Configuration) (shown : Nat) (e : Engine κ σ) : List Configuration :=
  if e.stats.configurations ≠ shown then seen ++ [e.configuration] else seen

/-- One round of a run, and whether the run goes on after it.  The engine finishes what it is doing,
and the observer sees its configuration if that is new, and may close the queue.  Then the engine
takes the next external event, or stops if there is none. -/
def round [Context κ] (su : Setup κ σ) (closes : List Configuration → Bool)
    (seen : List Configuration) (shown : Nat) (e : Engine κ σ) : Bool × Run κ σ :=
  match settle su e with
  | (.error err, e) => (false, ⟨seen, .error err, e⟩)
  | (.ok (), e) =>
    let seen := e.observe seen shown
    if e.phase = .stopped then (false, ⟨seen, .ok (), e⟩)
    else if e.stats.configurations ≠ shown ∧ closes seen then
      (false, ⟨seen, .ok (), e.closeQueue.shutdown⟩)
    else match e.external.pop with
      | (some event, queue) => (true, ⟨seen, .ok (), e.accept event queue⟩)
      | (none, _) => (false, ⟨seen, .ok (), e.shutdown⟩)

/-- A round after which the run goes on has taken an event. -/
theorem events_round_lt [Context κ] {su : Setup κ σ} {closes : List Configuration → Bool}
    {seen : List Configuration} {shown : Nat} {e : Engine κ σ} {r : Run κ σ}
    (h : round su closes seen shown e = (true, r)) :
    r.engine.external.events.length < e.external.events.length := by
  have hle := events_settle_le su e
  unfold round at h
  split at h
  · simp at h
  · next e' hs =>
    rw [hs] at hle
    dsimp only at h hle
    split at h
    · simp at h
    · split at h
      · simp at h
      · split at h
        · next hpop =>
          obtain ⟨-, rfl⟩ := Prod.mk.inj h
          have := ExternalQueue.length_of_pop hpop
          simp only [accept]
          omega
        · simp at h

/-- Processes external events until there is none or the engine has stopped. -/
def runFrom [Context κ] (su : Setup κ σ) (closes : List Configuration → Bool)
    (seen : List Configuration) (shown : Nat) (e : Engine κ σ) : Run κ σ :=
  match _h : round su closes seen shown e with
  | (true, r) => runFrom su closes r.observed r.engine.stats.configurations r.engine
  | (false, r) => r
termination_by e.external.events.length
decreasing_by exact events_round_lt _h

/-- Processes external events until the queue is closed or the chart halts. -/
def run [Context κ] (su : Setup κ σ) (closes : List Configuration → Bool) (e : Engine κ σ) :
    Run κ σ :=
  if e.phase = .stopped then ⟨[], .error (.refused .run e.phase), e⟩
  else runFrom su closes [] e.stats.configurations e

end Statechart.Engine
