import Statechart.Proofs.Engine.Publication

/-!
# Sessions

A session is what a host does with an engine, one action after the other.  Each action takes some
steps of the run loop, and `Engine.trail` lists the engines after them.

* `Action`, `Engine.perform`: what a host can do, and what it gives;
* `Engine.phase_of_step_error`: a step that fails stops the engine, so that a trail ends there;
* `Engine.leads_trail`: a trail leads to what the action gives, one step at a time;
* `Engine.leads_sessionTrail`: so does the trail of a session.

Between two steps of a `run` or a `stabilize`, a host with several threads may act on the queue.
That is a session of steps and of what happens in between.
-/

namespace Statechart

/-- What a host can do with an engine. -/
inductive Action (κ : Type)
  | start
  | stop
  | step
  | stabilize
  | processNext
  /-- A run whose observer closes the queue after some configurations. -/
  | run (closes : List Configuration → Bool)
  | inject (event : Event)
  | push (event : Event)
  | closeQueue
  | reopenQueue
  | writeContext (change : κ → κ)

/-- The error of an answer, if it is one. -/
def failure? {α : Type} : Except Error α → Option Error
  | .error err => some err
  | .ok _ => none

namespace Engine

variable {κ σ : Type} {su : Setup κ σ} {e e' : Engine κ σ}

/-! ### What a step can do -/

/-- A stabilization fails only at its limit, which stops the engine. -/
theorem afterMicrostep_error {name : Option String} {n : Nat} {err : Error}
    (h : afterMicrostep su name n e = (.error err, e')) :
    err = .stabilizationLimit su.options.maxMicrosteps ∧ e'.phase = .stopped := by
  unfold afterMicrostep at h
  split at h
  · cases h
  · split at h
    · dsimp only at h
      split at h
      · cases h
        exact ⟨rfl, rfl⟩
      · cases h
    · cases h

/-- What a waiting engine does: it stops, takes an event or goes on waiting. -/
theorem await_cases (e : Engine κ σ) :
    (e.external.closed ∧ e.await = (.ok .stopped, e.shutdown)) ∨
      (∃ event queue, e.external.pop = (some event, queue) ∧
        e.await = (.ok (.dequeued event.name), e.accept event queue)) ∨
      (e.external.pop.1 = none ∧ e.await = (.ok .idle, e)) := by
  unfold await
  split
  · next hc => exact .inl ⟨hc, rfl⟩
  · split
    · next event queue hpop => exact .inr (.inl ⟨event, queue, hpop, rfl⟩)
    · next hpop => exact .inr (.inr ⟨by rw [hpop], rfl⟩)

variable [Context κ]

theorem phase_of_consume_error {err : Error} (h : consume su e = (.error err, e')) :
    e'.phase = .stopped := by
  unfold consume at h
  split at h
  · cases h
  · dsimp only at h
    split at h
    · next hm =>
      cases h
      exact guardedMicrostep_error hm
    · exact (afterMicrostep_error h).2

theorem phase_of_stabilizeOnce_error {err : Error} (h : stabilizeOnce su e = (.error err, e')) :
    e'.phase = .stopped := by
  unfold stabilizeOnce at h
  split at h
  · next hm =>
    cases h
    exact guardedMicrostep_error hm
  · split at h
    · exact (afterMicrostep_error h).2
    · exact phase_of_consume_error h

theorem phase_of_processCurrent_error {err : Error} (h : processCurrent su e = (.error err, e')) :
    e'.phase = .stopped := by
  unfold processCurrent at h
  split at h
  · cases h
  · dsimp only at h
    split at h
    · next hm =>
      cases h
      exact guardedMicrostep_error hm
    · split at h <;> cases h

/-- A step that fails stops the engine. -/
theorem phase_of_step_error {err : Error} (h : step su e = (.error err, e')) :
    e'.phase = .stopped := by
  unfold step at h
  split at h
  · cases h
  · exact phase_of_stabilizeOnce_error h
  · -- Waiting never fails.
    rcases await_cases e with ⟨-, h'⟩ | ⟨_, _, -, h'⟩ | ⟨-, h'⟩ <;>
      (rw [h'] at h; cases h)
  · exact phase_of_processCurrent_error h

/-! ### Actions -/

/-- The error with which an action ends, if any, and the engine after it. -/
def perform (su : Setup κ σ) (e : Engine κ σ) : Action κ → Option Error × Engine κ σ
  | .start => (failure? (start su e).1, (start su e).2)
  | .stop => (failure? (stop su e).1, (stop su e).2)
  | .step => (failure? (step su e).1, (step su e).2)
  | .stabilize => (failure? (stabilize su e).1, (stabilize su e).2)
  | .processNext => (failure? (processNext su e).1, (processNext su e).2)
  | .run closes => (failure? (run su closes e).result, (run su closes e).engine)
  | .inject event => (failure? (e.inject event).1, (e.inject event).2)
  | .push event => (failure? (e.push event).1, (e.push event).2)
  | .closeQueue => (none, e.closeQueue)
  | .reopenQueue => (none, e.reopenQueue)
  | .writeContext change => (none, e.writeContext change)

/-! ### Trails -/

/-- The engines after the steps of a stabilization. -/
def stabilizeTrail (su : Setup κ σ) (e : Engine κ σ) : List (Engine κ σ) :=
  if _h : e.phase = .stabilizing then (step su e).2 :: stabilizeTrail su (step su e).2 else []
termination_by remaining su e
decreasing_by exact step_decreases su _h

/-- The engines after the steps that finish what an engine is doing. -/
def settleTrail (su : Setup κ σ) (e : Engine κ σ) : List (Engine κ σ) :=
  if e.phase = .processing then (step su e).2 :: stabilizeTrail su (step su e).2
  else stabilizeTrail su e

/-- The engines after the steps of a run. -/
def runTrail (su : Setup κ σ) (closes : List Configuration → Bool) (seen : List Configuration)
    (shown : Nat) (e : Engine κ σ) : List (Engine κ σ) :=
  match _h : round su closes seen shown e with
  | (true, r) =>
    settleTrail su e ++ r.engine ::
      runTrail su closes r.observed r.engine.stats.configurations r.engine
  | (false, r) => settleTrail su e ++ [r.engine]
termination_by e.external.events.length
decreasing_by exact events_round_lt _h

/-- The engines after the steps of an action. -/
def trail (su : Setup κ σ) (e : Engine κ σ) : Action κ → List (Engine κ σ)
  | .start =>
    if e.phase ≠ .stopped then []
    else (enterInitial su e.reset).2 :: stabilizeTrail su (enterInitial su e.reset).2
  | .stop =>
    if e.phase = .stopped then [] else settleTrail su e ++ [(perform su e .stop).2]
  | .stabilize => stabilizeTrail su e
  | .processNext =>
    if e.phase ≠ .waiting then [] else (step su e).2 :: settleTrail su (step su e).2
  | .run closes =>
    if e.phase = .stopped then [] else runTrail su closes [] e.stats.configurations e
  | a => [(perform su e a).2]

/-! ### Where trails lead -/

theorem stabilizeTrail_of_ne (h : e.phase ≠ .stabilizing) : stabilizeTrail su e = [] := by
  rw [stabilizeTrail, dif_neg h]

theorem settleTrail_of_ne (h : e.phase ≠ .processing) : settleTrail su e = stabilizeTrail su e :=
  if_neg h

/-- The trail of a stabilization leads to its end. -/
theorem leads_stabilizeTrail (su : Setup κ σ) (e : Engine κ σ) (n : Nat) :
    Leads e (stabilizeTrail su e) (stabilizeFrom su e n).2 := by
  fun_induction stabilizeFrom su e n with
  | case1 e n h err e' hs =>
    -- The step has stopped the engine, so the trail ends with it.
    have hstopped := phase_of_step_error hs
    have hstep := follows_step su e
    rw [hs] at hstep
    rw [stabilizeTrail, dif_pos h, hs, stabilizeTrail_of_ne (by simp [hstopped])]
    exact .single hstep
  | case2 e n h outcome e' hs ih =>
    have hstep := follows_step su e
    rw [hs] at hstep
    rw [stabilizeTrail, dif_pos h, hs]
    exact .cons hstep ih
  | case3 e n h =>
    rw [stabilizeTrail_of_ne h]
    exact .nil e

theorem leads_stabilize (su : Setup κ σ) (e : Engine κ σ) :
    Leads e (stabilizeTrail su e) (stabilize su e).2 := leads_stabilizeTrail su e 0

theorem leads_settleTrail (su : Setup κ σ) (e : Engine κ σ) :
    Leads e (settleTrail su e) (settle su e).2 := by
  unfold settleTrail settle
  split
  · have hstep := follows_step su e
    split
    · next err e₁ hs =>
      have hstopped := phase_of_step_error hs
      rw [hs] at hstep ⊢
      rw [stabilizeTrail_of_ne (by simp [hstopped])]
      exact .single hstep
    · next e₁ hs =>
      rw [hs]
      rw [hs] at hstep
      have h := leads_stabilize su e₁
      split <;> (next h' => rw [h'] at h; exact .cons hstep h)
  · have h := leads_stabilize su e
    dsimp only
    split <;> (next h' => rw [h'] at h; exact h)

theorem runFrom_of_round_true {closes : List Configuration → Bool} {seen : List Configuration}
    {shown : Nat} {r : Run κ σ} (h : round su closes seen shown e = (true, r)) :
    runFrom su closes seen shown e =
      runFrom su closes r.observed r.engine.stats.configurations r.engine := by
  rw [runFrom]
  split
  · next h' =>
    cases h.symm.trans h'
    rfl
  · next h' => cases h.symm.trans h'

theorem runFrom_of_round_false {closes : List Configuration → Bool} {seen : List Configuration}
    {shown : Nat} {r : Run κ σ} (h : round su closes seen shown e = (false, r)) :
    runFrom su closes seen shown e = r := by
  rw [runFrom]
  split
  · next h' => cases h.symm.trans h'
  · next h' =>
    cases h.symm.trans h'
    rfl

theorem runTrail_of_round_true {closes : List Configuration → Bool} {seen : List Configuration}
    {shown : Nat} {r : Run κ σ} (h : round su closes seen shown e = (true, r)) :
    runTrail su closes seen shown e =
      settleTrail su e ++ r.engine ::
        runTrail su closes r.observed r.engine.stats.configurations r.engine := by
  rw [runTrail]
  split
  · next h' =>
    cases h.symm.trans h'
    rfl
  · next h' => cases h.symm.trans h'

theorem runTrail_of_round_false {closes : List Configuration → Bool} {seen : List Configuration}
    {shown : Nat} {r : Run κ σ} (h : round su closes seen shown e = (false, r)) :
    runTrail su closes seen shown e =
      settleTrail su e ++ [r.engine] := by
  rw [runTrail]
  split
  · next h' => cases h.symm.trans h'
  · next h' =>
    cases h.symm.trans h'
    rfl

/-- After it has settled, the engine publishes nothing more in a round. -/
theorem keeps_round (su : Setup κ σ) (closes : List Configuration → Bool)
    (seen : List Configuration) (shown : Nat) (e : Engine κ σ) :
    Keeps (settle su e).2 (round su closes seen shown e).2.engine := by
  unfold round
  split
  · next hs => rw [hs]
  · next hs =>
    rw [hs]
    dsimp only
    split
    · rfl
    · split
      · exact ⟨rfl, rfl⟩
      · split
        · exact keeps_accept ..
        · exact keeps_shutdown

theorem leads_runTrail (su : Setup κ σ) (closes : List Configuration → Bool)
    (seen : List Configuration) (shown : Nat) (e : Engine κ σ) :
    Leads e (runTrail su closes seen shown e) (runFrom su closes seen shown e).engine := by
  fun_induction runTrail su closes seen shown e with
  | case1 seen shown e r h ih =>
    have hround := keeps_round su closes seen shown e
    rw [h] at hround
    rw [runFrom_of_round_true h]
    exact (leads_settleTrail su e).append (.cons (.inl hround) ih)
  | case2 seen shown e r h =>
    have hround := keeps_round su closes seen shown e
    rw [h] at hround
    rw [runFrom_of_round_false h]
    exact (leads_settleTrail su e).append (.single (.inl hround))

theorem phase_of_enterInitial_error {err : Error} (h : enterInitial su e = (.error err, e')) :
    e'.phase = e.phase := by
  unfold enterInitial at h
  split at h
  · cases h
    rfl
  · dsimp only at h
    split at h <;> cases h
    rfl

theorem leads_start (su : Setup κ σ) (e : Engine κ σ) :
    Leads e (trail su e .start) (start su e).2 := by
  rw [trail, start]
  split
  · exact .nil e
  · next hp =>
    have hf : Follows e (enterInitial su e.reset).2 := follows_enterInitial su e.reset
    split
    · next err e₁ he =>
      have hstopped : e₁.phase = .stopped :=
        (phase_of_enterInitial_error he).trans (not_not.1 hp)
      rw [he] at hf ⊢
      rw [stabilizeTrail_of_ne (by simp [hstopped])]
      exact .single hf
    · next e₁ he =>
      rw [he] at hf ⊢
      have h := leads_stabilize su e₁
      split <;> (next h' => rw [h'] at h; exact .cons hf h)

theorem leads_stop (su : Setup κ σ) (e : Engine κ σ) :
    Leads e (trail su e .stop) (stop su e).2 := by
  rw [trail, perform]
  split
  · next hp =>
    rw [stop, if_pos hp]
    exact .nil e
  · next hp =>
    refine (leads_settleTrail su e).append (.single (.inl ?_))
    rw [stop, if_neg hp]
    split
    · next h => rw [h]
    · next h =>
      rw [h]
      dsimp only
      split
      · rfl
      · exact keeps_shutdown

theorem step_waiting (h : e.phase = .waiting) : step su e = e.await := by
  simp only [step, h]

theorem leads_processNext (su : Setup κ σ) (e : Engine κ σ) :
    Leads e (trail su e .processNext) (processNext su e).2 := by
  rw [trail, processNext]
  split
  · exact .nil e
  · next hp =>
    have hwaiting : e.phase = .waiting := not_not.1 hp
    rw [step_waiting hwaiting]
    have hf : Follows e e.await.2 := .inl (keeps_await e)
    rcases await_cases e with ⟨-, h⟩ | ⟨event, queue, -, h⟩ | ⟨-, h⟩
    · rw [h] at hf ⊢
      rw [settleTrail_of_ne (by simp), stabilizeTrail_of_ne (by simp)]
      exact .single hf
    · -- The event that has been taken is processed as `settle` does it.
      rw [h] at hf ⊢
      refine .cons hf ?_
      have hsettle := leads_settleTrail su (e.accept event queue)
      have hprocessing : (e.accept event queue).phase = .processing := rfl
      rw [settle, if_pos hprocessing] at hsettle
      dsimp only
      split
      · next hs =>
        rw [hs] at hsettle
        exact hsettle
      · next e₁ hs =>
        rw [hs] at hsettle
        dsimp only at hsettle
        split <;> (next h' => rw [h'] at hsettle; exact hsettle)
    · rw [h] at hf ⊢
      rw [settleTrail_of_ne (by simp [hwaiting]), stabilizeTrail_of_ne (by simp [hwaiting])]
      exact .single hf

theorem leads_run (su : Setup κ σ) (closes : List Configuration → Bool) (e : Engine κ σ) :
    Leads e (trail su e (.run closes)) (run su closes e).engine := by
  rw [trail, run]
  split
  · exact .nil e
  · exact leads_runTrail ..

/-- The trail of an action leads to what the action gives. -/
theorem leads_trail (su : Setup κ σ) (e : Engine κ σ) (a : Action κ) :
    Leads e (trail su e a) (perform su e a).2 := by
  cases a with
  | start => exact leads_start su e
  | stop => exact leads_stop su e
  | step => exact .single (follows_step su e)
  | stabilize => exact leads_stabilize su e
  | processNext => exact leads_processNext su e
  | run closes => exact leads_run su closes e
  | inject event => exact .single (.inl (keeps_inject event e))
  | push event => exact .single (.inl (keeps_push event e))
  | closeQueue => exact .single (.inl ⟨rfl, rfl⟩)
  | reopenQueue => exact .single (.inl ⟨rfl, rfl⟩)
  | writeContext change => exact .single (.inl ⟨rfl, rfl⟩)

/-! ### Whole sessions -/

/-- The engine after a session. -/
def performAll (su : Setup κ σ) (e : Engine κ σ) (actions : List (Action κ)) : Engine κ σ :=
  actions.foldl (fun e a => (perform su e a).2) e

/-- The engines after the steps of a session. -/
def sessionTrail (su : Setup κ σ) (e : Engine κ σ) : List (Action κ) → List (Engine κ σ)
  | [] => []
  | a :: rest => trail su e a ++ sessionTrail su (perform su e a).2 rest

/-- The errors with which the actions of a session end. -/
def sessionErrors (su : Setup κ σ) (e : Engine κ σ) : List (Action κ) → List Error
  | [] => []
  | a :: rest => (perform su e a).1.toList ++ sessionErrors su (perform su e a).2 rest

theorem leads_sessionTrail (su : Setup κ σ) (e : Engine κ σ) (actions : List (Action κ)) :
    Leads e (sessionTrail su e actions) (performAll su e actions) := by
  induction actions generalizing e with
  | nil => exact .nil e
  | cons a rest ih => exact (leads_trail su e a).append (ih (perform su e a).2)

end Engine

end Statechart
