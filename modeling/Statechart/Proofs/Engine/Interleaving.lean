import Mathlib.Data.Bool.Basic
import Mathlib.Logic.Function.Iterate
import Statechart.Proofs.Engine.Coherence

/-!
# Events that arrive during a run

A host may queue events at any time between the steps of the run loop.  Only the order of the events
matters, not when they are queued.

* `Engine.onQueue`: an engine with its external queue changed.  What an engine does, unless it waits,
  is the same with another queue, as long as stopping closes both (`Engine.guardedMicrostep_onQueue`
  up to `Engine.processCurrent_onQueue`);
* `Engine.step_enqueue`: so a step and the queueing of an event can be exchanged, unless the engine
  is idle;
* `Engine.exists_iterate_performAll`: what a schedule of steps and events leads to is reached by
  queueing the events first and stepping afterwards;
* `Engine.performAll_eq_of_pushed`: two schedules that queue the same events and come to rest lead to
  the same engine;
* `Engine.exists_atRest`: every schedule comes to rest if enough steps follow.
-/

namespace Statechart

/-- The event that an action tries to queue. -/
def Action.pushed? {κ : Type} : Action κ → Option Event
  | .inject event => some event
  | .push event => some event
  | _ => none

/-- Whether an action is a step or tries to queue an event. -/
def Action.isTurn {κ : Type} : Action κ → Bool
  | .step => true
  | .inject _ => true
  | .push _ => true
  | _ => false

/-- A queue after an attempt to append an event. -/
def ExternalQueue.add (event : Event) (q : ExternalQueue) : ExternalQueue :=
  (q.push? event).getD q

/-- A queue that gives an event is open, and stays so. -/
theorem ExternalQueue.closed_of_pop {q q' : ExternalQueue} {event : Event}
    (h : q.pop = (some event, q')) : q'.closed = false := by
  unfold pop at h
  split at h
  · cases h
  · next hc =>
    split at h
    · cases h
    · cases h
      exact Bool.eq_false_of_not_eq_true hc

namespace Engine

variable {κ σ : Type} {su : Setup κ σ} {e : Engine κ σ} {f : ExternalQueue → ExternalQueue}

/-- An engine with its external queue changed. -/
def onQueue (f : ExternalQueue → ExternalQueue) (e : Engine κ σ) : Engine κ σ :=
  { e with external := f e.external }

/-- An engine after an attempt to queue an event. -/
def enqueue (event : Event) : Engine κ σ → Engine κ σ := onQueue (.add event)

/-- An engine after an attempt to queue some events. -/
def enqueueAll (events : List Event) (e : Engine κ σ) : Engine κ σ :=
  events.foldl (fun e event => enqueue event e) e

/-- An engine that has nothing to do until an event is queued. -/
def Idle (e : Engine κ σ) : Prop := e.phase = .waiting ∧ e.external = ⟨[], false⟩

/-- An engine that has stopped, or waits and has processed all events. -/
def AtRest (e : Engine κ σ) : Prop :=
  e.phase = .stopped ∨ e.phase = .waiting ∧ e.external.events = []

/-! ### Another queue -/

@[simp] theorem phase_onQueue : (e.onQueue f).phase = e.phase := rfl

@[simp] theorem configuration_onQueue : (e.onQueue f).configuration = e.configuration := rfl

@[simp] theorem internal_onQueue : (e.onQueue f).store.internal = e.store.internal := rfl

@[simp] theorem external_onQueue : (e.onQueue f).external = f e.external := rfl

@[simp] theorem current_onQueue : (e.onQueue f).current = e.current := rfl

@[simp] theorem settling_onQueue : (e.onQueue f).settling = e.settling := rfl

@[simp] theorem halted_onQueue : (e.onQueue f).halted = e.halted := rfl

@[simp] theorem phase_enqueue (event : Event) : (enqueue event e).phase = e.phase := rfl

@[simp] theorem external_enqueue (event : Event) :
    (enqueue event e).external = (e.external.push? event).getD e.external := rfl

/-- Stopping closes the queue, and drops what waits in it. -/
theorem shutdown_onQueue (hf : f ⟨[], true⟩ = ⟨[], true⟩) :
    (e.onQueue f).shutdown = e.shutdown.onQueue f := by
  have hclose : e.external.close = f e.external.close := hf.symm
  unfold shutdown onQueue
  dsimp only
  rw [← hclose]
  rfl

theorem afterMicrostep_onQueue (hf : f ⟨[], true⟩ = ⟨[], true⟩) (name : Option String) (n : Nat) :
    afterMicrostep su name n (e.onQueue f) =
      (afterMicrostep su name n e).map id (onQueue f) := by
  unfold afterMicrostep
  rw [halted_onQueue]
  split
  · exact congrArg _ (shutdown_onQueue hf)
  · split
    · dsimp only
      rw [settling_onQueue]
      split
      · exact congrArg _ (shutdown_onQueue (e := { e with settling := e.settling + 1 }) hf)
      · rfl
    · rfl

/-! ### Queueing an event -/

theorem push_eq (event : Event) (e : Engine κ σ) : (e.push event).2 = enqueue event e := by
  show _ = { e with external := (e.external.push? event).getD e.external }
  unfold push
  cases e.external.push? event <;> rfl

/-- A closed queue refuses every event. -/
theorem enqueue_of_closed (event : Event) (hc : e.external.closed = true) :
    enqueue event e = e := by
  show { e with external := (e.external.push? event).getD e.external } = e
  rw [ExternalQueue.push?, if_pos hc]
  rfl

theorem not_idle_enqueue (event : Event) (h : ¬ e.Idle) : ¬ (enqueue event e).Idle := by
  rintro ⟨hp, hq⟩
  by_cases hc : e.external.closed = true
  · rw [enqueue_of_closed event hc] at hp hq
    exact h ⟨hp, hq⟩
  · rw [external_enqueue, ExternalQueue.push?, if_neg hc] at hq
    simp at hq

theorem await_enqueue (event : Event) (hp : e.phase = .waiting) (h : ¬ e.Idle) :
    (enqueue event e).await = e.await.map id (enqueue event) := by
  by_cases hc : e.external.closed = true
  · rw [enqueue_of_closed event hc, await, if_pos hc]
    exact congrArg _ (enqueue_of_closed event (e := e.shutdown) rfl).symm
  · rw [Bool.not_eq_true] at hc
    obtain ⟨first, rest, hq⟩ : ∃ first rest, e.external = ⟨first :: rest, false⟩ := by
      cases hevents : e.external.events with
      | nil => exact absurd ⟨hp, by rw [← hc, ← hevents]⟩ h
      | cons first rest => exact ⟨first, rest, by rw [← hc, ← hevents]⟩
    have hadd : (enqueue event e).external = ⟨first :: (rest ++ [event]), false⟩ := by
      rw [external_enqueue, hq]
      rfl
    simp only [await, hadd, hq, ExternalQueue.pop]
    rfl

/-! ### Stopped engines have closed their queue -/

/-- The queue is closed exactly if the engine has stopped. -/
def Gated (e : Engine κ σ) : Prop := e.phase = .stopped ↔ e.external.closed = true

theorem gated_of_running (hp : e.phase ≠ .stopped) (hc : e.external.closed = false) : Gated e := by
  simp [Gated, hp, hc]

theorem gated_shutdown (e : Engine κ σ) : Gated e.shutdown := ⟨fun _ => rfl, fun _ => rfl⟩

theorem Gated.enqueue (h : Gated e) (event : Event) : Gated (enqueue event e) := by
  by_cases hc : e.external.closed = true
  · rwa [enqueue_of_closed event hc]
  · have hopen : (Engine.enqueue event e).external.closed = false := by
      rw [external_enqueue, ExternalQueue.push?, if_neg hc]
      exact Bool.eq_false_of_not_eq_true hc
    exact gated_of_running (fun hp => hc (h.1 hp)) hopen

theorem Gated.closed_eq_false (h : Gated e) (hp : e.phase ≠ .stopped) :
    e.external.closed = false := by
  by_contra hc
  exact hp (h.2 (Bool.eq_true_of_not_eq_false hc))

theorem Gated.afterMicrostep (h : Gated e) (su : Setup κ σ) (name : Option String) (n : Nat) :
    Gated (afterMicrostep su name n e).2 := by
  unfold Engine.afterMicrostep
  split
  · exact gated_shutdown e
  · split
    · dsimp only
      split
      · exact gated_shutdown _
      · exact h
    · exact h

theorem Gated.await (h : Gated e) : Gated e.await.2 := by
  rcases await_cases e with ⟨-, he⟩ | ⟨event, queue, hpop, he⟩ | ⟨-, he⟩
  · rw [he]
    exact gated_shutdown e
  · rw [he]
    exact gated_of_running Phase.noConfusion (ExternalQueue.closed_of_pop hpop)
  · rw [he]
    exact h

/-! ### Microsteps and steps with another queue -/

variable [Context κ]

theorem selected_onQueue (event : Option Event) :
    selected su event (e.onQueue f) = selected su event e := by
  unfold selected expose
  split
  · split <;> rfl
  · rfl

theorem prepared_onQueue (event : Option Event) :
    prepared su event (e.onQueue f) = (prepared su event e).onQueue f := by
  unfold prepared expose
  split
  · split <;> rfl
  · rfl

theorem microstep_onQueue (event : Option Event) :
    microstep su event (e.onQueue f) = (microstep su event e).map id (onQueue f) := by
  rw [microstep_eq, microstep_eq, selected_onQueue, prepared_onQueue, configuration_onQueue]
  split
  · rfl
  · split <;> rfl

theorem guardedMicrostep_onQueue (hf : f ⟨[], true⟩ = ⟨[], true⟩) (event : Option Event) :
    guardedMicrostep su event (e.onQueue f) =
      (guardedMicrostep su event e).map id (onQueue f) := by
  unfold guardedMicrostep
  rw [microstep_onQueue]
  rcases microstep su event e with ⟨err | n, x⟩
  · exact congrArg _ (shutdown_onQueue hf)
  · rfl

theorem consume_onQueue (hf : f ⟨[], true⟩ = ⟨[], true⟩) :
    consume su (e.onQueue f) = (consume su e).map id (onQueue f) := by
  unfold consume
  rw [internal_onQueue]
  split
  · rfl
  · next event rest hq =>
    have hconsumed : consumed rest (e.onQueue f) = (consumed rest e).onQueue f := rfl
    dsimp only
    rw [← consumed, ← consumed, hconsumed, guardedMicrostep_onQueue hf]
    rcases guardedMicrostep su (some event) (consumed rest e) with ⟨err | n, x⟩
    · rfl
    · exact afterMicrostep_onQueue hf (some event.name) n

theorem stabilizeOnce_onQueue (hf : f ⟨[], true⟩ = ⟨[], true⟩) :
    stabilizeOnce su (e.onQueue f) = (stabilizeOnce su e).map id (onQueue f) := by
  unfold stabilizeOnce
  rw [guardedMicrostep_onQueue hf]
  rcases guardedMicrostep su none e with ⟨err | n, x⟩
  · rfl
  · dsimp only [Prod.map, id]
    split
    · exact afterMicrostep_onQueue hf none n
    · exact consume_onQueue hf

theorem processCurrent_onQueue (hf : f ⟨[], true⟩ = ⟨[], true⟩) :
    processCurrent su (e.onQueue f) = (processCurrent su e).map id (onQueue f) := by
  unfold processCurrent
  rw [current_onQueue]
  split
  · rfl
  · next event hc =>
    have htaken : (e.onQueue f).takenUp = e.takenUp.onQueue f := rfl
    dsimp only
    rw [← takenUp, ← takenUp, htaken, guardedMicrostep_onQueue hf]
    rcases guardedMicrostep su (some event) e.takenUp with ⟨err | n, x⟩
    · rfl
    · dsimp only [Prod.map, id]
      rw [halted_onQueue]
      split
      · exact congrArg _ (shutdown_onQueue hf)
      · rfl

/-- A step and the queueing of an event can be exchanged, unless the engine is idle. -/
theorem step_enqueue (event : Event) (h : ¬ e.Idle) :
    step su (enqueue event e) = (step su e).map id (enqueue event) := by
  have hf : ExternalQueue.add event ⟨[], true⟩ = ⟨[], true⟩ := rfl
  unfold step
  rw [phase_enqueue]
  split
  · rfl
  · exact stabilizeOnce_onQueue hf
  · next hp => exact await_enqueue event hp h
  · exact processCurrent_onQueue hf

/-! ### Steps keep the gate -/

theorem Gated.guardedMicrostep (h : Gated e) (su : Setup κ σ) (event : Option Event) :
    Gated (guardedMicrostep su event e).2 := by
  unfold Engine.guardedMicrostep
  rcases hm : microstep su event e with ⟨err | n, x⟩
  · exact gated_shutdown x
  · obtain ⟨hphase, -, hexternal, -⟩ := microstep_frame hm
    show Gated x
    rwa [Gated, hphase, hexternal]

theorem Gated.consume (h : Gated e) (hp : e.phase ≠ .stopped) : Gated (consume su e).2 := by
  unfold Engine.consume
  split
  · exact gated_of_running Phase.noConfusion (h.closed_eq_false hp)
  · next event rest hq =>
    have hconsumed : Gated (consumed rest e) := h
    have hx := hconsumed.guardedMicrostep su (some event)
    dsimp only
    rw [← consumed]
    rcases hm : Engine.guardedMicrostep su (some event) (consumed rest e) with ⟨err | n, x⟩
    · rwa [hm] at hx
    · rw [hm] at hx
      exact hx.afterMicrostep su (some event.name) n

theorem Gated.stabilizeOnce (h : Gated e) (hp : e.phase ≠ .stopped) :
    Gated (stabilizeOnce su e).2 := by
  unfold Engine.stabilizeOnce
  have hx := h.guardedMicrostep su none
  rcases hm : Engine.guardedMicrostep su none e with ⟨err | n, x⟩
  · rwa [hm] at hx
  · rw [hm] at hx
    have hphase : x.phase = e.phase := (microstep_frame (guardedMicrostep_ok hm)).1
    dsimp only
    split
    · exact hx.afterMicrostep su none n
    · exact hx.consume (hphase ▸ hp)

theorem Gated.processCurrent (h : Gated e) (hp : e.phase ≠ .stopped) :
    Gated (processCurrent su e).2 := by
  unfold Engine.processCurrent
  split
  · exact gated_of_running Phase.noConfusion (h.closed_eq_false hp)
  · next event hc =>
    have htaken : Gated e.takenUp := h
    have hx := htaken.guardedMicrostep su (some event)
    dsimp only
    rw [← takenUp]
    rcases hm : Engine.guardedMicrostep su (some event) e.takenUp with ⟨err | n, x⟩
    · rwa [hm] at hx
    · rw [hm] at hx
      have hphase : x.phase = e.phase := (microstep_frame (guardedMicrostep_ok hm)).1
      dsimp only
      split
      · exact gated_shutdown x
      · refine gated_of_running ?_ (hx.closed_eq_false (hphase ▸ hp))
        dsimp only
        split <;> exact Phase.noConfusion

theorem Gated.step (h : Gated e) : Gated (step su e).2 := by
  unfold Engine.step
  split
  · exact h
  · next hp => exact h.stabilizeOnce (by simp [hp])
  · exact h.await
  · next hp => exact h.processCurrent (by simp [hp])

/-! ### Schedules -/

theorem next_enqueueAll (h : ¬ e.Idle) (events : List Event) :
    next su (enqueueAll events e) = enqueueAll events (next su e) := by
  induction events generalizing e with
  | nil => rfl
  | cons event events ih =>
    calc next su (enqueueAll events (enqueue event e))
        = enqueueAll events (next su (enqueue event e)) := ih (not_idle_enqueue event h)
      _ = enqueueAll events (enqueue event (next su e)) := by
          rw [next, step_enqueue event h]
          rfl

theorem next_of_idle (h : e.Idle) : next su e = e := by
  obtain ⟨hp, hq⟩ := h
  rw [next, step_waiting hp, await, hq]
  rfl

theorem next_of_atRest (su : Setup κ σ) (h : Gated e) (hr : e.AtRest) : next su e = e := by
  rcases hr with hp | ⟨hp, hq⟩
  · exact move_step_stopped hp
  · have hc : e.external.closed = false := h.closed_eq_false (by simp [hp])
    exact next_of_idle ⟨hp, by rw [← hc, ← hq]⟩

/-- A turn of a schedule is a step, or an attempt to queue an event. -/
theorem perform_turn (su : Setup κ σ) (h : Gated e) {a : Action κ} (ha : a.isTurn) :
    a = .step ∨ ∃ event, a.pushed? = some event ∧ (perform su e a).2 = enqueue event e := by
  cases a with
  | step => exact .inl rfl
  | push event => exact .inr ⟨event, rfl, push_eq event e⟩
  | inject event =>
    refine .inr ⟨event, rfl, ?_⟩
    show (e.inject event).2 = _
    unfold inject
    split
    · next hp => exact (enqueue_of_closed event (h.1 hp)).symm
    · exact push_eq event e
  | start | stop | stabilize | processNext | run | closeQueue | reopenQueue | writeContext => cases ha

theorem Gated.performAll (h : Gated e) {s : List (Action κ)} (hs : ∀ a ∈ s, a.isTurn) :
    Gated (performAll su e s) := by
  induction s generalizing e with
  | nil => exact h
  | cons a rest ih =>
    obtain ⟨ha, hrest⟩ := List.forall_mem_cons.1 hs
    refine ih ?_ hrest
    show Gated (perform su e a).2
    rcases perform_turn su h ha with rfl | ⟨event, -, ha⟩
    · exact h.step
    · rw [ha]
      exact h.enqueue event

/-- What a schedule leads to is reached by queueing its events first and stepping afterwards. -/
theorem exists_iterate_performAll (su : Setup κ σ) (h : Gated e) {s : List (Action κ)}
    (hs : ∀ a ∈ s, a.isTurn) :
    ∃ n, performAll su e s = (next su)^[n] (enqueueAll (s.filterMap Action.pushed?) e) := by
  induction s generalizing e with
  | nil => exact ⟨0, rfl⟩
  | cons a rest ih =>
    obtain ⟨ha, hrest⟩ := List.forall_mem_cons.1 hs
    show ∃ n, performAll su (perform su e a).2 rest = _
    rcases perform_turn su h ha with rfl | ⟨event, hevent, ha⟩
    · by_cases hidle : e.Idle
      · -- The step does nothing, though it would if the events of `rest` were already queued.
        have hnext : (perform su e .step).2 = e := next_of_idle hidle
        rw [hnext]
        exact ih h hrest
      · have hgated : Gated (perform su e .step).2 := h.step
        obtain ⟨n, hn⟩ := ih hgated hrest
        refine ⟨n + 1, hn.trans ?_⟩
        rw [Function.iterate_succ_apply]
        exact congrArg _ (next_enqueueAll hidle _).symm
    · rw [ha, List.filterMap_cons_some hevent]
      exact ih (h.enqueue event) hrest

/-- Two schedules of steps and events that queue the same events in the same order, and come to rest,
lead to the same engine: the same phase, configuration, store, queue, counts and flags. -/
theorem performAll_eq_of_pushed (hp : e.phase ≠ .stopped) (hopen : e.external.closed = false)
    {s s' : List (Action κ)} (hs : ∀ a ∈ s, a.isTurn) (hs' : ∀ a ∈ s', a.isTurn)
    (hsame : s.filterMap Action.pushed? = s'.filterMap Action.pushed?)
    (hrest : (performAll su e s).AtRest) (hrest' : (performAll su e s').AtRest) :
    performAll su e s = performAll su e s' := by
  have h : Gated e := gated_of_running hp hopen
  obtain ⟨n, hn⟩ := exists_iterate_performAll su h hs
  obtain ⟨n', hn'⟩ := exists_iterate_performAll su h hs'
  rw [← hsame] at hn'
  have hfix := next_of_atRest su (h.performAll hs) hrest
  have hfix' := next_of_atRest su (h.performAll hs') hrest'
  rw [hn] at hfix ⊢
  rw [hn'] at hfix' ⊢
  -- Both schedules lead to the engine at which stepping comes to an end.
  rcases Nat.le_total n n' with hle | hle
  · obtain ⟨k, rfl⟩ := Nat.exists_eq_add_of_le' hle
    rw [Function.iterate_add_apply, Function.iterate_fixed hfix]
  · obtain ⟨k, rfl⟩ := Nat.exists_eq_add_of_le' hle
    rw [Function.iterate_add_apply, Function.iterate_fixed hfix']

/-- The engine over the chart that ends on `go`, when it has been started. -/
def endingWaiting : Engine Scope Cache := performAll endingSetup blank [.start]

/-- The chart halts before `late` is processed, which is dropped if it is queued and refused if it is
not. -/
theorem performAll_eq_of_pushed_ending :
    performAll endingSetup endingWaiting
        [.push (.external "go"), .push (.external "late"), .step, .step] =
      performAll endingSetup endingWaiting
        [.push (.external "go"), .step, .step, .push (.external "late")] := by
  have hstarted : endingWaiting = started endingSetup blank := startsAtOnce_ending.performAll []
  have hrun : endingWaiting.phase = .waiting := by
    rw [hstarted]
    decide +kernel
  apply performAll_eq_of_pushed
  · rw [hrun]
    exact Phase.noConfusion
  · rw [hstarted]
    decide +kernel
  · simp [Action.isTurn]
  · simp [Action.isTurn]
  · rfl
  · rw [hstarted]
    exact .inl (by decide +kernel)
  · rw [hstarted]
    exact .inl (by decide +kernel)

/-! ### Every schedule comes to rest -/

theorem moveAll_replicate_step (su : Setup κ σ) (e : Engine κ σ) (n : Nat) :
    moveAll su e (List.replicate n .step) = (next su)^[n] e := by
  induction n generalizing e with
  | zero => rfl
  | succ n ih => exact ih (next su e)

theorem performAll_replicate_step (su : Setup κ σ) (e : Engine κ σ) (n : Nat) :
    performAll su e (List.replicate n .step) = (next su)^[n] e := by
  induction n generalizing e with
  | zero => rfl
  | succ n ih => exact ih (next su e)

/-- Some number of steps finishes what an engine is doing. -/
theorem exists_iterate_settle (su : Setup κ σ) (e : Engine κ σ) :
    ∃ n, (settle su e).2 = (next su)^[n] e := by
  obtain ⟨vs, hvs, htrail⟩ := courses_settleTrail su e
  have hlead := leads_settleTrail su e
  rw [htrail] at hlead
  have hsteps : vs = List.replicate vs.length .step :=
    List.eq_replicate_iff.2 ⟨rfl, fun v hv => List.mem_singleton.1 (hvs v hv)⟩
  refine ⟨vs.length, hlead.eq_moveAll.trans ?_⟩
  rw [hsteps, List.length_replicate]
  exact moveAll_replicate_step su e vs.length

/-- Some number of steps brings an engine to rest. -/
theorem exists_iterate_atRest (su : Setup κ σ) (e : Engine κ σ) :
    ∃ n, ((next su)^[n] e).AtRest := by
  -- The induction is on the events that wait: once the engine has settled, it takes one of them.
  induction hlen : e.external.events.length using Nat.strongRecOn generalizing e with
  | _ len ih =>
    obtain ⟨n, hn⟩ := exists_iterate_settle su e
    have hevents := events_settle_le su e
    rw [hn] at hevents
    rcases phase_settle su e with hp | ⟨-, hp⟩
    · exact ⟨n, hn ▸ .inl hp⟩
    · rw [hn] at hp
      by_cases hc : ((next su)^[n] e).external.closed = true
      · refine ⟨n + 1, .inl ?_⟩
        rw [Function.iterate_succ_apply', next, step_waiting hp, await, if_pos hc]
        rfl
      · cases hq : ((next su)^[n] e).external.events with
        | nil => exact ⟨n, .inr ⟨hp, hq⟩⟩
        | cons event rest =>
          have hnext : ((next su)^[n + 1] e).external.events = rest := by
            rw [Function.iterate_succ_apply', next, step_waiting hp, await, if_neg hc,
              ExternalQueue.pop, if_neg hc, hq]
            rfl
          have hlt : ((next su)^[n + 1] e).external.events.length < len := by
            rw [hnext, ← hlen]
            rw [hq, List.length_cons] at hevents
            omega
          obtain ⟨k, hk⟩ := ih _ hlt _ rfl
          rw [← Function.iterate_add_apply] at hk
          exact ⟨k + (n + 1), hk⟩

/-- Every schedule comes to rest if enough steps follow. -/
theorem exists_atRest (su : Setup κ σ) (e : Engine κ σ) (s : List (Action κ)) :
    ∃ n, (performAll su e (s ++ List.replicate n .step)).AtRest := by
  obtain ⟨n, hn⟩ := exists_iterate_atRest su (performAll su e s)
  refine ⟨n, ?_⟩
  have happend : performAll su e (s ++ List.replicate n .step) =
      performAll su (performAll su e s) (List.replicate n .step) := List.foldl_append
  rw [happend, performAll_replicate_step]
  exact hn

end Engine

end Statechart
