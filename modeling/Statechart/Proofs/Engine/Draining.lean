import Mathlib.Data.List.Basic
import Statechart.Proofs.Engine.Interleaving
import Statechart.Proofs.Engine.Stopping

/-!
# Processing what waits

The events that wait in the external queue can be processed one after the other by `processNext`, or
one step of the run loop at a time.  Both lead to the same engine.

* `Engine.Repeats`: an operation is called until it gives a certain answer or the engine has
  stopped;
* `Engine.processNext_of_queued`: `processNext` takes an event and finishes what it has taken;
* `Engine.repeats_of_settle`: so do the steps of the run loop, none of which is idle;
* `Engine.exists_repeats`: both ways of processing events come to an end, with the same errors;
* `Engine.processed_one`: what one call of `processNext` that finds an event does;
* `Engine.drained_alike`: all this for every engine that a session leads to.
-/

namespace Statechart

namespace Engine

variable {κ σ α : Type} {e x y z : Engine κ σ} {event : Event} {rest : List Event}
  {errors errors' : List Error}

/-- An operation is called again and again, until it answers `last` or the engine has stopped; with
the errors that the calls give, and the engine after them. -/
inductive Repeats (call : Engine κ σ → Except Error α × Engine κ σ) (last : α) :
    Engine κ σ → List Error → Engine κ σ → Prop
  | stopped {e : Engine κ σ} (hp : e.phase = .stopped) : Repeats call last e [] e
  | last {e y : Engine κ σ} (hp : e.phase ≠ .stopped) (h : call e = (.ok last, y)) :
      Repeats call last e [] y
  | again {e y z : Engine κ σ} {r : Except Error α} {errors : List Error}
      (hp : e.phase ≠ .stopped) (h : call e = (r, y)) (hr : r ≠ .ok last)
      (hrest : Repeats call last y errors z) :
      Repeats call last e ((failure? r).toList ++ errors) z

/-- The calls determine what they lead to. -/
theorem Repeats.unique {call : Engine κ σ → Except Error α × Engine κ σ} {last : α}
    (h : Repeats call last e errors y) (h' : Repeats call last e errors' z) :
    errors = errors' ∧ y = z := by
  induction h generalizing errors' z with
  | stopped hp =>
    cases h' with
    | stopped => exact ⟨rfl, rfl⟩
    | last hp' | again hp' => exact absurd hp hp'
  | last hp h =>
    cases h' with
    | stopped hp' => exact absurd hp' hp
    | last _ h' =>
      cases h.symm.trans h'
      exact ⟨rfl, rfl⟩
    | again _ h' hr =>
      cases h.symm.trans h'
      exact absurd rfl hr
  | again hp h hr _ ih =>
    cases h' with
    | stopped hp' => exact absurd hp' hp
    | last _ h' =>
      cases h.symm.trans h'
      exact absurd rfl hr
    | again _ h' _ hrest =>
      cases h.symm.trans h'
      obtain ⟨rfl, rfl⟩ := ih hrest
      exact ⟨rfl, rfl⟩

variable [Context κ] {su : Setup κ σ}

/-! ### Steps that are not idle -/

omit [Context κ] in
theorem afterMicrostep_ne_idle (su : Setup κ σ) (name : Option String) (n : Nat) (e : Engine κ σ) :
    (afterMicrostep su name n e).1 ≠ .ok .idle := by
  unfold afterMicrostep
  split
  · simp
  · split
    · dsimp only
      split <;> simp
    · simp

/-- A stabilizing engine is not idle. -/
theorem step_ne_idle_of_stabilizing (hp : e.phase = .stabilizing) :
    (step su e).1 ≠ .ok .idle := by
  unfold step
  rw [hp]
  dsimp only
  unfold stabilizeOnce
  split
  · simp
  · split
    · exact afterMicrostep_ne_idle su none _ _
    · unfold consume
      split
      · simp
      · dsimp only
        split
        · simp
        · exact afterMicrostep_ne_idle su _ _ _

/-- Nor is one with an event in flight. -/
theorem step_ne_idle_of_processing (hp : e.phase = .processing) (hc : e.current = some event) :
    (step su e).1 ≠ .ok .idle := by
  unfold step
  rw [hp]
  dsimp only
  unfold processCurrent
  rw [hc]
  dsimp only
  split
  · simp
  · split <;> simp

/-! ### The steps that finish what has been taken -/

/-- The steps of a stabilization are repeated steps. -/
theorem repeats_of_stabilizeFrom (k : Nat)
    (h : Repeats (step su) .idle (stabilizeFrom su e k).2 errors y) :
    Repeats (step su) .idle e ((failure? (stabilizeFrom su e k).1).toList ++ errors) y := by
  fun_induction stabilizeFrom su e k with
  | case1 e k hp err e' hs => exact .again (by simp [hp]) hs (by simp) h
  | case2 e k hp outcome e' hs ih =>
    have hne : (step su e).1 ≠ .ok .idle := step_ne_idle_of_stabilizing hp
    rw [hs] at hne
    exact .again (by simp [hp]) hs hne (ih h)
  | case3 => exact h

/-- So are those that finish what an engine has taken. -/
theorem repeats_of_settle (hp : e.phase = .processing) (hc : e.current = some event)
    (h : Repeats (step su) .idle (settle su e).2 errors y) :
    Repeats (step su) .idle e ((failure? (settle su e).1).toList ++ errors) y := by
  have hrun : e.phase ≠ .stopped := by simp [hp]
  have hne : (step su e).1 ≠ .ok .idle := step_ne_idle_of_processing hp hc
  unfold settle at h ⊢
  rw [if_pos hp] at h ⊢
  rcases hs : step su e with ⟨err | outcome, e'⟩
  · rw [hs] at h
    exact .again hrun hs (by simp) h
  · rw [hs] at h hne
    dsimp only at h ⊢
    refine .again hrun hs hne ?_
    have hrest : Repeats (step su) .idle (stabilize su e').2 errors y →
        Repeats (step su) .idle e' ((failure? (stabilize su e').1).toList ++ errors) y :=
      repeats_of_stabilizeFrom 0
    rcases hr : stabilize su e' with ⟨err | k, e''⟩
    · rw [hr] at h hrest
      exact hrest h
    · rw [hr] at h hrest
      exact hrest h

/-! ### What `processNext` does -/

omit [Context κ] in
/-- The external queue is closed, or empty, or gives an event. -/
theorem external_cases (e : Engine κ σ) : e.external.closed = true ∨ e.external = ⟨[], false⟩ ∨
    ∃ event rest, e.external = ⟨event :: rest, false⟩ := by
  rcases e.external with ⟨events, _ | _⟩
  · cases events with
    | nil => exact .inr (.inl rfl)
    | cons event rest => exact .inr (.inr ⟨event, rest, rfl⟩)
  · exact .inl rfl

theorem step_of_queued (hp : e.phase = .waiting) (hq : e.external = ⟨event :: rest, false⟩) :
    step su e = (.ok (.dequeued event.name), e.accept event ⟨rest, false⟩) := by
  rw [step_waiting hp, await, hq]
  rfl

theorem next_of_queued (hp : e.phase = .waiting) (hq : e.external = ⟨event :: rest, false⟩) :
    next su e = e.accept event ⟨rest, false⟩ :=
  congrArg Prod.snd (step_of_queued hp hq)

theorem step_of_idle (h : e.Idle) : step su e = (.ok .idle, e) := by
  rw [step_waiting h.1, await, h.2]
  rfl

theorem step_of_closed (hp : e.phase = .waiting) (hc : e.external.closed = true) :
    step su e = (.ok .stopped, e.shutdown) := by
  rw [step_waiting hp, await, if_pos hc]

/-- A waiting engine takes the oldest event of its queue and finishes what it has taken. -/
theorem processNext_of_queued (su : Setup κ σ) (hp : e.phase = .waiting)
    (hq : e.external = ⟨event :: rest, false⟩) :
    processNext su e =
      ((settle su (next su e)).1.map fun _ => true, (settle su (next su e)).2) := by
  have hprocessing : (e.accept event ⟨rest, false⟩).phase = .processing := rfl
  rw [next_of_queued hp hq, processNext, if_neg (not_not.2 hp), step_of_queued hp hq, settle,
    if_pos hprocessing]
  dsimp only
  rcases step su (e.accept event ⟨rest, false⟩) with ⟨err | outcome, x⟩
  · rfl
  · dsimp only
    rcases stabilize su x with ⟨err | k, y⟩ <;> rfl

theorem processNext_of_idle (h : e.Idle) : processNext su e = (.ok false, e) := by
  rw [processNext, if_neg (not_not.2 h.1), step_of_idle h]

theorem processNext_of_closed (hp : e.phase = .waiting) (hc : e.external.closed = true) :
    processNext su e = (.ok false, e.shutdown) := by
  rw [processNext, if_neg (not_not.2 hp), step_of_closed hp hc]

/-- A call that finds an event is one of a waiting engine with an event in its open queue. -/
theorem queued_of_processNext (h : processNext su e = (.ok true, y)) :
    e.phase = .waiting ∧ ∃ event rest, e.external = ⟨event :: rest, false⟩ := by
  have hp : e.phase = .waiting := by
    by_contra hp
    rw [processNext, if_pos hp] at h
    cases h
  refine ⟨hp, ?_⟩
  rcases external_cases e with hc | hq | hq
  · rw [processNext_of_closed hp hc] at h
    cases h
  · rw [processNext_of_idle ⟨hp, hq⟩] at h
    cases h
  · exact hq

/-- A call that comes to wait again has processed an event. -/
theorem processNext_of_finishes {n : Nat} (hp : e.phase = .waiting)
    (hq : e.external = ⟨event :: rest, false⟩) (hn : Finishes su (next su e) n)
    (hw : ((next su)^[n] (next su e)).phase = .waiting) :
    processNext su e = (.ok true, (next su)^[n] (next su e)) := by
  obtain ⟨n', hn'⟩ := exists_steppedTo_settle su (next su e)
  obtain rfl : n = n' := hn.unique hn'.finishes
  have hok : (settle su (next su e)).1 = .ok () := by
    rcases phase_settle su (next su e) with hstopped | ⟨hok, -⟩
    · rw [hn'.engine, hw] at hstopped
      cases hstopped
    · exact hok
  rw [processNext_of_queued su hp hq, hok, hn'.engine]
  rfl

/-! ### Two ways to process what waits -/

/-- Processing events one by one, and taking steps, come to the same end with the same errors. -/
theorem exists_repeats (su : Setup κ σ) (hp : e.phase = .waiting) :
    ∃ errors y, Repeats (processNext su) false e errors y ∧
      Repeats (step su) .idle e errors y := by
  -- The induction is on the events that wait, of which each call takes one.
  induction hlen : e.external.events.length using Nat.strong_induction_on generalizing e with
  | _ len ih =>
    have hrun : e.phase ≠ .stopped := by simp [hp]
    rcases external_cases e with hc | hq | ⟨event, rest, hq⟩
    · exact ⟨[], e.shutdown, .last hrun (processNext_of_closed hp hc),
        .again hrun (step_of_closed hp hc) (by simp) (.stopped rfl)⟩
    · exact ⟨[], e, .last hrun (processNext_of_idle ⟨hp, hq⟩),
        .last hrun (step_of_idle ⟨hp, hq⟩)⟩
    · have hprocess := processNext_of_queued su hp hq
      rw [next_of_queued hp hq] at hprocess
      have hevents := events_settle_le su (e.accept event ⟨rest, false⟩)
      have hphase := phase_settle su (e.accept event ⟨rest, false⟩)
      have hsteps : ∀ errors y,
          Repeats (step su) .idle (settle su (e.accept event ⟨rest, false⟩)).2 errors y →
            Repeats (step su) .idle (e.accept event ⟨rest, false⟩)
              ((failure? (settle su (e.accept event ⟨rest, false⟩)).1).toList ++ errors) y :=
        fun _ _ => repeats_of_settle rfl rfl
      generalize settle su (e.accept event ⟨rest, false⟩) = p at hprocess hevents hphase hsteps
      obtain ⟨r, x⟩ := p
      have hrest : ∃ errors y, Repeats (processNext su) false x errors y ∧
          Repeats (step su) .idle x errors y := by
        rcases hphase with hstopped | ⟨-, hwaiting⟩
        · exact ⟨[], x, .stopped hstopped, .stopped hstopped⟩
        · have hlt : x.external.events.length < len := by
            rw [hq] at hlen
            simp only [accept, List.length_cons] at hevents hlen
            omega
          exact ih _ hlt hwaiting rfl
      obtain ⟨errors, y, hcalls, hrest⟩ := hrest
      refine ⟨(failure? r).toList ++ errors, y, ?_,
        .again hrun (step_of_queued hp hq) (by simp) (hsteps errors y hrest)⟩
      cases r with
      | error err => exact .again hrun hprocess (by simp [Except.map]) hcalls
      | ok u => exact .again hrun hprocess (by simp [Except.map]) hcalls

/-- A call that finds an event processes it, and no other one: it takes the oldest one, and the
steps that finish what the engine has taken. -/
theorem processed_one (hv : su.model.Validated) (ht : Truthful su e)
    (h : processNext su e = (.ok true, y)) :
    e.phase = .waiting ∧ ∃ event rest n, e.external = ⟨event :: rest, false⟩ ∧
      next su e = e.accept event ⟨rest, false⟩ ∧ Finishes su (next su e) n ∧
      y = (next su)^[n] (next su e) ∧ y.stats.macrosteps = e.stats.macrosteps + 1 ∧
      (y.phase = .waiting ∧ y.external = ⟨rest, false⟩ ∨
        y.phase = .stopped ∧ y.external = ⟨[], true⟩) := by
  obtain ⟨hp, event, rest, hq⟩ := queued_of_processNext h
  have haccept : next su e = e.accept event ⟨rest, false⟩ := next_of_queued hp hq
  rw [processNext_of_queued su hp hq] at h
  obtain ⟨n, hn⟩ := exists_steppedTo_settle su (next su e)
  have hy : y = (next su)^[n] (next su e) := (congrArg Prod.snd h).symm.trans hn.engine
  have hnext : Truthful su (next su e) := ht.step hv
  have hrun : (next su e).phase ≠ .stopped := by simp [haccept, accept]
  have hheld := (held_iterate hv hnext hrun hn.finishes (Nat.le_refl n)).2
  have hatEnd := hn.finishes.atBoundary
  rw [← hy] at hheld hatEnd
  have hprocessed : y.stats.macrosteps = e.stats.macrosteps + 1 := by
    have hcount := hheld.processed
    rw [hatEnd.pending, haccept] at hcount
    exact hcount
  refine ⟨hp, event, rest, n, hq, haccept, hn.finishes, hy, hprocessed, ?_⟩
  rcases hheld.waiting with hshut | ⟨hgoes, hsame⟩
  · exact .inr ⟨(congrArg Engine.phase hshut).symm, (congrArg Engine.external hshut).symm⟩
  · exact .inl ⟨hatEnd.resolve_right hgoes, by rw [hsame, haccept]; rfl⟩

/-- If an engine of a session waits, with any events in its open queue, then processing these one by
one until there is none or the engine has stopped leads to the same engine as taking steps until the
engine is idle or has stopped, and the same errors are met.  A call that finds an event takes the
oldest one and finishes it, counts one macrostep, and leaves the others waiting unless the engine
has stopped. -/
theorem drained_alike (hv : su.model.Validated) (context : κ) (memory : σ) :
    ∃ e, create su context memory = .ok e ∧ ∀ actions : List (Action κ),
      ∀ x, x ∈ sessionTrail su e actions ∨ x = performAll su e actions →
        (x.phase = .waiting → x.external.closed = false →
          (∃ errors y, Repeats (processNext su) false x errors y) ∧
          ∀ errors y, Repeats (processNext su) false x errors y ↔
            Repeats (step su) .idle x errors y) ∧
        ∀ y, processNext su x = (.ok true, y) →
          x.phase = .waiting ∧ ∃ event rest n, x.external = ⟨event :: rest, false⟩ ∧
            next su x = x.accept event ⟨rest, false⟩ ∧ Finishes su (next su x) n ∧
            y = (next su)^[n] (next su x) ∧ y.stats.macrosteps = x.stats.macrosteps + 1 ∧
            (y.phase = .waiting ∧ y.external = ⟨rest, false⟩ ∨
              y.phase = .stopped ∧ y.external = ⟨[], true⟩) := by
  refine ⟨fresh context memory, create_eq hv context memory, fun actions x hx => ⟨fun hp _ => ?_,
    fun y h => ?_⟩⟩
  · obtain ⟨errors, y, hcalls, hsteps⟩ := exists_repeats su hp
    refine ⟨⟨errors, y, hcalls⟩, fun errors' y' => ⟨fun h => ?_, fun h => ?_⟩⟩
    · obtain ⟨rfl, rfl⟩ := hcalls.unique h
      exact hsteps
    · obtain ⟨rfl, rfl⟩ := hsteps.unique h
      exact hcalls
  · have ht : Truthful su x :=
      session_induction hx (truthful_fresh context memory) fun v _ x h => h.move hv v
    exact processed_one hv ht h

/-- The engine when two requests wait for the chart that serves them. -/
def crowdedEngine : Engine Scope Cache :=
  performAll servingSetup blank [.start, .push (.external "go"), .push (.external "late")]

theorem next_crowdedEngine : next servingSetup crowdedEngine = servingEngine := rfl

theorem crowdedEngine_eq : crowdedEngine = performAll servingSetup (started servingSetup blank)
    [.push (.external "go"), .push (.external "late")] :=
  startsAtOnce_serving.performAll _

theorem phase_crowdedEngine : crowdedEngine.phase = .waiting := by
  rw [crowdedEngine_eq]
  decide +kernel

theorem exists_queued_crowdedEngine :
    ∃ event event', crowdedEngine.external = ⟨[event, event'], false⟩ := by
  have hopen : crowdedEngine.external.closed = false := by
    rw [crowdedEngine_eq]
    decide +kernel
  have hevents : crowdedEngine.external.events.length = 2 := by
    rw [crowdedEngine_eq]
    decide +kernel
  obtain ⟨event, event', hq⟩ := List.length_eq_two.1 hevents
  exact ⟨event, event', by rw [← hq, ← hopen]⟩

/-- The first request is processed to its end. -/
theorem processNext_crowdedEngine : processNext servingSetup crowdedEngine =
    (.ok true, (next servingSetup)^[3] servingEngine) := by
  obtain ⟨event, event', hq⟩ := exists_queued_crowdedEngine
  have hdone := (Prod.mk.inj next_servingEngine).1
  rw [← next_crowdedEngine] at hdone
  exact processNext_of_finishes phase_crowdedEngine hq finishes_servingEngine hdone

/-- The second one goes on waiting. -/
theorem drained_alike_crowded :
    crowdedEngine.phase = .waiting ∧ crowdedEngine.external.closed = false ∧
      (∃ errors y, Repeats (processNext servingSetup) false crowdedEngine errors y ∧
        Repeats (step servingSetup) .idle crowdedEngine errors y) ∧
      ∃ y event, processNext servingSetup crowdedEngine = (.ok true, y) ∧
        y.configuration.states.toList = [7] ∧ y.stats.macrosteps = 1 ∧
        y.external = ⟨[event], false⟩ := by
  have hcount : crowdedEngine.stats.macrosteps = 0 := by
    rw [crowdedEngine_eq]
    decide +kernel
  obtain ⟨hdone, hstates⟩ := Prod.mk.inj next_servingEngine
  obtain ⟨event, event', hq⟩ := exists_queued_crowdedEngine
  have hopen : crowdedEngine.external.closed = false := by rw [hq]
  obtain ⟨e, hcreate, h⟩ := drained_alike validated_servingSetup Scope.empty Cache.empty
  rw [create_eq validated_servingSetup] at hcreate
  cases hcreate
  obtain ⟨hdrained, hone⟩ := h _ crowdedEngine (.inr rfl)
  obtain ⟨⟨errors, y, hcalls⟩, halike⟩ := hdrained phase_crowdedEngine hopen
  obtain ⟨-, _, _, n, hq', -, -, -, hmacrosteps, hleft⟩ := hone _ processNext_crowdedEngine
  rw [hq] at hq'
  cases hq'
  refine ⟨phase_crowdedEngine, hopen, ⟨errors, y, hcalls, (halike errors y).1 hcalls⟩, _, event',
    processNext_crowdedEngine, hstates, by rw [hmacrosteps, hcount], ?_⟩
  rcases hleft with ⟨-, hrest⟩ | ⟨hstopped, -⟩
  · exact hrest
  · rw [hdone] at hstopped
    cases hstopped

end Engine

end Statechart
