import Mathlib.Tactic.IntervalCases
import Statechart.Proofs.Engine.Stabilization

/-!
# Stopping

A host may stop an engine whatever it is doing.  The engine then finishes this exactly as steps of the
run loop would, and drops what waits.

* `Engine.AtBoundary`: an engine between two macrosteps, or one that has stopped;
* `Engine.Finishes`: how many steps, and no fewer, lead an engine to a boundary;
* `Engine.SteppedTo`: an operation gives what these steps give.  A stabilization is of this kind
  (`exists_steppedTo_stabilizeFrom`), and so is what `stop` does first (`exists_steppedTo_settle`);
* `Engine.Held`: what such steps leave alone, one at a time (`held_of_steps`) and together
  (`held_iterate`): the events that wait, unless all of them are dropped;
* `Engine.stop_finishes`: all this for every engine that a session leads to.
-/

namespace Statechart

namespace Engine

variable {κ σ α β : Type} {su : Setup κ σ} {e y : Engine κ σ} {event : Option Event} {err : Error}
  {n n' k : Nat}

/-- An engine that waits for an external event, or has stopped. -/
def AtBoundary (e : Engine κ σ) : Prop := e.phase = .waiting ∨ e.phase = .stopped

/-- How many external events an engine has taken and not yet processed: one or none. -/
def pending (e : Engine κ σ) : Nat := if e.phase = .processing then e.current.toList.length else 0

theorem pending_of_ne (h : e.phase ≠ .processing) : e.pending = 0 := if_neg h

theorem AtBoundary.pending (h : AtBoundary e) : e.pending = 0 := by
  apply pending_of_ne
  rcases h with h | h <;> simp [h]

theorem phase_of_not_atBoundary (h : ¬ AtBoundary e) :
    e.phase = .stabilizing ∨ e.phase = .processing := by
  unfold AtBoundary at h
  cases hp : e.phase <;> simp_all

/-- Nothing is left to drop once an engine has been shut down. -/
theorem shutdown_shutdown (e : Engine κ σ) : e.shutdown.shutdown = e.shutdown := rfl

variable [Context κ]

/-! ### Counting steps -/

/-- Some number of steps, and no smaller one, leads an engine to a boundary. -/
structure Finishes (su : Setup κ σ) (e : Engine κ σ) (n : Nat) : Prop where
  atBoundary : AtBoundary ((next su)^[n] e)
  busy {k : Nat} : k < n → ¬ AtBoundary ((next su)^[k] e)

namespace Finishes

theorem zero (h : AtBoundary e) : Finishes su e 0 where
  atBoundary := h
  busy hk := absurd hk (Nat.not_lt_zero _)

theorem succ (hb : ¬ AtBoundary e) (h : Finishes su (next su e) n) : Finishes su e (n + 1) where
  atBoundary := h.atBoundary
  busy {k} hk := by
    cases k with
    | zero => exact hb
    | succ k => exact h.busy (Nat.lt_of_succ_lt_succ hk)

theorem unique (h : Finishes su e n) (h' : Finishes su e n') : n = n' := by
  rcases Nat.lt_trichotomy n n' with hlt | heq | hlt
  · exact absurd h.atBoundary (h'.busy hlt)
  · exact heq
  · exact absurd h'.atBoundary (h.busy hlt)

end Finishes

/-- An operation gives the engine to which the steps lead that finish what an engine is doing, and it
fails exactly if one of these steps fails, with the same error. -/
structure SteppedTo (su : Setup κ σ) (e : Engine κ σ) (n : Nat) (r : Except Error α × Engine κ σ) :
    Prop where
  finishes : Finishes su e n
  engine : r.2 = (next su)^[n] e
  error_iff (err : Error) :
    r.1 = .error err ↔ ∃ k < n, (step su ((next su)^[k] e)).1 = .error err

namespace SteppedTo

theorem zero (h : AtBoundary e) (a : α) : SteppedTo su e 0 (.ok a, e) where
  finishes := .zero h
  engine := rfl
  error_iff err := by simp

/-- A step that fails stops the engine, so that it is the last one. -/
theorem last (hb : ¬ AtBoundary e) (hs : step su e = (.error err, y)) :
    SteppedTo su e 1 ((.error err : Except Error α), y) where
  finishes := by
    refine .succ hb (.zero (.inr ?_))
    rw [next, hs]
    exact phase_of_step_error hs
  engine := (congrArg Prod.snd hs).symm
  error_iff err' := by
    simp [hs]

theorem succ {outcome : Outcome} {r : Except Error α × Engine κ σ} (hb : ¬ AtBoundary e)
    (hs : step su e = (.ok outcome, y)) (h : SteppedTo su y n r) : SteppedTo su e (n + 1) r := by
  have hy : y = next su e := (congrArg Prod.snd hs).symm
  subst hy
  refine ⟨.succ hb h.finishes, h.engine, fun err => (h.error_iff err).trans ?_⟩
  constructor
  · rintro ⟨k, hk, hfails⟩
    exact ⟨k + 1, Nat.succ_lt_succ hk, hfails⟩
  · rintro ⟨k, hk, hfails⟩
    cases k with
    | zero =>
      -- The first step has not failed.
      rw [Function.iterate_zero_apply, hs] at hfails
      cases hfails
    | succ k => exact ⟨k, Nat.lt_of_succ_lt_succ hk, hfails⟩

/-- What an operation answers when it has not failed does not matter. -/
theorem of_ok {a : α} (b : β) (h : SteppedTo su e n (.ok a, y)) : SteppedTo su e n (.ok b, y) where
  finishes := h.finishes
  engine := h.engine
  error_iff err := by
    rw [← h.error_iff err]
    simp

theorem of_error (h : SteppedTo su e n ((.error err : Except Error α), y)) :
    SteppedTo su e n ((.error err : Except Error β), y) where
  finishes := h.finishes
  engine := h.engine
  error_iff err' := by
    rw [← h.error_iff err']
    simp

end SteppedTo

/-- A stabilization takes the steps that lead to a boundary. -/
theorem exists_steppedTo_stabilizeFrom (su : Setup κ σ) (k : Nat) (h : e.phase ≠ .processing) :
    ∃ n, SteppedTo su e n (stabilizeFrom su e k) := by
  fun_induction stabilizeFrom su e k with
  | case1 e k hp err y hs =>
    have hb : ¬ AtBoundary e := by simp [AtBoundary, hp]
    exact ⟨1, .last hb hs⟩
  | case2 e k hp outcome y hs ih =>
    have hb : ¬ AtBoundary e := by simp [AtBoundary, hp]
    have hne : (step su e).2.phase ≠ .processing := phase_step_ne su (by simp [hp])
    rw [hs] at hne
    obtain ⟨n, hn⟩ := ih hne
    exact ⟨n + 1, hn.succ hb hs⟩
  | case3 e k hp =>
    have hb : AtBoundary e := by
      by_contra hb
      rcases phase_of_not_atBoundary hb with hp' | hp'
      · exact hp hp'
      · exact h hp'
    exact ⟨0, .zero hb k⟩

/-- What an engine does before it stops takes the steps that lead to a boundary: that for the event in
flight, if there is one, and those of a stabilization. -/
theorem exists_steppedTo_settle (su : Setup κ σ) (e : Engine κ σ) :
    ∃ n, SteppedTo su e n (settle su e) := by
  have hrest : ∀ y : Engine κ σ, y.phase ≠ .processing → ∃ n, SteppedTo su y n (stabilize su y) :=
    fun y => exists_steppedTo_stabilizeFrom su 0
  unfold settle
  by_cases hp : e.phase = .processing
  · rw [if_pos hp]
    have hb : ¬ AtBoundary e := by simp [AtBoundary, hp]
    split
    · next err y hs => exact ⟨1, .last hb hs⟩
    · next outcome y hs =>
      have hne : (step su e).2.phase ≠ .processing := phase_step_ne su (by simp [hp])
      rw [hs] at hne
      obtain ⟨n, hn⟩ := hrest y hne
      split
      · next hr =>
        rw [hr] at hn
        exact ⟨n + 1, hn.of_error.succ hb hs⟩
      · next hr =>
        rw [hr] at hn
        exact ⟨n + 1, (hn.of_ok ()).succ hb hs⟩
  · rw [if_neg hp]
    obtain ⟨n, hn⟩ := hrest e hp
    dsimp only
    split
    · next hr =>
      rw [hr] at hn
      exact ⟨n, hn.of_error⟩
    · next hr =>
      rw [hr] at hn
      exact ⟨n, hn.of_ok ()⟩

/-! ### What the steps to a boundary leave alone -/

/-- An engine has been shut down since `e`, or runs with the same external events waiting, and those
that `e` has processed or taken have been processed or taken, and no others. -/
structure Held (e y : Engine κ σ) : Prop where
  waiting : y.shutdown = y ∨ y.phase ≠ .stopped ∧ y.external = e.external
  processed : y.stats.macrosteps + y.pending = e.stats.macrosteps + e.pending

omit [Context κ] in
theorem Held.refl (h : e.phase ≠ .stopped) : Held e e := ⟨.inr ⟨h, rfl⟩, rfl⟩

/-- An event in flight counts as processed as soon as the engine turns to it. -/
theorem Turns.macrosteps (h : Turns su e event y) :
    y.stats.macrosteps = e.stats.macrosteps + e.pending := by
  cases h with
  | eventless hp => simp [pending, hp]
  | internal hp => simp [consumed, pending, hp]
  | external hp hc => simp [takenUp, pending, hp, hc]

theorem Turns.macrosteps_prepared (h : Turns su e event y) :
    (prepared su event y).stats.macrosteps = e.stats.macrosteps + e.pending := by
  rw [stats_prepared, h.macrosteps]

theorem Turns.macrosteps_acted (h : Turns su e event y) :
    (acted su event y).stats.macrosteps = e.stats.macrosteps + e.pending :=
  h.macrosteps_prepared

/-- A step of an engine that is not at a boundary takes no external event. -/
theorem held_of_steps (hb : ¬ AtBoundary e) {r : Except Error Outcome × Engine κ σ}
    (hs : Steps su e r) : Held e r.2 := by
  have hgoes : ∀ {y : Engine κ σ}, y.phase ≠ .stopped → y.phase ≠ .processing →
      y.external = e.external → y.stats.macrosteps = e.stats.macrosteps + e.pending → Held e y := by
    intro y hrun hdone hexternal hprocessed
    refine ⟨.inr ⟨hrun, hexternal⟩, ?_⟩
    rw [pending_of_ne hdone, hprocessed, Nat.add_zero]
  have hends : ∀ {y : Engine κ σ}, y.stats.macrosteps = e.stats.macrosteps + e.pending →
      Held e y.shutdown := by
    intro y hprocessed
    exact ⟨.inl (shutdown_shutdown y), hprocessed⟩
  cases hs with
  | close hp | dequeue hp | idle hp => exact absurd (.inl hp) hb
  | lose hp hc => exact hgoes (by simp) (by simp) rfl (by simp [pending, hp, hc])
  | @ignore event hp hc =>
    have ht : Turns su e (some event) e.takenUp := .external hp hc
    exact hgoes (by simp) (by simp) (by simp [takenUp]) ht.macrosteps_prepared
  | @respond event hp hc =>
    have ht : Turns su e (some event) e.takenUp := .external hp hc
    exact hgoes (by simp) (by simp) (by simp [takenUp]) (by dsimp only; exact ht.macrosteps_acted)
  | settle hp =>
    have hstats : (prepared su none e).stats = e.stats := stats_prepared
    refine hgoes (by simp) (by simp) external_prepared ?_
    rw [pending_of_ne (e := e) (by simp [hp])]
    exact congrArg (·.macrosteps) hstats
  | skip hp ht =>
    exact hgoes (by simp [ht.phase, hp]) (by simp [ht.phase, hp]) (by simp [ht.external_eq])
      ht.macrosteps_prepared
  | count hp ht =>
    exact hgoes (by simp [ht.phase, hp]) (by simp [ht.phase, hp]) (by simp [ht.external_eq])
      (by dsimp only; exact ht.macrosteps_acted)
  | limit _ ht => exact hends (by dsimp only; exact ht.macrosteps_acted)
  | halt ht => exact hends ht.macrosteps_acted

/-- Until a boundary is reached, no external event is taken. -/
theorem held_iterate (hv : su.model.Validated) (ht : Truthful su e) (hp : e.phase ≠ .stopped)
    (h : Finishes su e n) (hk : k ≤ n) : Truthful su ((next su)^[k] e) ∧ Held e ((next su)^[k] e) := by
  induction k with
  | zero => exact ⟨ht, .refl hp⟩
  | succ k ih =>
    obtain ⟨htk, hheld⟩ := ih (Nat.le_of_succ_le hk)
    have hb : ¬ AtBoundary ((next su)^[k] e) := h.busy hk
    have hrun : ((next su)^[k] e).phase ≠ .stopped := fun hstopped => hb (.inr hstopped)
    have hstep := held_of_steps hb (steps_of_truthful hv htk hrun)
    rw [Function.iterate_succ_apply']
    refine ⟨htk.step hv, ?_, hstep.processed.trans hheld.processed⟩
    refine hstep.waiting.imp_right fun hnext => ⟨hnext.1, hnext.2.trans ?_⟩
    -- What has been shut down has stopped, but the engine still runs.
    rcases hheld.waiting with hshut | ⟨-, hsame⟩
    · exact absurd (congrArg Engine.phase hshut).symm hrun
    · exact hsame

/-! ### Stopping -/

/-- Stopping a running engine finishes what it is doing, and shuts it down. -/
theorem stop_of_running (hp : e.phase ≠ .stopped)
    (hshut : (settle su e).2.phase = .stopped → (settle su e).2.shutdown = (settle su e).2) :
    stop su e = ((settle su e).1, (settle su e).2.shutdown) := by
  have hphase := phase_settle su e
  rw [stop, if_neg hp]
  split
  · next err y hs =>
    rw [hs] at hphase hshut
    have hstopped : y.phase = .stopped := by
      rcases hphase with hphase | ⟨hok, -⟩
      · exact hphase
      · cases hok
    rw [hs]
    exact Prod.ext rfl (hshut hstopped).symm
  · next y hs =>
    rw [hs] at hshut ⊢
    split
    · next hstopped => exact Prod.ext rfl (hshut hstopped).symm
    · rfl

/-- Stopping a running engine of a session stops it, whether it fails or not, after the steps that
finish what it is doing: it shows the configuration, the context, the reported errors and the counts
to which these lead, and fails as they do.  No external event is taken on the way, the one in flight
is processed, and all that wait are dropped. -/
theorem stop_finishes (hv : su.model.Validated) (context : κ) (memory : σ) :
    ∃ e, create su context memory = .ok e ∧ ∀ actions : List (Action κ),
      ∀ x, x ∈ sessionTrail su e actions ∨ x = performAll su e actions → x.phase ≠ .stopped →
        (∃ n, Finishes su x n) ∧ ∀ n, Finishes su x n →
          ((stop su x).2.phase = .stopped ∧
            (stop su x).2.configuration = ((next su)^[n] x).configuration ∧
            (stop su x).2.store.context = ((next su)^[n] x).store.context ∧
            (stop su x).2.store.reports = ((next su)^[n] x).store.reports ∧
            (stop su x).2.stats = ((next su)^[n] x).stats) ∧
          (stop su x).2 = ((next su)^[n] x).shutdown ∧
          (∀ err, (stop su x).1 = .error err ↔
            ∃ k < n, (step su ((next su)^[k] x)).1 = .error err) ∧
          (∀ k ≤ n, ((next su)^[k] x).phase ≠ .stopped →
            ((next su)^[k] x).external = x.external) ∧
          (stop su x).2.stats.macrosteps = x.stats.macrosteps + x.pending ∧
          (stop su x).2.external = ⟨[], true⟩ ∧ (stop su x).2.store.internal = [] ∧
          (stop su x).2.current = none := by
  refine ⟨fresh context memory, create_eq hv context memory, fun actions x hx hp => ?_⟩
  have ht : Truthful su x :=
    session_induction hx (truthful_fresh context memory) fun v _ x h => h.move hv v
  obtain ⟨n, hn⟩ := exists_steppedTo_settle su x
  refine ⟨⟨n, hn.finishes⟩, fun n' hn' => ?_⟩
  obtain rfl : n = n' := hn.finishes.unique hn'
  have hheld := fun k (hk : k ≤ n) => (held_iterate hv ht hp hn' hk).2
  have hstop : stop su x = ((settle su x).1, ((next su)^[n] x).shutdown) := by
    rw [stop_of_running hp, hn.engine]
    intro hstopped
    rw [hn.engine] at hstopped ⊢
    rcases (hheld n (Nat.le_refl n)).waiting with hshut | ⟨hrun, -⟩
    · exact hshut
    · exact absurd hstopped hrun
  have hprocessed := (hheld n (Nat.le_refl n)).processed
  rw [hn'.atBoundary.pending, Nat.add_zero] at hprocessed
  rw [hstop]
  refine ⟨⟨rfl, rfl, rfl, rfl, rfl⟩, rfl, hn.error_iff, fun k hk hrun => ?_, hprocessed, rfl, rfl, rfl⟩
  rcases (hheld k hk).waiting with hshut | ⟨-, hsame⟩
  · exact absurd (congrArg Engine.phase hshut).symm hrun
  · exact hsame

end Engine

/-! ### A chart that serves a request -/

namespace Model

/-- On `go`, the state `a` gives way to `b`, which raises `one` and gives way to `c` on it. -/
def serving : Model where
  nodes := #[
    ⟨none, .scxml none, none, [1, 3, 7]⟩,
    ⟨some "a", .state none, some 0, [2]⟩,
    ⟨none, .transition ⟨[⟨"go"⟩], none, ["b"], .external⟩, some 1, []⟩,
    ⟨some "b", .state none, some 0, [4, 6]⟩,
    ⟨none, .onEntry, some 3, [5]⟩,
    ⟨none, .raise "one", some 4, []⟩,
    ⟨none, .transition ⟨[⟨"one"⟩], none, ["c"], .external⟩, some 3, []⟩,
    ⟨some "c", .state none, some 0, []⟩]
  root? := some 0
  index := [("a", 1), ("b", 3), ("c", 7)]
  transitions := [2, 6]

theorem addAll?_serving :
    empty.addAll? (serving.nodes.toList.map fun n => (⟨n.id, n.kind⟩, n.parent)) =
      some serving := by
  decide +kernel

theorem validated_serving : serving.Validated where
  built := Built.empty.addAll? addAll?_serving
  valid := by decide +kernel

end Model

namespace Engine

/-- An engine over the chart that serves a request. -/
def servingSetup : Setup Scope Cache := ⟨Model.serving, .default, .standard Scope⟩

theorem validated_servingSetup : servingSetup.model.Validated := Model.validated_serving

/-- A request has been taken, and a second one waits. -/
def servingSession : List (Action Scope) :=
  [.start, .push (.external "go"), .push (.external "late"), .step]

/-- The engine when it has taken the request. -/
def servingEngine : Engine Scope Cache := performAll servingSetup blank servingSession

theorem startsAtOnce_serving : StartsAtOnce servingSetup blank := by decide +kernel

theorem servingEngine_eq : servingEngine = performAll servingSetup (started servingSetup blank)
    [.push (.external "go"), .push (.external "late"), .step] :=
  startsAtOnce_serving.performAll _

theorem next_servingEngine : (((next servingSetup)^[3] servingEngine).phase,
    ((next servingSetup)^[3] servingEngine).configuration.states.toList) = (.waiting, [7]) := by
  rw [servingEngine_eq]
  decide +kernel

/-- The request takes three steps: its own microstep, that of the event it raises, and one that finds
nothing. -/
theorem finishes_servingEngine : Finishes servingSetup servingEngine 3 where
  atBoundary := .inl (Prod.mk.inj next_servingEngine).1
  busy {k} hk := by
    have hphase : ((next servingSetup)^[k] servingEngine).phase =
        if k = 0 then .processing else .stabilizing := by
      rw [servingEngine_eq]
      interval_cases k <;> decide +kernel
    unfold AtBoundary
    rw [hphase]
    split <;> simp

/-- The request is served to its end, and the second one is dropped. -/
theorem stop_finishes_serving :
    servingEngine.phase ≠ .stopped ∧ Finishes servingSetup servingEngine 3 ∧
      (stop servingSetup servingEngine).2.phase = .stopped ∧
      (stop servingSetup servingEngine).2.configuration.states.toList = [7] ∧
      (stop servingSetup servingEngine).2.stats.macrosteps = 1 ∧
      servingEngine.external.events.length = 1 ∧
      (stop servingSetup servingEngine).2.external = ⟨[], true⟩ := by
  have hprocessing : servingEngine.phase = .processing := by
    rw [servingEngine_eq]
    decide +kernel
  have hrun : servingEngine.phase ≠ .stopped := by
    rw [hprocessing]
    exact Phase.noConfusion
  have hcounts : servingEngine.stats.macrosteps + servingEngine.pending = 1 := by
    rw [servingEngine_eq]
    decide +kernel
  have hlength : servingEngine.external.events.length = 1 := by
    rw [servingEngine_eq]
    decide +kernel
  obtain ⟨e, hcreate, h⟩ := stop_finishes validated_servingSetup Scope.empty Cache.empty
  rw [create_eq validated_servingSetup] at hcreate
  cases hcreate
  obtain ⟨-, hstop⟩ := h servingSession servingEngine (.inr rfl) hrun
  obtain ⟨⟨hstopped, hconf, -⟩, -, -, -, hprocessed, hexternal, -⟩ := hstop 3 finishes_servingEngine
  rw [hconf, hprocessed]
  exact ⟨hrun, finishes_servingEngine, hstopped, (Prod.mk.inj next_servingEngine).2, hcounts,
    hlength, hexternal⟩

end Engine

end Statechart
