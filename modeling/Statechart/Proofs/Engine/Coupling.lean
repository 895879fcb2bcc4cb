import Mathlib.Data.List.Forall2
import Statechart.Proofs.Engine.Coherence
import Statechart.Proofs.Evaluation.Coupling

/-!
# Two engines side by side

Two engines over one model go the same way as long as their stores are related by a relation that
all they do to them keeps.  One of them may have counted something before, and they may differ in
whether they expose events.

* `Engine.Coupling`: a relation between stores that engines keep; `Engine.Coupled`: two engines that
  are the same, except that their stores are only related and that the first has counted before;
* `Coupling.step`: they take the same step, and are coupled after it; `Coupling.stabilizeFrom`,
  `Coupling.settle`, `Coupling.runFrom`: so it is for what consists of steps;
* `Coupling.respond`, `Coupling.trail`: to every action they give the same answer, and they are
  coupled after each of its steps;
* `Engine.InStep`, `Coupling.inStep`: so it is for all actions of a session.
-/

namespace Statechart

/-- The same, but with events exposed or not. -/
def Setup.exposing {κ σ : Type} (su : Setup κ σ) (exposed : Bool) : Setup κ σ :=
  { su with options := { su.options with exposeEvent := exposed } }

/-- The sum of two counts. -/
def Stats.add (s t : Stats) : Stats where
  microsteps := s.microsteps + t.microsteps
  macrosteps := s.macrosteps + t.macrosteps
  internalEvents := s.internalEvents + t.internalEvents
  configurations := s.configurations + t.configurations

/-- What an action gives back. -/
inductive Answer
  | done (result : Except Error Unit)
  | step (result : Except Error Outcome)
  | count (result : Except Error Nat)
  | found (result : Except Error Bool)
  | run (observed : List Configuration) (result : Except Error Unit)

/-- What the host writes to the context keeps a relation between stores. -/
def Action.Keeps {κ σ : Type} (S : Store κ σ → Store κ σ → Prop) (a : Action κ) : Prop :=
  ∀ change, a = .writeContext change → ∀ s t, S s t →
    S { s with context := change s.context } { t with context := change t.context }

namespace Engine

variable {κ σ : Type} {su : Setup κ σ} {exposed : Bool} {S : Store κ σ → Store κ σ → Prop} {p : Stats}
  {e x : Engine κ σ}

/-- Two engines that are the same, except that the first had counted something before and that their
stores are only related. -/
def Coupled (S : Store κ σ → Store κ σ → Prop) (p : Stats) (e x : Engine κ σ) : Prop :=
  ∃ s, S s x.store ∧ e = { x with store := s, stats := p.add x.stats }

/-- Two runs that show the same configurations, end in the same way, and leave coupled engines. -/
def CoupledRun (S : Store κ σ → Store κ σ → Prop) (p : Stats) (r s : Run κ σ) : Prop :=
  r.observed = s.observed ∧ r.result = s.result ∧ Coupled S p r.engine s.engine

/-! ### Engines that are coupled -/

namespace Coupled

variable (h : Coupled S p e x)
include h

theorem phase : e.phase = x.phase := by
  obtain ⟨s, -, rfl⟩ := h
  rfl

theorem configuration : e.configuration = x.configuration := by
  obtain ⟨s, -, rfl⟩ := h
  rfl

theorem external : e.external = x.external := by
  obtain ⟨s, -, rfl⟩ := h
  rfl

theorem halted : e.halted = x.halted := by
  obtain ⟨s, -, rfl⟩ := h
  rfl

theorem settling : e.settling = x.settling := by
  obtain ⟨s, -, rfl⟩ := h
  rfl

theorem configurations : e.stats.configurations = p.configurations + x.stats.configurations := by
  obtain ⟨s, -, rfl⟩ := h
  rfl

theorem store : S e.store x.store := by
  obtain ⟨s, hs, rfl⟩ := h
  exact hs

theorem with_store {s t : Store κ σ} (hs : S s t) :
    Coupled S p { e with store := s } { x with store := t } := by
  obtain ⟨-, -, rfl⟩ := h
  exact ⟨s, hs, rfl⟩

theorem accept (event : Event) (queue : ExternalQueue) :
    Coupled S p (e.accept event queue) (x.accept event queue) := by
  obtain ⟨s, hs, rfl⟩ := h
  exact ⟨s, hs, rfl⟩

theorem publish (c : Configuration) : Coupled S p (e.publish c) (x.publish c) := by
  obtain ⟨s, hs, rfl⟩ := h
  exact ⟨s, hs, rfl⟩

theorem push (event : Event) : SameAnswer (Coupled S p) (e.push event) (x.push event) := by
  unfold Engine.push
  rw [h.external]
  obtain ⟨s, hs, rfl⟩ := h
  split
  · exact ⟨rfl, s, hs, rfl⟩
  · exact ⟨rfl, s, hs, rfl⟩

theorem inject (event : Event) : SameAnswer (Coupled S p) (e.inject event) (x.inject event) := by
  unfold Engine.inject
  rw [h.phase]
  split
  · exact ⟨rfl, h⟩
  · exact h.push event

/-- Both engines have published something new, or neither has. -/
theorem observe (seen : List Configuration) (shown : Nat) :
    e.observe seen (p.configurations + shown) = x.observe seen shown := by
  unfold Engine.observe
  rw [h.configurations, h.configuration]
  simp only [ne_eq, Nat.add_left_cancel_iff]

end Coupled

/-! ### Microsteps -/

variable [Context κ]

/-- A relation between stores that an engine keeps together with one that may expose events where it
does not, or the other way round. -/
structure Coupling (su : Setup κ σ) (exposed : Bool) (S : Store κ σ → Store κ σ → Prop) : Prop
    extends Store.Coupling su.model su.evaluator S where
  expose {e x : Engine κ σ} (event : Option Event) : S e.store x.store →
    S (Engine.expose su event e).store (Engine.expose (su.exposing exposed) event x).store
  select {e x : Engine κ σ} (event : Option Event) : e.configuration = x.configuration →
    S e.store x.store → SameAnswer (fun e x => S e.store x.store)
      (Engine.selectTransitions su event e) (Engine.selectTransitions su event x)

namespace Coupling

variable (hS : Coupling su exposed S) (h : Coupled S p e x)
include hS h

theorem shutdown : Coupled S p e.shutdown x.shutdown := by
  obtain ⟨s, hs, rfl⟩ := h
  exact ⟨_, hS.requeue [] hs, rfl⟩

theorem raiseDone (m : Model) (states : List Nat) :
    Coupled S p (e.raiseDone m states) (x.raiseDone m states) := by
  obtain ⟨s, hs, rfl⟩ := h
  exact ⟨_, hS.append hs _, rfl⟩

theorem exposeEvent (event : Option Event) :
    Coupled S p (Engine.expose su event e) (Engine.expose (su.exposing exposed) event x) := by
  rw [expose_eq su, expose_eq (su.exposing exposed)]
  exact h.with_store (hS.expose event h.store)

theorem selectTransitions (event : Option Event) : SameAnswer (Coupled S p)
    (Engine.selectTransitions su event e)
    (Engine.selectTransitions (su.exposing exposed) event x) :=
  have hselect := hS.select event h.configuration h.store
  ⟨hselect.1, h.with_store hselect.2⟩

theorem runTransitions (ts : List Nat) : SameAnswer S
    (Engine.runTransitions su ts e) (Engine.runTransitions (su.exposing exposed) ts x) := by
  unfold Engine.runTransitions Store.runExits Store.runEntries
  rw [h.configuration]
  exact ⟨rfl, hS.runBlocks (hS.runBlocks (hS.runBlocks h.store _) _) _⟩

theorem microstep (event : Option Event) : SameAnswer (Coupled S p)
    (Engine.microstep su event e) (Engine.microstep (su.exposing exposed) event x) := by
  have hexpose := hS.exposeEvent h event
  obtain ⟨ts, e₁, x₁, he, hx, h₁⟩ := (hS.selectTransitions hexpose event).elim
  unfold Engine.microstep
  rw [he, hx]
  cases ts with
  | nil => exact ⟨rfl, h₁⟩
  | cons t ts =>
    obtain ⟨c, s, s', hs, hs', hstore⟩ := (hS.runTransitions h₁ (t :: ts)).elim
    dsimp only
    rw [hs, hs']
    have hran := h₁.with_store hstore
    dsimp only [Setup.exposing]
    cases c.validate su.model with
    | error err => exact ⟨rfl, hran⟩
    | ok _ =>
      obtain ⟨-, -, rfl⟩ := h₁
      exact ⟨rfl, hS.raiseDone (Coupled.publish ⟨s, hstore, rfl⟩ c) su.model _⟩

theorem guardedMicrostep (event : Option Event) : SameAnswer (Coupled S p)
    (Engine.guardedMicrostep su event e)
    (Engine.guardedMicrostep (su.exposing exposed) event x) := by
  obtain ⟨r, e₁, x₁, he, hx, h₁⟩ := (hS.microstep h event).elim
  unfold Engine.guardedMicrostep
  rw [he, hx]
  cases r with
  | error err => exact ⟨rfl, hS.shutdown h₁⟩
  | ok n => exact ⟨rfl, h₁⟩

/-! ### Steps -/

theorem afterMicrostep (name : Option String) (n : Nat) : SameAnswer (Coupled S p)
    (Engine.afterMicrostep su name n e) (Engine.afterMicrostep (su.exposing exposed) name n x) := by
  have hcounted : Coupled S p { e with settling := x.settling + 1, halted := x.halted }
      { x with settling := x.settling + 1 } := by
    obtain ⟨s, hs, rfl⟩ := h
    exact ⟨s, hs, rfl⟩
  have hlimit : (su.exposing exposed).options.maxMicrosteps = su.options.maxMicrosteps := rfl
  unfold Engine.afterMicrostep
  rw [h.halted, h.settling, hlimit]
  dsimp only
  split
  · exact ⟨rfl, hS.shutdown h⟩
  · split
    · split
      · exact ⟨rfl, hS.shutdown hcounted⟩
      · exact ⟨rfl, hcounted⟩
    · exact ⟨rfl, h⟩

theorem await : SameAnswer (Coupled S p) e.await x.await := by
  unfold Engine.await
  rw [h.external]
  split
  · exact ⟨rfl, hS.shutdown h⟩
  · split
    · exact ⟨rfl, h.accept _ _⟩
    · exact ⟨rfl, h⟩

theorem consume : SameAnswer (Coupled S p)
    (Engine.consume su e) (Engine.consume (su.exposing exposed) x) := by
  unfold Engine.consume
  rw [hS.internal h.store]
  cases hq : x.store.internal with
  | nil =>
    obtain ⟨s, hs, rfl⟩ := h
    exact ⟨rfl, s, hs, rfl⟩
  | cons event rest =>
    have hconsumed : Coupled S p (consumed rest e) (consumed rest x) := by
      obtain ⟨s, hs, rfl⟩ := h
      exact ⟨_, hS.requeue rest hs, rfl⟩
    obtain ⟨r, e₁, x₁, he, hx, h₁⟩ := (hS.guardedMicrostep hconsumed (some event)).elim
    dsimp only
    rw [← consumed, ← consumed, he, hx]
    cases r with
    | error err => exact ⟨rfl, h₁⟩
    | ok n => exact hS.afterMicrostep h₁ (some event.name) n

theorem stabilizeOnce : SameAnswer (Coupled S p)
    (Engine.stabilizeOnce su e) (Engine.stabilizeOnce (su.exposing exposed) x) := by
  obtain ⟨r, e₁, x₁, he, hx, h₁⟩ := (hS.guardedMicrostep h none).elim
  unfold Engine.stabilizeOnce
  rw [he, hx]
  cases r with
  | error err => exact ⟨rfl, h₁⟩
  | ok n =>
    dsimp only
    split
    · exact hS.afterMicrostep h₁ none n
    · exact hS.consume h₁

theorem processCurrent : SameAnswer (Coupled S p)
    (Engine.processCurrent su e) (Engine.processCurrent (su.exposing exposed) x) := by
  have hcurrent : e.current = x.current := by
    obtain ⟨s, -, rfl⟩ := h
    rfl
  unfold Engine.processCurrent
  rw [hcurrent]
  cases x.current with
  | none =>
    obtain ⟨s, hs, rfl⟩ := h
    exact ⟨rfl, s, hs, rfl⟩
  | some event =>
    have htaken : Coupled S p e.takenUp x.takenUp := by
      obtain ⟨s, hs, rfl⟩ := h
      exact ⟨s, hs, rfl⟩
    obtain ⟨r, e₁, x₁, he, hx, h₁⟩ := (hS.guardedMicrostep htaken (some event)).elim
    dsimp only
    rw [← takenUp, ← takenUp, he, hx]
    cases r with
    | error err => exact ⟨rfl, h₁⟩
    | ok n =>
      dsimp only
      rw [h₁.halted]
      split
      · exact ⟨rfl, hS.shutdown h₁⟩
      · obtain ⟨s, hs, rfl⟩ := h₁
        exact ⟨rfl, s, hs, rfl⟩

/-- Coupled engines take the same step. -/
theorem step : SameAnswer (Coupled S p)
    (Engine.step su e) (Engine.step (su.exposing exposed) x) := by
  unfold Engine.step
  rw [h.phase]
  split
  · exact ⟨rfl, h⟩
  · exact hS.stabilizeOnce h
  · exact hS.await h
  · exact hS.processCurrent h

/-! ### Operations -/

theorem stabilizeFrom (n : Nat) : SameAnswer (Coupled S p)
    (Engine.stabilizeFrom su e n) (Engine.stabilizeFrom (su.exposing exposed) x n) := by
  fun_induction Engine.stabilizeFrom (su.exposing exposed) x n generalizing e with
  | case1 x n hp err x' hs =>
    have hstep := hS.step h
    rw [hs] at hstep
    rw [stabilizeFrom_of_error (h.phase.trans hp) hstep.1]
    exact ⟨rfl, hstep.2⟩
  | case2 x n hp outcome x' hs ih =>
    have hstep := hS.step h
    rw [hs] at hstep
    rw [stabilizeFrom_of_ok (h.phase.trans hp) hstep.1]
    exact ih hstep.2
  | case3 x n hp =>
    rw [stabilizeFrom_of_ne (h.phase ▸ hp)]
    exact ⟨rfl, h⟩

/-- A stabilization whose count is not given back. -/
theorem stabilize_unit :
    SameAnswer (Coupled S p)
      (match stabilize su e with
        | (.error err, e) => (.error err, e)
        | (.ok _, e) => (.ok (), e) : Except Error Unit × Engine κ σ)
      (match stabilize (su.exposing exposed) x with
        | (.error err, x) => (.error err, x)
        | (.ok _, x) => (.ok (), x)) := by
  obtain ⟨r, e₁, x₁, he, hx, h₁⟩ := (hS.stabilizeFrom h 0).elim
  rw [stabilize, stabilize, he, hx]
  cases r with
  | error err => exact ⟨rfl, h₁⟩
  | ok n => exact ⟨rfl, h₁⟩

theorem settle : SameAnswer (Coupled S p)
    (Engine.settle su e) (Engine.settle (su.exposing exposed) x) := by
  unfold Engine.settle
  rw [h.phase]
  by_cases hp : x.phase = .processing
  · obtain ⟨r, e₁, x₁, he, hx, h₁⟩ := (hS.step h).elim
    rw [if_pos hp, if_pos hp, he, hx]
    cases r with
    | error err => exact ⟨rfl, h₁⟩
    | ok outcome => exact hS.stabilize_unit h₁
  · rw [if_neg hp, if_neg hp]
    exact hS.stabilize_unit h

theorem stop : SameAnswer (Coupled S p)
    (Engine.stop su e) (Engine.stop (su.exposing exposed) x) := by
  unfold Engine.stop
  rw [h.phase]
  split
  · exact ⟨rfl, h⟩
  · obtain ⟨r, e₁, x₁, he, hx, h₁⟩ := (hS.settle h).elim
    rw [he, hx]
    cases r with
    | error err => exact ⟨rfl, h₁⟩
    | ok _ =>
      dsimp only
      rw [h₁.phase]
      split
      · exact ⟨rfl, h₁⟩
      · exact ⟨rfl, hS.shutdown h₁⟩

theorem processNext : SameAnswer (Coupled S p)
    (Engine.processNext su e) (Engine.processNext (su.exposing exposed) x) := by
  unfold Engine.processNext
  rw [h.phase]
  split
  · exact ⟨rfl, h⟩
  · obtain ⟨r, e₁, x₁, he, hx, h₁⟩ := (hS.step h).elim
    rw [he, hx]
    cases r with
    | error err => exact ⟨rfl, h₁⟩
    | ok outcome =>
      cases outcome with
      | dequeued name =>
        obtain ⟨r, e₂, x₂, he, hx, h₂⟩ := (hS.step h₁).elim
        dsimp only
        rw [he, hx]
        cases r with
        | error err => exact ⟨rfl, h₂⟩
        | ok outcome =>
          obtain ⟨r, e₃, x₃, he, hx, h₃⟩ := (hS.stabilizeFrom h₂ 0).elim
          dsimp only
          rw [stabilize, stabilize, he, hx]
          cases r with
          | error err => exact ⟨rfl, h₃⟩
          | ok n => exact ⟨rfl, h₃⟩
      | _ => exact ⟨rfl, h₁⟩

/-! ### Runs -/

theorem round (closes : List Configuration → Bool) (seen : List Configuration) (shown : Nat) :
    SameAnswer (CoupledRun S p) (Engine.round su closes seen (p.configurations + shown) e)
      (Engine.round (su.exposing exposed) closes seen shown x) := by
  obtain ⟨r, e₁, x₁, he, hx, h₁⟩ := (hS.settle h).elim
  unfold Engine.round
  rw [he, hx]
  cases r with
  | error err => exact ⟨rfl, rfl, rfl, h₁⟩
  | ok _ =>
    have hnew : e₁.stats.configurations ≠ p.configurations + shown ↔
        x₁.stats.configurations ≠ shown := by
      rw [h₁.configurations, ne_eq, Nat.add_left_cancel_iff]
    simp only [h₁.observe, h₁.phase, hnew, h₁.external]
    split
    · exact ⟨rfl, rfl, rfl, h₁⟩
    · split
      · refine ⟨rfl, rfl, rfl, hS.shutdown ?_⟩
        obtain ⟨s, hs, rfl⟩ := h₁
        exact ⟨s, hs, rfl⟩
      · split
        · exact ⟨rfl, rfl, rfl, h₁.accept _ _⟩
        · exact ⟨rfl, rfl, rfl, hS.shutdown h₁⟩

theorem runFrom (closes : List Configuration → Bool) (seen : List Configuration) (shown : Nat) :
    CoupledRun S p (Engine.runFrom su closes seen (p.configurations + shown) e)
      (Engine.runFrom (su.exposing exposed) closes seen shown x) := by
  fun_induction Engine.runFrom (su.exposing exposed) closes seen shown x generalizing e with
  | case1 seen shown x s hs ih =>
    obtain ⟨b, r, s', hr, hs', hobserved, -, h₁⟩ := (hS.round h closes seen shown).elim
    rw [hs] at hs'
    cases hs'
    rw [runFrom_of_round_true hr, hobserved, h₁.configurations]
    exact ih h₁
  | case2 seen shown x s hs =>
    obtain ⟨b, r, s', hr, hs', hcoupled⟩ := (hS.round h closes seen shown).elim
    rw [hs] at hs'
    cases hs'
    rw [runFrom_of_round_false hr]
    exact hcoupled

theorem run (closes : List Configuration → Bool) :
    CoupledRun S p (Engine.run su closes e) (Engine.run (su.exposing exposed) closes x) := by
  unfold Engine.run
  rw [h.phase, h.configurations]
  split
  · exact ⟨rfl, rfl, h⟩
  · exact hS.runFrom h closes [] x.stats.configurations

/-! ### Starts -/

theorem entered :
    Coupled S p (Engine.entered su e) (Engine.entered (su.exposing exposed) x) :=
  have hentries := h.with_store (hS.runBlocks h.store
    ((su.model.initialDescendants 0).toList.flatMap su.model.entryBlocks))
  hS.raiseDone (hentries.publish ⟨su.model.initialDescendants 0⟩) su.model
    (su.model.initialDescendants 0).toList

omit h

/-- A start enters the same in engines that a reset couples, but for the configuration that was
published last. -/
theorem enterInitial (hv : su.model.Validated)
    (hreset : Coupled S p { e.reset with configuration := x.configuration } x.reset) :
    SameAnswer (Coupled S p) (Engine.enterInitial su e.reset)
      (Engine.enterInitial (su.exposing exposed) x.reset) := by
  -- A start publishes another configuration.
  have hsame : Engine.entered su e.reset =
      Engine.entered su { e.reset with configuration := x.configuration } := rfl
  have hv' : (su.exposing exposed).model.Validated := hv
  have hentered := hS.entered hreset
  rw [enterInitial_eq hv, enterInitial_eq hv', hsame]
  refine ⟨rfl, ?_⟩
  dsimp only
  rw [hentered.halted]
  split
  · exact hS.shutdown hentered
  · obtain ⟨s, hs, heq⟩ := hentered
    rw [heq]
    exact ⟨s, hs, rfl⟩

theorem start (hv : su.model.Validated) (hp : e.phase = .stopped) (hp' : x.phase = .stopped)
    (hreset : Coupled S p { e.reset with configuration := x.configuration } x.reset) :
    SameAnswer (Coupled S p) (Engine.start su e) (Engine.start (su.exposing exposed) x) := by
  obtain ⟨r, e₁, x₁, he, hx, h₁⟩ := (hS.enterInitial hv hreset).elim
  rw [Engine.start, Engine.start, if_neg (not_not.2 hp), if_neg (not_not.2 hp'), he, hx]
  cases r with
  | error err => exact ⟨rfl, h₁⟩
  | ok _ => exact hS.stabilize_unit h₁

theorem reset (h : Coupled S p e x) :
    Coupled S p { e.reset with configuration := x.configuration } x.reset := by
  obtain ⟨s, hs, rfl⟩ := h
  exact ⟨_, hS.requeue [] hs, rfl⟩

end Coupling

/-! ### Actions -/

/-- What an action gives back. -/
def answer (su : Setup κ σ) (e : Engine κ σ) : Action κ → Answer
  | .start => .done (start su e).1
  | .stop => .done (stop su e).1
  | .step => .step (step su e).1
  | .stabilize => .count (stabilize su e).1
  | .processNext => .found (processNext su e).1
  | .run closes => .run (run su closes e).observed (run su closes e).result
  | .inject event => .done (e.inject event).1
  | .push event => .done (e.push event).1
  | .closeQueue => .done (.ok ())
  | .reopenQueue => .done (.ok ())
  | .writeContext _ => .done (.ok ())

/-- What an action gives back, and the engine after it. -/
def respond (su : Setup κ σ) (e : Engine κ σ) (a : Action κ) : Answer × Engine κ σ :=
  (answer su e a, (perform su e a).2)

/-- What the actions of a session give back. -/
def sessionAnswers (su : Setup κ σ) (e : Engine κ σ) : List (Action κ) → List Answer
  | [] => []
  | a :: rest => answer su e a :: sessionAnswers su (perform su e a).2 rest

namespace Coupling

variable (hS : Coupling su exposed S) (h : Coupled S p e x) {a : Action κ}
include hS

/-- A start of stopped engines gives the same. -/
theorem respond_start (hv : su.model.Validated) (hp : e.phase = .stopped) (hp' : x.phase = .stopped)
    (hreset : Coupled S p { e.reset with configuration := x.configuration } x.reset) :
    SameAnswer (Coupled S p) (Engine.respond su e .start)
      (Engine.respond (su.exposing exposed) x .start) :=
  (hS.start hv hp hp' hreset).map Answer.done

include h

/-- Coupled engines give the same answer to an action, and are coupled after it. -/
theorem respond (hv : su.model.Validated) (ha : a.Keeps S) : SameAnswer (Coupled S p)
    (Engine.respond su e a) (Engine.respond (su.exposing exposed) x a) := by
  cases a with
  | start =>
    by_cases hp : x.phase = .stopped
    · exact hS.respond_start hv (h.phase.trans hp) hp (hS.reset h)
    · have hp' : e.phase ≠ .stopped := h.phase ▸ hp
      have hstart : SameAnswer (Coupled S p)
          (Engine.start su e) (Engine.start (su.exposing exposed) x) := by
        rw [Engine.start, Engine.start, if_pos hp, if_pos hp', h.phase]
        exact ⟨rfl, h⟩
      exact hstart.map Answer.done
  | stop => exact (hS.stop h).map Answer.done
  | step => exact (hS.step h).map Answer.step
  | stabilize => exact (hS.stabilizeFrom h 0).map Answer.count
  | processNext => exact (hS.processNext h).map Answer.found
  | run closes =>
    obtain ⟨hobserved, hresult, hengine⟩ := hS.run h closes
    exact ⟨congrArg₂ Answer.run hobserved hresult, hengine⟩
  | inject event => exact (h.inject event).map Answer.done
  | push event => exact (h.push event).map Answer.done
  | closeQueue | reopenQueue =>
    obtain ⟨s, hs, rfl⟩ := h
    exact ⟨rfl, s, hs, rfl⟩
  | writeContext change =>
    obtain ⟨s, hs, rfl⟩ := h
    exact ⟨rfl, _, ha change rfl s x.store hs, rfl⟩

/-! ### Trails -/

theorem stabilizeTrail : List.Forall₂ (Coupled S p)
    (Engine.stabilizeTrail su e) (Engine.stabilizeTrail (su.exposing exposed) x) := by
  fun_induction Engine.stabilizeTrail (su.exposing exposed) x generalizing e with
  | case1 x hp ih =>
    have hstep := (hS.step h).2
    rw [stabilizeTrail_of_stabilizing (h.phase.trans hp)]
    exact .cons hstep (ih hstep)
  | case2 x hp =>
    rw [stabilizeTrail_of_ne (h.phase ▸ hp)]
    exact .nil

theorem settleTrail : List.Forall₂ (Coupled S p)
    (Engine.settleTrail su e) (Engine.settleTrail (su.exposing exposed) x) := by
  unfold Engine.settleTrail
  rw [h.phase]
  split
  · have hstep := (hS.step h).2
    exact .cons hstep (hS.stabilizeTrail hstep)
  · exact hS.stabilizeTrail h

theorem runTrail (closes : List Configuration → Bool) (seen : List Configuration) (shown : Nat) :
    List.Forall₂ (Coupled S p) (Engine.runTrail su closes seen (p.configurations + shown) e)
      (Engine.runTrail (su.exposing exposed) closes seen shown x) := by
  fun_induction Engine.runTrail (su.exposing exposed) closes seen shown x generalizing e with
  | case1 seen shown x s hs ih =>
    obtain ⟨b, r, s', hr, hs', hobserved, -, h₁⟩ := (hS.round h closes seen shown).elim
    rw [hs] at hs'
    cases hs'
    rw [runTrail_of_round_true hr, hobserved, h₁.configurations]
    exact List.rel_append (hS.settleTrail h) (.cons h₁ (ih h₁))
  | case2 seen shown x s hs =>
    obtain ⟨b, r, s', hr, hs', -, -, h₁⟩ := (hS.round h closes seen shown).elim
    rw [hs] at hs'
    cases hs'
    rw [runTrail_of_round_false hr]
    exact List.rel_append (hS.settleTrail h) (.cons h₁ .nil)

omit h in
/-- So do the steps of a start. -/
theorem trail_start (hv : su.model.Validated) (hp : e.phase = .stopped) (hp' : x.phase = .stopped)
    (hreset : Coupled S p { e.reset with configuration := x.configuration } x.reset) :
    List.Forall₂ (Coupled S p) (Engine.trail su e .start)
      (Engine.trail (su.exposing exposed) x .start) := by
  have hentered := (hS.enterInitial hv hreset).2
  rw [Engine.trail, Engine.trail, if_neg (not_not.2 hp), if_neg (not_not.2 hp')]
  exact .cons hentered (hS.stabilizeTrail hentered)

theorem trail (hv : su.model.Validated) (ha : a.Keeps S) : List.Forall₂ (Coupled S p)
    (Engine.trail su e a) (Engine.trail (su.exposing exposed) x a) := by
  have hafter := (hS.respond h hv ha).2
  cases a with
  | start =>
    by_cases hp : x.phase = .stopped
    · exact hS.trail_start hv (h.phase.trans hp) hp (hS.reset h)
    · have hp' : e.phase ≠ .stopped := h.phase ▸ hp
      rw [Engine.trail, Engine.trail, if_pos hp, if_pos hp']
      exact .nil
  | stop =>
    rw [Engine.trail, Engine.trail, h.phase]
    split
    · exact .nil
    · exact List.rel_append (hS.settleTrail h) (.cons hafter .nil)
  | stabilize => exact hS.stabilizeTrail h
  | processNext =>
    have hstep := (hS.step h).2
    rw [Engine.trail, Engine.trail, h.phase]
    split
    · exact .nil
    · exact .cons hstep (hS.settleTrail hstep)
  | run closes =>
    rw [Engine.trail, Engine.trail, h.phase, h.configurations]
    split
    · exact .nil
    · exact hS.runTrail h closes [] x.stats.configurations
  | step | inject | push | closeQueue | reopenQueue | writeContext => exact .cons hafter .nil

end Coupling

/-! ### Sessions -/

/-- Some actions get the same answers from two engines, and after each step these are coupled. -/
structure InStep (su : Setup κ σ) (exposed : Bool) (S : Store κ σ → Store κ σ → Prop) (p : Stats)
    (e x : Engine κ σ) (actions : List (Action κ)) : Prop where
  answers : sessionAnswers su e actions = sessionAnswers (su.exposing exposed) x actions
  trail : List.Forall₂ (Coupled S p) (sessionTrail su e actions)
    (sessionTrail (su.exposing exposed) x actions)
  last : Coupled S p (performAll su e actions) (performAll (su.exposing exposed) x actions)

theorem InStep.cons {a : Action κ} {actions : List (Action κ)}
    (ha : SameAnswer (Coupled S p) (respond su e a) (respond (su.exposing exposed) x a))
    (htrail : List.Forall₂ (Coupled S p) (Engine.trail su e a)
      (Engine.trail (su.exposing exposed) x a))
    (h : InStep su exposed S p (perform su e a).2 (perform (su.exposing exposed) x a).2 actions) :
    InStep su exposed S p e x (a :: actions) where
  answers := congrArg₂ List.cons ha.1 h.answers
  trail := List.rel_append htrail h.trail
  last := h.last

namespace Coupling

variable {actions : List (Action κ)} (hS : Coupling su exposed S) (hv : su.model.Validated)
  (hactions : ∀ a ∈ actions, a.Keeps S)
include hS hv hactions

/-- Coupled engines go through a session in step. -/
theorem inStep (h : Coupled S p e x) : InStep su exposed S p e x actions := by
  induction actions generalizing e x with
  | nil => exact ⟨rfl, .nil, h⟩
  | cons a actions ih =>
    obtain ⟨ha, hrest⟩ := List.forall_mem_cons.1 hactions
    have hafter := hS.respond h hv ha
    exact .cons hafter (hS.trail h hv ha) (ih hrest hafter.2)

/-- So do stopped engines from a start on, if a reset couples them. -/
theorem inStep_start (hp : e.phase = .stopped) (hp' : x.phase = .stopped)
    (hreset : Coupled S p { e.reset with configuration := x.configuration } x.reset) :
    InStep su exposed S p e x (.start :: actions) :=
  have hstart := hS.respond_start hv hp hp' hreset
  .cons hstart (hS.trail_start hv hp hp' hreset) (hS.inStep hv hactions hstart.2)

end Coupling

end Engine

end Statechart
