import Statechart.Proofs.Engine.Coherence

/-!
# Internal events are delivered in order

Executable content and completions append internal events; a stabilization consumes them.  What a
session has consumed is at any time the beginning of what it has appended, and nothing is lost,
doubled or overtaken until the engine stops.

* `Store.runAction_cases`: what an action can do;
* `Store.raisedBy`, `Engine.raised`: the events that blocks, and a microstep with its completions,
  append; `Store.internal_runBlocks`, `internal_acted`: they are put behind those that wait;
* `Engine.appendedBy`, `Engine.consumedBy`: what a move appends, and what it consumes;
* `Engine.Flow`: a move takes from the front of the queue what it consumes, and puts behind the rest
  what it appends (`flow_move`);
* `Ledger`, `Engine.Delivered`: what has been appended and consumed since the last start, and how
  the two are related.  Every move keeps this (`Delivered.move`);
* `Engine.delivered_in_order`: so it holds after whatever moves a host makes.
-/

namespace Statechart

/-- The internal events that have been appended since the last start, and those consumed. -/
structure Ledger where
  appended : List Event
  consumed : List Event

/-! ### What content appends -/

namespace Store

variable {κ σ : Type} [Context κ] {m : Model} {ev : Evaluator κ σ}

/-- The event that an action appends. -/
def raisedByAction : Kind → List Event
  | .raise event => [.internal event]
  | _ => []

/-- The events that some actions append, up to the first action that fails. -/
def raisedByActions (ev : Evaluator κ σ) (s : Store κ σ) : List Kind → List Event
  | [] => []
  | action :: rest =>
    raisedByAction action ++ match s.runAction ev action with
      | (none, s) => raisedByActions ev s rest
      | (some _, _) => []

/-- The events that a block appends: those of its actions, and one for its failure. -/
def raisedByBlock (m : Model) (ev : Evaluator κ σ) (s : Store κ σ) (block : Nat) : List Event :=
  let actions := (m.children block).filterMap m.kind?
  s.raisedByActions ev actions ++ ((s.runActions ev actions).1.map failureEvent).toList

/-- The events that blocks append, one block after the other. -/
def raisedBy (m : Model) (ev : Evaluator κ σ) (s : Store κ σ) : List Nat → List Event
  | [] => []
  | block :: rest => s.raisedByBlock m ev block ++ raisedBy m ev (s.runBlock m ev block) rest

omit [Context κ] in
theorem evaluate_cases (ev : Evaluator κ σ) (s : Store κ σ) (text : String) :
    ∃ r memory, s.evaluate ev text = (r, { s with memory := memory }) := by
  unfold evaluate
  split
  · exact ⟨_, _, rfl⟩
  · exact ⟨_, _, rfl⟩

/-- An action fails, and then raises nothing and changes at most what the evaluator remembers, or it
succeeds, reports nothing and raises its event, if it is one that does. -/
theorem runAction_cases (ev : Evaluator κ σ) (s : Store κ σ) (action : Kind) :
    (∃ e memory, raisedByAction action = [] ∧
      s.runAction ev action = (some e, { s with memory := memory })) ∨
    ∃ k memory logs, s.runAction ev action =
      (none, ⟨k, memory, s.internal ++ raisedByAction action, s.reports, logs⟩) := by
  have hnone : s.internal ++ [] = s.internal := List.append_nil _
  cases action with
  | log label expr? =>
    cases expr? with
    | none =>
      simp only [runAction, raisedByAction, hnone]
      exact .inr ⟨_, _, _, rfl⟩
    | some expr =>
      obtain ⟨r, memory, heval⟩ := evaluate_cases ev s expr
      simp only [runAction, heval, raisedByAction, hnone]
      cases r with
      | error e => exact .inl ⟨e, memory, trivial, rfl⟩
      | ok v => exact .inr ⟨_, _, _, rfl⟩
  | raise event => exact .inr ⟨_, _, _, rfl⟩
  | assign location expr =>
    obtain ⟨r, memory, heval⟩ := evaluate_cases ev s expr
    simp only [runAction, heval, raisedByAction, hnone]
    cases r with
    | error e => exact .inl ⟨e, memory, trivial, rfl⟩
    | ok v =>
      dsimp only
      cases assign s.context location v with
      | error e => exact .inl ⟨_, memory, trivial, rfl⟩
      | ok k => exact .inr ⟨_, _, _, rfl⟩
  | _ =>
    simp only [runAction, raisedByAction, hnone]
    exact .inr ⟨_, _, _, rfl⟩

theorem internal_runAction (ev : Evaluator κ σ) (s : Store κ σ) (action : Kind) :
    (s.runAction ev action).2.internal = s.internal ++ raisedByAction action := by
  rcases runAction_cases ev s action with ⟨e, memory, hnone, hfailed⟩ | ⟨k, memory, logs, hdone⟩
  · rw [hfailed, hnone, List.append_nil]
  · rw [hdone]

theorem internal_runActions (ev : Evaluator κ σ) (s : Store κ σ) (actions : List Kind) :
    (s.runActions ev actions).2.internal = s.internal ++ s.raisedByActions ev actions := by
  induction actions generalizing s with
  | nil => simp [runActions, raisedByActions]
  | cons action rest ih =>
    have h := internal_runAction ev s action
    rw [runActions, raisedByActions, ← List.append_assoc, ← h]
    split
    · next s' hs =>
      rw [hs, ih]
    · next s' hs =>
      rw [hs, List.append_nil]

theorem internal_runBlock (s : Store κ σ) (block : Nat) :
    (s.runBlock m ev block).internal = s.internal ++ s.raisedByBlock m ev block := by
  have h := internal_runActions ev s ((m.children block).filterMap m.kind?)
  rw [runBlock, raisedByBlock, ← List.append_assoc, ← h]
  split
  · next hs => simp [hs]
  · next hs => simp [hs, raise, report]

/-- Blocks put the events that they append behind those that wait. -/
theorem internal_runBlocks (s : Store κ σ) (blocks : List Nat) :
    (s.runBlocks m ev blocks).internal = s.internal ++ s.raisedBy m ev blocks := by
  induction blocks generalizing s with
  | nil => simp [runBlocks, raisedBy]
  | cons block rest ih =>
    rw [raisedBy, ← List.append_assoc, ← internal_runBlock]
    exact ih _

end Store

namespace Engine

variable {κ σ : Type} [Context κ] {su : Setup κ σ} {event : Option Event} {e y : Engine κ σ}

/-! ### What a microstep and a start append -/

/-- The blocks that run when some transitions are taken: those of the states that are left, the
transitions themselves, and those of the states that are entered. -/
def blocks (m : Model) (c : Configuration) (ts : List Nat) : List Nat :=
  let exits := c.exitSet m ts
  (c.leaving exits).flatMap m.exitBlocks ++ ts ++
    ((c.leave exits).entering (m.entrySet ts)).flatMap m.entryBlocks

/-- The events that some transitions append when they are taken: those of the content that runs, and
then the completions. -/
def raised (su : Setup κ σ) (ts : List Nat) (e : Engine κ σ) : List Event :=
  let m := su.model
  e.store.raisedBy m su.evaluator (blocks m e.configuration ts) ++
    ((e.configuration.take m ts).completions m (m.entrySet ts).toList).map (doneEvent m)

/-- The events that a start appends. -/
def raisedByStart (su : Setup κ σ) (e : Engine κ σ) : List Event :=
  let m := su.model
  let c : Configuration := ⟨m.initialDescendants 0⟩
  e.store.raisedBy m su.evaluator (c.states.toList.flatMap m.entryBlocks) ++
    (c.completions m c.states.toList).map (doneEvent m)

/-- Taking transitions runs these blocks. -/
theorem store_runTransitions (su : Setup κ σ) (ts : List Nat) (e : Engine κ σ) :
    (runTransitions su ts e).2 =
      e.store.runBlocks su.model su.evaluator (blocks su.model e.configuration ts) := by
  simp only [Store.runBlocks, blocks, List.foldl_append]
  rfl

theorem internal_advance_eq (su : Setup κ σ) (ts : List Nat) (e : Engine κ σ) :
    (advance su ts e).store.internal = e.store.internal ++ raised su ts e := by
  rw [internal_advance, store_runTransitions, Store.internal_runBlocks, raised, List.append_assoc]

theorem internal_entered (su : Setup κ σ) (e : Engine κ σ) :
    (entered su e).store.internal = e.store.internal ++ raisedByStart su e := by
  rw [raisedByStart, ← List.append_assoc, ← Store.internal_runBlocks]
  rfl

theorem internal_acted (su : Setup κ σ) (event : Option Event) (e : Engine κ σ) :
    (acted su event e).store.internal =
      e.store.internal ++ raised su (selected su event e) (prepared su event e) := by
  rw [acted, internal_advance_eq, internal_prepared]

theorem raised_nil (su : Setup κ σ) (e : Engine κ σ) : raised su [] e = [] := rfl

/-! ### What a move appends and consumes -/

/-- The event for which the next step takes a microstep, and the engine as it takes it. -/
def turn? (su : Setup κ σ) (e : Engine κ σ) : Option (Option Event × Engine κ σ) :=
  match e.phase with
  | .stabilizing =>
    if selected su none e = [] then
      match e.store.internal with
      | [] => none
      | event :: rest => some (some event, consumed rest (prepared su none e))
    else some (none, e)
  | .processing => e.current.map fun event => (some event, e.takenUp)
  | _ => none

/-- The events that a move appends: those of a start, or of the transitions that a step takes. -/
def appendedBy (su : Setup κ σ) (e : Engine κ σ) : Move κ → List Event
  | .enter => if e.phase = .stopped then raisedByStart su e.reset else []
  | .step =>
    match turn? su e with
    | some (event, y) => raised su (selected su event y) (prepared su event y)
    | none => []
  | _ => []

/-- The events that a move consumes: as many of those that wait, oldest first, as the engine then
counts more than before. -/
def consumedBy (su : Setup κ σ) (e : Engine κ σ) (v : Move κ) : List Event :=
  e.store.internal.take ((move su e v).stats.internalEvents - e.stats.internalEvents)

/-- A step of a stabilization for an event, or without one. -/
def stabilizeFor (su : Setup κ σ) (event : Option Event) (e : Engine κ σ) :
    Except Error Outcome × Engine κ σ :=
  match guardedMicrostep su event e with
  | (.error err, e) => (.error err, e)
  | (.ok n, e) => afterMicrostep su (event.map (·.name)) n e

/-- What a move may consume: nothing, or it is a step for the oldest event that waits, when no
transition without an event is selected. -/
inductive Takes (su : Setup κ σ) (e : Engine κ σ) : Move κ → List Event → Prop
  | nothing {v : Move κ} : Takes su e v []
  | oldest {event : Event} {rest : List Event} (hp : e.phase = .stabilizing)
      (hs : selected su none e = []) (hq : e.store.internal = event :: rest)
      (hstep : step su e = stabilizeFor su (some event) (consumed rest (prepared su none e))) :
      Takes su e .step [event]

/-- A move takes some events, which it counts, from the front of the queue, and puts what it appends
behind the others, unless the engine stops. -/
structure Flow (su : Setup κ σ) (e : Engine κ σ) (v : Move κ) (l k : List Event) : Prop where
  internal : e.store.internal = l ++ k
  takes : Takes su e v l
  counts : (move su e v).stats.internalEvents = e.stats.internalEvents + l.length
  appends : (move su e v).phase ≠ .stopped →
    (move su e v).store.internal = k ++ appendedBy su e v

theorem Flow.consumedBy_eq {v : Move κ} {l k : List Event} (h : Flow su e v l k) :
    consumedBy su e v = l := by
  rw [consumedBy, h.counts, Nat.add_sub_cancel_left, h.internal, List.take_left]

/-! ### Steps -/

theorem turn?_of_turns (ht : Turns su e event y) : turn? su e = some (event, y) := by
  unfold turn?
  cases ht with
  | eventless hp hs => simp [hp, hs]
  | internal hp hs hq => simp [hp, hs, hq]
  | external hp hc => simp [hp, hc]

theorem appendedBy_of_turns (ht : Turns su e event y) :
    appendedBy su e .step = raised su (selected su event y) (prepared su event y) := by
  simp only [appendedBy, turn?_of_turns ht]

theorem appendedBy_of_none (h : turn? su e = none) : appendedBy su e .step = [] := by
  simp only [appendedBy, h]

/-- If nothing is selected without an event, a step is for the oldest event that waits. -/
theorem step_of_oldest {ev : Event} {rest : List Event} (hp : e.phase = .stabilizing)
    (hs : selected su none e = []) (hq : e.store.internal = ev :: rest) :
    step su e = stabilizeFor su (some ev) (consumed rest (prepared su none e)) := by
  have hmicro : guardedMicrostep su none e = (.ok 0, prepared su none e) := by
    rw [guardedMicrostep, microstep_eq, if_pos hs]
  have hq' : (prepared su none e).store.internal = ev :: rest := internal_prepared.trans hq
  simp only [step, hp, stabilizeOnce, hmicro, consume, hq', stabilizeFor, consumed]
  rfl

/-- What an engine turns to has been taken from the front of its queue. -/
theorem Turns.takes (ht : Turns su e event y) : ∃ l, e.store.internal = l ++ y.store.internal ∧
    Takes su e .step l ∧ y.stats.internalEvents = e.stats.internalEvents + l.length := by
  cases ht with
  | eventless => exact ⟨[], rfl, .nothing, rfl⟩
  | @internal ev rest hp hs hq =>
    have hstats : (prepared su none e).stats = e.stats := stats_prepared
    exact ⟨[ev], hq, .oldest hp hs hq (step_of_oldest hp hs hq),
      congrArg (·.internalEvents + 1) hstats⟩
  | external => exact ⟨[], rfl, .nothing, rfl⟩

omit [Context κ] in
theorem internalEvents_shutdown (e : Engine κ σ) :
    e.shutdown.stats.internalEvents = e.stats.internalEvents := rfl

theorem internalEvents_prepared :
    (prepared su event e).stats.internalEvents = e.stats.internalEvents := by rw [stats_prepared]

theorem internalEvents_advance {ts : List Nat} :
    (advance su ts e).stats.internalEvents = e.stats.internalEvents := rfl

theorem internalEvents_acted :
    (acted su event e).stats.internalEvents = e.stats.internalEvents := by
  rw [acted, internalEvents_advance, internalEvents_prepared]

/-- A step that turns to an event appends what its transitions raise. -/
theorem flow_of_turns (ht : Turns su e event y)
    (hcount : (step su e).2.stats.internalEvents = y.stats.internalEvents)
    (hstep : (step su e).2.phase ≠ .stopped → (step su e).2.store.internal =
      y.store.internal ++ raised su (selected su event y) (prepared su event y)) :
    ∃ l k, Flow su e .step l k := by
  obtain ⟨l, hl, htakes, hcounts⟩ := ht.takes
  exact ⟨l, y.store.internal, hl, htakes, hcount.trans hcounts, fun hp => by
    rw [appendedBy_of_turns ht]
    exact hstep hp⟩

theorem flow_of_none (h : turn? su e = none)
    (hcount : (step su e).2.stats.internalEvents = e.stats.internalEvents)
    (hstep : (step su e).2.phase ≠ .stopped → (step su e).2.store.internal = e.store.internal) :
    ∃ l k, Flow su e .step l k :=
  ⟨[], e.store.internal, rfl, .nothing, hcount, fun hp => by
    rw [appendedBy_of_none h, List.append_nil]
    exact hstep hp⟩

theorem flow_step (hv : su.model.Validated) (h : Truthful su e) (hp : e.phase ≠ .stopped) :
    ∃ l k, Flow su e .step l k := by
  have hs := steps_of_truthful hv h hp
  have hflow := fun {event y} (ht : Turns su e event y) => flow_of_turns ht
  have hnone := fun (h : turn? su e = none) => flow_of_none h
  have hcount : ∀ event (y : Engine κ σ),
      (acted su event y).stats.internalEvents = y.stats.internalEvents :=
    fun _ _ => internalEvents_acted
  generalize step su e = r at hs hflow hnone
  cases hs with
  | close hp => exact hnone (by simp [turn?, hp]) rfl fun hp' => absurd rfl hp'
  | dequeue hp => exact hnone (by simp [turn?, hp]) rfl fun _ => rfl
  | idle hp => exact hnone (by simp [turn?, hp]) rfl fun _ => rfl
  | lose hp hc => exact hnone (by simp [turn?, hp, hc]) rfl fun _ => rfl
  | settle hp hs hq =>
    exact hnone (by simp [turn?, hp, hs, hq]) internalEvents_prepared fun _ => internal_prepared
  | ignore hp hc hs =>
    refine hflow (.external hp hc) internalEvents_prepared fun _ => ?_
    rw [hs, raised_nil, List.append_nil]
    exact internal_prepared
  | @respond event hp hc =>
    have hacted := internal_acted su (some event) e.takenUp
    exact hflow (.external hp hc) (hcount (some event) e.takenUp) fun _ => hacted
  | skip _ ht hs =>
    refine hflow ht internalEvents_prepared fun _ => ?_
    rw [hs, raised_nil, List.append_nil]
    exact internal_prepared
  | @count event y _ ht =>
    have hacted := internal_acted su event y
    exact hflow ht (hcount event y) fun _ => hacted
  | @limit event y _ ht =>
    exact hflow ht ((internalEvents_shutdown _).trans (hcount event y)) fun hp' =>
      absurd (phase_shutdown _) hp'
  | @halt event y ht =>
    exact hflow ht ((internalEvents_shutdown _).trans (hcount event y)) fun hp' =>
      absurd (phase_shutdown _) hp'

/-! ### Moves -/

/-- A move of a running engine takes from the front of the queue what it consumes, and puts behind
the rest what it appends. -/
theorem flow_move (hv : su.model.Validated) (h : Truthful su e) (hp : e.phase ≠ .stopped)
    (v : Move κ) : ∃ l k, Flow su e v l k := by
  have quiet : ∀ {v : Move κ}, (move su e v).stats = e.stats → appendedBy su e v = [] →
      ((move su e v).phase ≠ .stopped → (move su e v).store.internal = e.store.internal) →
      ∃ l k, Flow su e v l k := fun hstats happ hsame =>
    ⟨[], e.store.internal, rfl, .nothing, congrArg (·.internalEvents) hstats, fun hp' => by
      rw [happ, List.append_nil]
      exact hsame hp'⟩
  cases v with
  | enter =>
    have hmove : move su e .enter = e := if_neg hp
    exact quiet (by rw [hmove]) (if_neg hp) fun _ => by rw [hmove]
  | step => exact flow_step hv h hp
  | shutdown =>
    by_cases hw : e.phase = .waiting
    · have hmove : move su e .shutdown = e.shutdown := move_shutdown_waiting hw
      exact quiet (by rw [hmove]; rfl) rfl fun hp' => absurd (by rw [hmove]; rfl) hp'
    · have hmove : move su e .shutdown = e := if_neg hw
      exact quiet (by rw [hmove]) rfl fun _ => by rw [hmove]
  | push ev =>
    have hpush : (e.push ev).2.stats = e.stats ∧ (e.push ev).2.store = e.store := by
      unfold push
      split <;> exact ⟨rfl, rfl⟩
    exact quiet hpush.1 rfl fun _ => congrArg (·.internal) hpush.2
  | closeQueue => exact quiet rfl rfl fun _ => rfl
  | reopenQueue => exact quiet rfl rfl fun _ => rfl
  | writeContext change => exact quiet rfl rfl fun _ => rfl

/-- A start appends to an empty queue, and consumes nothing. -/
theorem flow_enter (hv : su.model.Validated) (hp : e.phase = .stopped) :
    (move su e .enter).stats.internalEvents = e.stats.internalEvents ∧
      ((move su e .enter).phase ≠ .stopped →
        (move su e .enter).store.internal = appendedBy su e .enter) := by
  have hmove : move su e .enter = if (entered su e.reset).halted then (entered su e.reset).shutdown
      else { entered su e.reset with phase := .stabilizing } := by
    rw [move, if_pos hp, enterInitial_eq hv]
  have happ : appendedBy su e .enter = raisedByStart su e.reset := if_pos hp
  rw [hmove, happ]
  split
  · exact ⟨rfl, fun hp' => absurd rfl hp'⟩
  · exact ⟨rfl, fun _ => internal_entered su e.reset⟩

/-- A stopped engine stays stopped unless it is started, and nothing happens to its queue. -/
theorem move_of_stopped (su : Setup κ σ) (hp : e.phase = .stopped) {v : Move κ} (hne : v ≠ .enter) :
    (move su e v).phase = .stopped ∧ (move su e v).stats = e.stats ∧ appendedBy su e v = [] := by
  cases v with
  | enter => exact absurd rfl hne
  | step =>
    have hmove : move su e .step = e := move_step_stopped hp
    rw [hmove]
    exact ⟨hp, rfl, appendedBy_of_none (by simp [turn?, hp])⟩
  | shutdown =>
    have hmove : move su e .shutdown = e := if_neg (by simp [hp])
    rw [hmove]
    exact ⟨hp, rfl, rfl⟩
  | push ev =>
    simp only [move, push]
    split <;> exact ⟨hp, rfl, rfl⟩
  | closeQueue | reopenQueue | writeContext => exact ⟨hp, rfl, rfl⟩

/-! ### The ledger of a session -/

/-- The ledger in which a move is entered.  A start opens a new one. -/
def opened (e : Engine κ σ) (b : Ledger) : Move κ → Ledger
  | .enter => if e.phase = .stopped then ⟨[], []⟩ else b
  | _ => b

/-- The ledger after a move. -/
def account (su : Setup κ σ) (e : Engine κ σ) (b : Ledger) (v : Move κ) : Ledger where
  appended := (opened e b v).appended ++ appendedBy su e v
  consumed := (opened e b v).consumed ++ consumedBy su e v

omit [Context κ] in
theorem opened_of_running {b : Ledger} (hp : e.phase ≠ .stopped) (v : Move κ) :
    opened e b v = b := by
  cases v with
  | enter => exact if_neg hp
  | _ => rfl

omit [Context κ] in
theorem opened_of_ne {b : Ledger} {v : Move κ} (hne : v ≠ .enter) : opened e b v = b := by
  cases v with
  | enter => exact absurd rfl hne
  | _ => rfl

/-- The ledger after some moves. -/
def accountAll (su : Setup κ σ) (e : Engine κ σ) (b : Ledger) : List (Move κ) → Ledger
  | [] => b
  | v :: vs => accountAll su (move su e v) (account su e b v) vs

/-- What has been consumed comes first in what has been appended.  While the engine runs, the rest
is what waits, and nothing waits while the engine does. -/
structure Delivered (su : Setup κ σ) (e : Engine κ σ) (b : Ledger) : Prop where
  truthful : Truthful su e
  consumed : b.consumed <+: b.appended
  waits : e.phase ≠ .stopped → b.appended = b.consumed ++ e.store.internal
  quiet : e.phase = .waiting ∨ e.phase = .processing → e.store.internal = []

theorem consumedBy_eq_nil {v : Move κ}
    (h : (move su e v).stats.internalEvents = e.stats.internalEvents) : consumedBy su e v = [] := by
  rw [consumedBy, h, Nat.sub_self, List.take_zero]

namespace Delivered

variable {b : Ledger}

/-- Nothing waits while the engine does, whatever happens. -/
theorem quiet_of_steps (h : Delivered su e b) {r : Except Error Outcome × Engine κ σ}
    (hs : Steps su e r) (hp : r.2.phase = .waiting ∨ r.2.phase = .processing) :
    r.2.store.internal = [] := by
  cases hs with
  | close | limit | halt => simp at hp
  | dequeue hw => exact h.quiet (.inl hw)
  | idle hw => exact h.quiet (.inl hw)
  | lose hw => exact h.quiet (.inr hw)
  | ignore hw => exact internal_prepared.trans (h.quiet (.inr hw))
  | respond => simp at hp
  | settle _ _ hq => exact internal_prepared.trans hq
  | @skip event y hw ht =>
    have hphase : (prepared su (some event) y).phase = .stabilizing :=
      phase_prepared.trans (ht.phase.trans hw)
    rcases hp with hp | hp <;> cases hphase.symm.trans hp
  | @count event y hw ht =>
    have hphase : (acted su event y).phase = .stabilizing := phase_acted.trans (ht.phase.trans hw)
    rcases hp with hp | hp <;> cases hphase.symm.trans hp

theorem quiet_move (hv : su.model.Validated) (h : Delivered su e b) (v : Move κ)
    (hp : (move su e v).phase = .waiting ∨ (move su e v).phase = .processing) :
    (move su e v).store.internal = [] := by
  by_cases hs : e.phase = .stopped
  · by_cases hne : v = .enter
    · subst hne
      rw [move, if_pos hs, enterInitial_eq hv] at hp
      dsimp only at hp
      split at hp <;> simp at hp
    · rw [(move_of_stopped su hs hne).1] at hp
      simp at hp
  · cases v with
    | enter =>
      rw [move, if_neg hs] at hp ⊢
      exact h.quiet hp
    | step => exact h.quiet_of_steps (steps_of_truthful hv h.truthful hs) hp
    | shutdown =>
      rw [move] at hp ⊢
      split at hp
      · simp at hp
      · next hw =>
        rw [if_neg hw]
        exact h.quiet hp
    | push ev =>
      simp only [move, push] at hp ⊢
      split at hp <;> exact h.quiet hp
    | closeQueue | reopenQueue | writeContext => exact h.quiet hp

/-- What a move consumes comes next in what has been appended before it. -/
theorem consumed_append (hv : su.model.Validated) (h : Delivered su e b) (v : Move κ) :
    (opened e b v).consumed ++ consumedBy su e v <+: (opened e b v).appended := by
  by_cases hp : e.phase = .stopped
  · by_cases hne : v = .enter
    · subst hne
      rw [consumedBy_eq_nil (flow_enter hv hp).1, opened, if_pos hp]
      exact List.prefix_refl _
    · obtain ⟨-, hstats, -⟩ := move_of_stopped su hp hne
      rw [consumedBy_eq_nil (congrArg (·.internalEvents) hstats), opened_of_ne hne,
        List.append_nil]
      exact h.consumed
  · rw [opened_of_running hp, h.waits hp, List.prefix_append_right_inj]
    exact List.take_prefix _ _

theorem move (hv : su.model.Validated) (h : Delivered su e b) (v : Move κ) :
    Delivered su (move su e v) (account su e b v) where
  truthful := h.truthful.move hv v
  quiet := h.quiet_move hv v
  consumed := (h.consumed_append hv v).trans (List.prefix_append _ _)
  waits hp' := by
    by_cases hp : e.phase = .stopped
    · by_cases hne : v = .enter
      · subst hne
        obtain ⟨hcount, hqueue⟩ := flow_enter hv hp
        rw [account, consumedBy_eq_nil hcount, opened, if_pos hp, hqueue hp']
        rfl
      · exact absurd (move_of_stopped su hp hne).1 hp'
    · obtain ⟨l, k, hflow⟩ := flow_move hv h.truthful hp v
      rw [account, hflow.consumedBy_eq, hflow.appends hp', opened_of_running hp, h.waits hp,
        hflow.internal]
      simp only [List.append_assoc]

theorem moveAll (hv : su.model.Validated) (h : Delivered su e b) (vs : List (Move κ)) :
    Delivered su (moveAll su e vs) (accountAll su e b vs) := by
  induction vs generalizing e b with
  | nil => exact h
  | cons v vs ih => exact ih (h.move hv v)

end Delivered

/-- What a move consumes is counted, and is nothing or the oldest event that waits. -/
theorem takes_consumedBy (hv : su.model.Validated) (h : Truthful su e) (v : Move κ) :
    Takes su e v (consumedBy su e v) ∧ (move su e v).stats.internalEvents =
      e.stats.internalEvents + (consumedBy su e v).length := by
  by_cases hp : e.phase = .stopped
  · have hsame : (move su e v).stats.internalEvents = e.stats.internalEvents := by
      by_cases hne : v = .enter
      · exact hne ▸ (flow_enter hv hp).1
      · exact congrArg (·.internalEvents) (move_of_stopped su hp hne).2.1
    rw [consumedBy_eq_nil hsame, hsame]
    exact ⟨.nothing, rfl⟩
  · obtain ⟨l, k, hflow⟩ := flow_move hv h hp v
    rw [hflow.consumedBy_eq]
    exact ⟨hflow.takes, hflow.counts⟩

/-- Internal events are delivered in the order in which they have been appended. -/
structure InOrder (su : Setup κ σ) (e : Engine κ σ) (b : Ledger) : Prop where
  /-- What has been consumed comes first in what has been appended. -/
  consumed : b.consumed <+: b.appended
  /-- While the engine runs, the rest is what waits. -/
  waits : e.phase ≠ .stopped → b.appended = b.consumed ++ e.store.internal
  /-- When the engine waits, all of it has been consumed. -/
  waiting : e.phase = .waiting → b.consumed = b.appended
  /-- What the next move consumes has been appended before it, and comes next. -/
  next (v : Move κ) : (opened e b v).consumed ++ consumedBy su e v <+: (opened e b v).appended
  /-- The engine counts it. -/
  counts (v : Move κ) : (move su e v).stats.internalEvents =
    e.stats.internalEvents + (consumedBy su e v).length
  /-- It is nothing, or the event for which the engine takes its next microstep, when no transition
  without an event is selected. -/
  takes (v : Move κ) : Takes su e v (consumedBy su e v)

theorem Delivered.inOrder {b : Ledger} (hv : su.model.Validated) (h : Delivered su e b) :
    InOrder su e b where
  consumed := h.consumed
  waits := h.waits
  waiting hp := by rw [h.waits (by simp [hp]), h.quiet (.inl hp), List.append_nil]
  next := h.consumed_append hv
  counts v := (takes_consumedBy hv h.truthful v).2
  takes v := (takes_consumedBy hv h.truthful v).1

/-- Every action of a host consists of moves, and whatever moves it makes with a new engine,
internal events are delivered in order. -/
theorem delivered_in_order (hv : su.model.Validated) (context : κ) (memory : σ) :
    ∃ e, create su context memory = .ok e ∧
      (∀ actions, ∃ vs, sessionTrail su e actions = course su e vs ∧
        performAll su e actions = moveAll su e vs) ∧
      ∀ vs, InOrder su (moveAll su e vs) (accountAll su e ⟨[], []⟩ vs) := by
  refine ⟨fresh context memory, create_eq hv context memory, fun actions => ?_, fun vs => ?_⟩
  · obtain ⟨vs, -, htrail, hlast⟩ := exists_course_session su (fresh context memory) actions
    exact ⟨vs, htrail, hlast⟩
  · have hnew : Delivered su (fresh context memory) ⟨[], []⟩ :=
      ⟨truthful_fresh context memory, List.prefix_refl _, fun hp => absurd rfl hp,
        fun hp => by simp [fresh] at hp⟩
    exact (hnew.moveAll hv vs).inOrder hv

end Engine

/-! ### A chart that raises events -/

namespace Model

/-- The state `a` raises `one` and `two` when it is entered; on `one` it gives way to the final
state `f`, which completes `s`. -/
def raising : Model where
  nodes := #[
    ⟨none, .scxml none, none, [1]⟩,
    ⟨some "s", .state none, some 0, [2, 7]⟩,
    ⟨some "a", .state none, some 1, [3, 6]⟩,
    ⟨none, .onEntry, some 2, [4, 5]⟩,
    ⟨none, .raise "one", some 3, []⟩,
    ⟨none, .raise "two", some 3, []⟩,
    ⟨none, .transition ⟨[⟨"one"⟩], none, ["f"], .external⟩, some 2, []⟩,
    ⟨some "f", .final, some 1, []⟩]
  root? := some 0
  index := [("s", 1), ("a", 2), ("f", 7)]
  transitions := [6]

theorem addAll?_raising :
    empty.addAll? (raising.nodes.toList.map fun n => (⟨n.id, n.kind⟩, n.parent)) =
      some raising := by
  decide +kernel

theorem validated_raising : raising.Validated where
  built := Built.empty.addAll? addAll?_raising
  valid := by decide +kernel

end Model

namespace Engine

/-- An engine over a chart that raises events. -/
def raisingSetup : Setup Scope Cache := ⟨Model.raising, .default, .standard Scope⟩

theorem validated_raisingSetup : raisingSetup.model.Validated := Model.validated_raising

/-- A start, one step for each event, and one that finds nothing. -/
def raisingMoves : List (Move Scope) := [.enter, .step, .step, .step, .step]

theorem delivered_in_order_raising :
    (accountAll raisingSetup blank ⟨[], []⟩ (raisingMoves.take 2)).appended.map (·.name) =
        ["one", "two", "done.state.s"] ∧
      (accountAll raisingSetup blank ⟨[], []⟩ (raisingMoves.take 2)).consumed.map (·.name) =
        ["one"] ∧
      (moveAll raisingSetup blank raisingMoves).phase = .waiting ∧
      (accountAll raisingSetup blank ⟨[], []⟩ raisingMoves).consumed =
        (accountAll raisingSetup blank ⟨[], []⟩ raisingMoves).appended := by
  have hwaiting : (moveAll raisingSetup blank raisingMoves).phase = .waiting := by decide +kernel
  obtain ⟨e, hcreate, -, h⟩ := delivered_in_order validated_raisingSetup Scope.empty Cache.empty
  rw [create_eq validated_raisingSetup] at hcreate
  cases hcreate
  exact ⟨by decide +kernel, by decide +kernel, hwaiting, (h raisingMoves).waiting hwaiting⟩

end Engine

end Statechart
