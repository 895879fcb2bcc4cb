import Statechart.Configuration.Selection
import Statechart.Content
import Statechart.Event.Queue
import Statechart.Model.Validation

/-!
# Engines

An engine runs a valid model.  `Setup` is what stays the same during a run, `Engine` what changes;
`Engine.microstep` takes the transitions that an event selects, all at once.

* the states that are left run their `onexit` blocks, innermost first; then the transitions run
  their actions, in document order; then the states that are entered run their `onentry` blocks,
  outermost first;
* the new configuration is published if it is legal;
* a final state that is entered raises the completion of its parent, and of the parallel state that
  is completed with it; a final child of the root halts the chart.

Counts and limits have no bound: the model is exact as long as counters of sixty-four bits do not
overflow, that is for limits and runs of fewer than `2 ^ 64` microsteps.
-/

namespace Statechart

/-- Limits and options of an engine. -/
structure Options where
  /-- How many microsteps one stabilization may take. -/
  maxMicrosteps : Nat
  /-- Whether the event of a microstep is the variable `_event` in it. -/
  exposeEvent : Bool
  deriving DecidableEq, Repr

/-- Ten thousand microsteps, and events are exposed. -/
def Options.default : Options := ⟨10000, true⟩

/-- What stays the same while an engine runs. -/
structure Setup (κ σ : Type) where
  model : Model
  options : Options
  evaluator : Evaluator κ σ

/-- What an engine counts over its whole life. -/
structure Stats where
  /-- Microsteps that took at least one transition. -/
  microsteps : Nat
  /-- External events that were processed. -/
  macrosteps : Nat
  /-- Internal events that were consumed. -/
  internalEvents : Nat
  /-- Configurations that were published. -/
  configurations : Nat
  deriving DecidableEq, Repr

/-- The state of an engine. -/
structure Engine (κ σ : Type) where
  phase : Phase
  /-- The configuration that was published last. -/
  configuration : Configuration
  store : Store κ σ
  external : ExternalQueue
  /-- The external event that has been taken off the queue and is not yet processed. -/
  current : Option Event
  stats : Stats
  /-- The microsteps with transitions in the stabilization that is going on. -/
  settling : Nat
  /-- Whether the chart has reached a final child of the root. -/
  halted : Bool

/-- The variable that holds the current event. -/
def eventVariable : String := "_event"

namespace Configuration

/-- Whether a state is completed: a parallel one if all its regions are, another one if one of its
final children is active. -/
def isCompleted (m : Model) (c : Configuration) (i : Nat) : Bool :=
  if m.isParallel i then
    (m.childStates i).all fun r =>
      if _h : i < r ∧ r < m.size then isCompleted m c r else false
  else (m.childStates i).any fun child => decide (child ∈ c.states) && m.isFinal child
termination_by m.size - i
decreasing_by omega

/-- The final states among those entered that are active. -/
def finalsEntered (m : Model) (c : Configuration) (entered : List Nat) : List Nat :=
  entered.filter fun s => m.isFinal s && decide (s ∈ c.states)

/-- The parallel state that the completion of a final state's parent may complete. -/
def completedParallel? (m : Model) (c : Configuration) (parent : Nat) : Option Nat :=
  match m.parent? parent with
  | some g =>
    if m.isParallel g && (m.childStates g).all (c.isCompleted m) then some g else none
  | none => none

/-- Whether one of the states entered is a final child of the root. -/
def reachesEnd (m : Model) (c : Configuration) (entered : List Nat) : Bool :=
  (c.finalsEntered m entered).any fun s => (m.parent? s).any m.isRoot

/-- The states whose completion is raised: the parents of the final states entered, in document order
of these, and then the parallel states that are completed, each once. -/
def completions (m : Model) (c : Configuration) (entered : List Nat) : List Nat :=
  let parents := ((c.finalsEntered m entered).filterMap m.parent?).filter fun p => !m.isRoot p
  parents ++ (NodeSet.ofList (parents.filterMap (c.completedParallel? m))).toList

end Configuration

/-- The event that says that a state is completed. -/
def doneEvent (m : Model) (i : Nat) : Event := .platform ("done.state." ++ m.label i) .null

namespace Engine

variable {κ σ : Type}

/-- A stopped engine over a valid model.  Its queue is closed. -/
def create (su : Setup κ σ) (context : κ) (memory : σ) : Except Error (Engine κ σ) :=
  match su.model.validate with
  | .error e => .error e
  | .ok () =>
    .ok { phase := .stopped
          configuration := .empty
          store := ⟨context, memory, [], #[], #[]⟩
          external := ⟨[], true⟩
          current := none
          stats := ⟨0, 0, 0, 0⟩
          settling := 0
          halted := false }

/-- Stops an engine: whatever waits is dropped. -/
def shutdown (e : Engine κ σ) : Engine κ σ :=
  { e with
    phase := .stopped
    store := { e.store with internal := [] }
    external := e.external.close
    current := none }

/-- Publishes a configuration. -/
def publish (e : Engine κ σ) (c : Configuration) : Engine κ σ :=
  { e with
    configuration := c
    stats := { e.stats with configurations := e.stats.configurations + 1 } }

/-- Raises the completions that follow from the states entered, and notes whether the chart halts. -/
def raiseDone (m : Model) (e : Engine κ σ) (entered : List Nat) : Engine κ σ :=
  let done := (e.configuration.completions m entered).map (doneEvent m)
  { e with
    store := { e.store with internal := e.store.internal ++ done }
    halted := e.halted || e.configuration.reachesEnd m entered }

/-- Makes an event visible to expressions, if the options say so. -/
def expose [Context κ] (su : Setup κ σ) (event : Option Event) (e : Engine κ σ) : Engine κ σ :=
  match event with
  | some event =>
    if su.options.exposeEvent then
      { e with store :=
        { e.store with context := Context.set e.store.context eventVariable event.view } }
    else e
  | none => e

/-- Selects the transitions for an event, or those without events, and reports the guards that
failed. -/
def selectTransitions (su : Setup κ σ) (event : Option Event) (e : Engine κ σ) :
    List Nat × Engine κ σ :=
  let selection :=
    e.configuration.select su.model su.evaluator e.store.context event e.store.memory
  (selection.result,
    { e with store := ({ e.store with memory := selection.memory }).report selection.faults })

/-- Runs the content of transitions with the states around it, and gives the configuration after
them. -/
def runTransitions [Context κ] (su : Setup κ σ) (ts : List Nat) (e : Engine κ σ) :
    Configuration × Store κ σ :=
  let m := su.model
  let c := e.configuration
  let exits := c.exitSet m ts
  let entries := m.entrySet ts
  let left := c.leave exits
  let store := e.store.runExits m su.evaluator (c.leaving exits)
  let store := store.runBlocks m su.evaluator ts
  let store := store.runEntries m su.evaluator (left.entering entries)
  (left.enter entries, store)

/-- Takes the transitions that an event selects, or those without events, and gives their number. -/
def microstep [Context κ] (su : Setup κ σ) (event : Option Event) (e : Engine κ σ) :
    Except Error Nat × Engine κ σ :=
  match selectTransitions su event (expose su event e) with
  | ([], e) => (.ok 0, e)
  | (ts, e) =>
    let (next, store) := runTransitions su ts e
    let e := { e with store := store }
    match next.validate su.model with
    | .error err => (.error err, e)
    | .ok () =>
      let e := { e with stats := { e.stats with microsteps := e.stats.microsteps + 1 } }
      let e := (e.publish next).raiseDone su.model (su.model.entrySet ts).toList
      (.ok ts.length, e)

/-- A microstep that stops the engine if it fails. -/
def guardedMicrostep [Context κ] (su : Setup κ σ) (event : Option Event) (e : Engine κ σ) :
    Except Error Nat × Engine κ σ :=
  match microstep su event e with
  | (.ok n, e) => (.ok n, e)
  | (.error err, e) => (.error err, e.shutdown)

end Engine

end Statechart
