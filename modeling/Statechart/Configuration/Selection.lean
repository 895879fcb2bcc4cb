import Statechart.Configuration.Move
import Statechart.Evaluator
import Statechart.Event.Basic

/-!
# Selecting transitions

Every active state offers its first transition, in document order, that reacts to the event and whose
guard holds; of the offered ones those remain that no earlier one preempts.  A guard that fails
counts as false and is reported.
-/

namespace Statechart

/-- What a search among guarded transitions gives: its result, what the evaluator remembers after
it, and the errors of the guards that failed. -/
structure Selection (α σ : Type) where
  result : α
  memory : σ
  faults : List Error

/-- Whether a transition reacts to an event, or to the configuration alone if there is none. -/
def Transition.reactsTo (t : Transition) : Option Event → Bool
  | some e => !t.isEventless && t.accepts e.name
  | none => t.isEventless

namespace Configuration

variable {κ σ : Type}

/-- Whether a transition's guard holds. -/
def guardHolds (ev : Evaluator κ σ) (k : κ) (mem : σ) (cond : Option String) : Selection Bool σ :=
  match cond with
  | none => ⟨true, mem, []⟩
  | some text =>
    match ev.condition k text mem with
    | (.ok b, mem) => ⟨b, mem, []⟩
    | (.error e, mem) => ⟨false, mem, [.guard text e]⟩

/-- The first of some transitions that reacts to the event and whose guard holds. -/
def firstEnabled (m : Model) (ev : Evaluator κ σ) (k : κ) (event : Option Event) (mem : σ) :
    List Nat → Selection (Option Nat) σ
  | [] => ⟨none, mem, []⟩
  | t :: rest =>
    match m.transition? t with
    | none => firstEnabled m ev k event mem rest
    | some transition =>
      if transition.reactsTo event then
        let guard := guardHolds ev k mem transition.cond
        if guard.result then ⟨some t, guard.memory, guard.faults⟩
        else
          let later := firstEnabled m ev k event guard.memory rest
          ⟨later.result, later.memory, guard.faults ++ later.faults⟩
      else firstEnabled m ev k event mem rest

/-- The transitions that some states offer, state by state. -/
def offers (m : Model) (ev : Evaluator κ σ) (k : κ) (event : Option Event) (mem : σ) :
    List Nat → Selection (List Nat) σ
  | [] => ⟨[], mem, []⟩
  | s :: rest =>
    let first := firstEnabled m ev k event mem (m.transitionsOf s)
    let later := offers m ev k event first.memory rest
    ⟨first.result.toList ++ later.result, later.memory, first.faults ++ later.faults⟩

/-- The transitions that an event selects, or the configuration alone if there is no event. -/
def select (m : Model) (c : Configuration) (ev : Evaluator κ σ) (k : κ) (event : Option Event)
    (mem : σ) : Selection (List Nat) σ :=
  let offered := offers m ev k event mem c.states.toList
  { offered with result := c.preempt m offered.result }

end Configuration

end Statechart
