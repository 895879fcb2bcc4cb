import Statechart.Configuration.Basic

/-!
# Moving between configurations

* `exitSet` and `entrySet` are the states that transitions leave and enter;
* `leaving` and `entering` put them into the order in which their content runs: a state is left
  before the states above it and entered after them;
* `preempt` drops transitions that conflict with an earlier one.
-/

namespace Statechart.Configuration

/-- The active states below the domain of a transition. -/
def exitsOf (m : Model) (c : Configuration) (t : Nat) : NodeSet :=
  match m.domain? t with
  | some d => c.states.filter fun s => m.isBelow s d
  | none => .empty

/-- The active states that the given transitions leave. -/
def exitSet (m : Model) (c : Configuration) (ts : List Nat) : NodeSet :=
  ts.foldl (fun out t => out.union (c.exitsOf m t)) .empty

end Configuration

namespace Model

/-- The states that a transition enters: what lies between its domain and its targets, and what
these enter by default. -/
def entriesOf (m : Model) (t : Nat) : NodeSet :=
  match m.domain? t with
  | some d => m.enterClosure d (m.resolvedTargets t)
  | none => .empty

/-- The states that the given transitions enter. -/
def entrySet (m : Model) (ts : List Nat) : NodeSet :=
  ts.foldl (fun out t => out.union (m.entriesOf t)) .empty

end Model

namespace Configuration

/-- The states that are left, innermost first. -/
def leaving (c : Configuration) (exits : NodeSet) : List Nat :=
  exits.toList.reverse.filter fun s => decide (s ∈ c.states)

/-- The configuration after some states have been left. -/
def leave (c : Configuration) (exits : NodeSet) : Configuration := ⟨c.states.diff exits⟩

/-- The states that are entered, outermost first. -/
def entering (c : Configuration) (entries : NodeSet) : List Nat :=
  entries.toList.filter fun s => !decide (s ∈ c.states)

/-- The configuration after some states have been entered. -/
def enter (c : Configuration) (entries : NodeSet) : Configuration := ⟨c.states.union entries⟩

/-- Whether two transitions conflict: they leave a common state, or one leaves the source of the
other. -/
def conflicts (m : Model) (c : Configuration) (t u : Nat) : Bool :=
  !(c.exitsOf m t).disjoint (c.exitsOf m u) ||
    (m.source? t).any (fun s => decide (s ∈ c.exitsOf m u)) ||
    (m.source? u).any (fun s => decide (s ∈ c.exitsOf m t))

/-- Adds a transition to those that are kept, unless it conflicts with one of them. -/
def keep (m : Model) (c : Configuration) (kept : List Nat) (t : Nat) : List Nat :=
  if kept.any (c.conflicts m t) then kept else kept ++ [t]

/-- Drops every transition that conflicts with an earlier one that is kept, in document order. -/
def preempt (m : Model) (c : Configuration) (candidates : List Nat) : List Nat :=
  (NodeSet.ofList candidates).toList.foldl (c.keep m) []

end Statechart.Configuration
