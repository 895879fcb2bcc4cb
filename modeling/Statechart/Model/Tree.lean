import Statechart.Model.Basic
import Statechart.NodeSet

/-!
# Above and below

* `Model.ancestors` are the nodes above a node, nearest first, and `Model.isBelow` says that a node
  lies properly below another;
* `Model.defaultTargets` is what a state enters by default;
* `Model.enterClosure` is what has to become active below a node so that it is complete, and
  `Model.initialDescendants` is the closure without further wishes;
* `Model.lcca` is the least common compound ancestor of some states, and `Model.domain?` the node
  below which a transition leaves and enters states.

In a well-formed tree a parent has a smaller number than its children.  The walks follow a link only
if it goes that way, which is why they end.
-/

namespace Statechart.Model

/-- The proper ancestors of a node, nearest first. -/
def ancestors (m : Model) (i : Nat) : List Nat :=
  match m.parent? i with
  | none => []
  | some p => if p < i then p :: ancestors m p else []
termination_by i

/-- Whether `i` is a proper descendant of `a`. -/
def isBelow (m : Model) (i a : Nat) : Bool := (m.ancestors i).contains a

/-- What a state with child states, or the root, enters by default: the targets of its initial
element, or else the child that its `initial` attribute names, or else its first child state. -/
def defaultTargets (m : Model) (i : Nat) : List Nat :=
  match (m.childrenOfKind Kind.isInitial i).head?.bind fun e => (m.transitionsOf e).head? with
  | some t => m.resolvedTargets t
  | none =>
    match ((m.kind? i).bind Kind.initialAttribute?).bind m.getTarget? with
    | some child => [child]
    | none => (m.childStates i).take 1

/-- The states below `i` that have to be active so that `i` is complete and all states of `required`,
which lie below `i`, are active: of a parallel state all children, of another state the children
with a required state, or with a default target if there is none. -/
def enterClosure (m : Model) (i : Nat) (required : List Nat) : NodeSet :=
  match m.kind? i with
  | some .parallel =>
    (m.childStates i).foldl (fun out child =>
      if _h : i < child ∧ child < m.size then
        (out.insert child).union
          (enterClosure m child (required.filter fun r => m.isBelow r child))
      else out) .empty
  | some (.state _) | some (.scxml _) =>
    let wanted := if required.isEmpty then m.defaultTargets i else required
    (m.childStates i).foldl (fun out child =>
      let hits := wanted.filter fun r => r = child || m.isBelow r child
      if hits.isEmpty then out
      else if _h : i < child ∧ child < m.size then
        (out.insert child).union (enterClosure m child (hits.filter (· ≠ child)))
      else out) .empty
  | _ => .empty
termination_by m.size - i
decreasing_by all_goals omega

/-- The states that become active when `i` is entered, without `i` itself. -/
def initialDescendants (m : Model) (i : Nat) : NodeSet := m.enterClosure i []

/-- The nearest node above the first state that is compound or the root and above all others. -/
def lcca (m : Model) (states : List Nat) : Option Nat :=
  match states with
  | [] => none
  | first :: rest =>
    (m.ancestors first).find? fun a =>
      (m.isCompound a || m.isRoot a) && rest.all fun s => m.isBelow s a

/-- The node below which a transition leaves and enters states.  A transition without targets has
none. -/
def domain? (m : Model) (transition : Nat) : Option Nat :=
  match m.transition? transition, m.resolvedTargets transition, m.source? transition with
  | some t, target :: targets, some source =>
    if t.type = .internal && m.isCompound source &&
        (target :: targets).all fun s => m.isBelow s source then
      some source
    else m.lcca (source :: target :: targets)
  | _, _, _ => none

end Statechart.Model
