import Statechart.Model.Tree

/-!
# Valid models

`Model.validate` checks a finished tree: targets exist, there are states, `initial` attributes name
children and initial elements descendants, parallel states have regions, and several targets of one
transition lie in different regions of a parallel state.  The first fault in document order counts,
targets before all others.
-/

namespace Statechart.Model

/-- The first target of a transition that is no state. -/
def unresolvedTarget? (m : Model) (transition : Nat) : Option String :=
  match m.transition? transition with
  | some t => t.targets.find? fun id => (m.getTarget? id).isNone
  | none => none

/-- The error of the first transition with a target that is no state. -/
def checkTargets (m : Model) : Except Error Unit :=
  match m.transitions.findSome? fun t => (m.unresolvedTarget? t).map (t, ·) with
  | some (t, id) => .error (.unresolvedTarget (((m.transition? t).getD .empty).descriptor) id)
  | none => .ok ()

/-- Whether two states lie in different regions of a parallel state: none is above the other, and the
nearest node above both is parallel. -/
def areOrthogonal (m : Model) (a b : Nat) : Bool :=
  a ≠ b && !m.isBelow a b && !m.isBelow b a &&
    ((m.ancestors a).find? fun c => m.isBelow b c).any m.isParallel

/-- The first two states of a list that are not orthogonal, in the order of the list. -/
def notOrthogonal? (m : Model) : List Nat → Option (Nat × Nat)
  | [] => none
  | a :: rest =>
    match rest.find? fun b => !m.areOrthogonal a b with
    | some b => some (a, b)
    | none => notOrthogonal? m rest

/-- What is wrong with an initial element: it has a transition whose targets lie below its owner. -/
def initialFault? (m : Model) (i : Nat) : Option ModelFault :=
  let owner := (m.parent? i).getD i
  match (m.transitionsOf i).head? with
  | none => some (.initialWithoutTransition (m.label owner))
  | some t =>
    ((m.resolvedTargets t).find? fun s => !m.isBelow s owner).map fun s =>
      .initialOutside (m.label s) (m.label owner)

/-- What is wrong with an `initial` attribute: it names a child state. -/
def attributeFault? (m : Model) (i : Nat) (kind : Kind) : Option ModelFault :=
  match kind.initialAttribute? with
  | none => none
  | some id =>
    if (m.getTarget? id).any fun child => m.parent? child = some i then none
    else some (.badInitialAttribute id (m.label i))

/-- What is wrong with a node of a finished tree. -/
def nodeFault? (m : Model) (i : Nat) (kind : Kind) : Option ModelFault :=
  match m.attributeFault? i kind with
  | some fault => some fault
  | none =>
    match kind with
    | .parallel => if (m.childStates i).isEmpty then some (.emptyParallel (m.label i)) else none
    | .initial => m.initialFault? i
    | .transition t =>
      if 1 < t.targets.length then
        (m.notOrthogonal? (m.resolvedTargets i)).map fun (a, b) =>
          .notOrthogonal (m.label a) (m.label b) t.descriptor
      else none
    | _ => none

/-- What is wrong with the first faulty node. -/
def firstFault? (m : Model) : Option ModelFault :=
  m.nodeIds.findSome? fun i => (m.kind? i).bind (m.nodeFault? i)

/-- Whether the tree is valid. -/
def validate (m : Model) : Except Error Unit :=
  match m.root? with
  | none => .error (.invalidModel .noRoot)
  | some root =>
    match m.checkTargets with
    | .error e => .error e
    | .ok () =>
      if (m.childStates root).isEmpty then .error (.invalidModel .noStates)
      else match m.firstFault? with
        | some fault => .error (.invalidModel fault)
        | none => .ok ()

end Statechart.Model
