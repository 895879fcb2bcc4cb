import Statechart.Chart.Basic
import Statechart.Model.Validation

/-!
# From charts to models

`Chart.build` adds the nodes of a chart in document order: for every state its initial element, its
`onentry` and `onexit` blocks, its transitions and then its child states.  The finished tree is
validated.
-/

namespace Statechart

/-- Adds a node and gives its number too. -/
def Model.add (m : Model) (d : Declaration) (parent : Nat) : Except Error (Model × Nat) :=
  match m.addNode d (some parent) with
  | .error e => .error e
  | .ok m' => .ok (m', m.size)

namespace Chart

/-- The node of an action. -/
def Action.kind : Action → Kind
  | .log label expr => .log label expr
  | .raise event => .raise event
  | .assign location expr => .assign location expr

/-- The transition of an entry. -/
def TransitionEntry.transition (t : TransitionEntry) : Transition :=
  ⟨Descriptor.ofText (" ".intercalate t.event), t.cond, t.target, t.type⟩

/-- The node of a state.  Only a state that is neither parallel nor final may have an `initial`
attribute. -/
def StateEntry.declaration (s : StateEntry) : Except Error Declaration :=
  let id := s.id.getD ""
  match s.type, s.initial with
  | .state, initial => .ok (Declaration.withId (.ofKind (.state initial)) id)
  | .parallel, none => .ok (Declaration.withId (.ofKind .parallel) id)
  | .final, none => .ok (Declaration.withId (.ofKind .final) id)
  | _, some child => .error (.structural (.misplacedInitialAttribute child))

/-- Adds actions under a block or transition. -/
def addActions (m : Model) (parent : Nat) : List Action → Except Error Model
  | [] => .ok m
  | a :: rest =>
    match m.add (.ofKind a.kind) parent with
    | .error e => .error e
    | .ok (m, _) => addActions m parent rest

/-- Adds an initial element with its transition, if there are targets. -/
def addInitial (m : Model) (parent : Nat) (targets : List String) : Except Error Model :=
  if targets.isEmpty then .ok m
  else match m.add (.ofKind .initial) parent with
    | .error e => .error e
    | .ok (m, initial) =>
      match m.add (.ofKind (.transition { Transition.empty with targets := targets })) initial with
      | .error e => .error e
      | .ok (m, _) => .ok m

/-- Adds a block with its actions, if there are any. -/
def addBlock (m : Model) (kind : Kind) (parent : Nat) (actions : List Action) :
    Except Error Model :=
  if actions.isEmpty then .ok m
  else match m.add (.ofKind kind) parent with
    | .error e => .error e
    | .ok (m, block) => addActions m block actions

/-- Adds transitions with their actions. -/
def addTransitions (m : Model) (parent : Nat) : List TransitionEntry → Except Error Model
  | [] => .ok m
  | t :: rest =>
    match m.add (.ofKind (.transition t.transition)) parent with
    | .error e => .error e
    | .ok (m, node) =>
      match addActions m node t.actions with
      | .error e => .error e
      | .ok m => addTransitions m parent rest

/-- Adds what a state has besides its child states. -/
def addOwn (m : Model) (node : Nat) (s : StateEntry) : Except Error Model :=
  match addInitial m node s.initialTransition with
  | .error e => .error e
  | .ok m =>
    match addBlock m .onEntry node s.onEntry with
    | .error e => .error e
    | .ok m =>
      match addBlock m .onExit node s.onExit with
      | .error e => .error e
      | .ok m => addTransitions m node s.transitions

mutual

/-- Adds a state with everything in it. -/
def addState (m : Model) (parent : Nat) : StateEntry → Except Error Model
  | ⟨id, type, initial, initialTransition, onEntry, onExit, transitions, states⟩ =>
    let s : StateEntry :=
      ⟨id, type, initial, initialTransition, onEntry, onExit, transitions, []⟩
    match s.declaration with
    | .error e => .error e
    | .ok d =>
      match m.add d parent with
      | .error e => .error e
      | .ok (m, node) =>
        match addOwn m node s with
        | .error e => .error e
        | .ok m => addStates m node states

/-- Adds states with everything in them. -/
def addStates (m : Model) (parent : Nat) : List StateEntry → Except Error Model
  | [] => .ok m
  | s :: rest =>
    match addState m parent s with
    | .error e => .error e
    | .ok m => addStates m parent rest

end

/-- The tree of a chart, not yet validated. -/
def nodes (c : Chart) : Except Error Model :=
  match Model.empty.addNode (.ofKind (.scxml c.initial)) none with
  | .error e => .error e
  | .ok m =>
    match addInitial m 0 c.initialTransition with
    | .error e => .error e
    | .ok m => addStates m 0 c.states

/-- The valid model of a chart. -/
def build (c : Chart) : Except Error Model :=
  match c.nodes with
  | .error e => .error e
  | .ok m =>
    match m.validate with
    | .error e => .error e
    | .ok () => .ok m

end Chart

end Statechart
