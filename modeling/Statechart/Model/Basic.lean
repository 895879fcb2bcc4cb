import Statechart.Error
import Statechart.Model.Kind

/-!
# Models

A `Model` is the tree of a chart.  The number of a node is its document order: how many nodes were
added before it.  It has no bound here: the model is exact as long as numbers of thirty-two bits
suffice, below `2 ^ 32` nodes.

* `Model.addNode` adds a node under a parent that accepts it, or says why it cannot be added;
* `Model.getTarget?` finds a state by its id, or by the key that stands for the id of a state that
  has none;
* `Model.label` is the name of a node in messages.
-/

namespace Statechart

/-- A node before it is added. -/
structure Declaration where
  id : Option String
  kind : Kind
  deriving DecidableEq, Repr

namespace Declaration

/-- A node without an id. -/
def ofKind (kind : Kind) : Declaration := ⟨none, kind⟩

/-- Gives a node an id; an empty one leaves it without. -/
def withId (d : Declaration) (id : String) : Declaration :=
  { d with id := if id = "" then none else some id }

/-- Sets the `initial` attribute of the root or of a state; other nodes have none. -/
def withInitial (d : Declaration) (child : String) : Declaration :=
  match d.kind with
  | .scxml _ => { d with kind := .scxml (some child) }
  | .state _ => { d with kind := .state (some child) }
  | _ => d

end Declaration

/-- A node of a model. -/
structure Node where
  id : Option String
  kind : Kind
  parent : Option Nat
  /-- The children in document order. -/
  children : List Nat
  deriving DecidableEq, Repr

/-- The tree of a chart, with its states by id and its transitions in document order. -/
structure Model where
  nodes : Array Node
  /-- The node that was added without a parent. -/
  root? : Option Nat
  index : List (String × Nat)
  transitions : List Nat
  deriving DecidableEq, Repr

namespace Model

/-- No nodes. -/
def empty : Model := ⟨#[], none, [], []⟩

/-- How many nodes there are. -/
def size (m : Model) : Nat := m.nodes.size

/-- The node with a number. -/
def node? (m : Model) (i : Nat) : Option Node := m.nodes[i]?

/-- The kind of a node. -/
def kind? (m : Model) (i : Nat) : Option Kind := (m.node? i).map Node.kind

/-- The parent of a node; the root has none. -/
def parent? (m : Model) (i : Nat) : Option Nat := (m.node? i).bind Node.parent

/-- The children of a node, in document order. -/
def children (m : Model) (i : Nat) : List Nat :=
  match m.node? i with
  | some n => n.children
  | none => []

/-- The numbers of all nodes. -/
def nodeIds (m : Model) : List Nat := List.range m.size

/-- Whether the kind of a node satisfies `p`. -/
def hasKind (m : Model) (p : Kind → Bool) (i : Nat) : Bool := (m.kind? i).any p

/-- The children whose kind satisfies `p`. -/
def childrenOfKind (m : Model) (p : Kind → Bool) (i : Nat) : List Nat :=
  (m.children i).filter (m.hasKind p)

/-- The child states of a node. -/
def childStates (m : Model) : Nat → List Nat := m.childrenOfKind Kind.isState

/-- The transitions out of a node. -/
def transitionsOf (m : Model) : Nat → List Nat := m.childrenOfKind Kind.isTransition

/-- The blocks that run when a state is entered. -/
def entryBlocks (m : Model) : Nat → List Nat := m.childrenOfKind Kind.isOnEntry

/-- The blocks that run when a state is left. -/
def exitBlocks (m : Model) : Nat → List Nat := m.childrenOfKind Kind.isOnExit

def isRoot (m : Model) (i : Nat) : Bool := m.root? = some i

def isState (m : Model) : Nat → Bool := m.hasKind Kind.isState

def isParallel (m : Model) : Nat → Bool := m.hasKind Kind.isParallel

def isFinal (m : Model) : Nat → Bool := m.hasKind Kind.isFinal

/-- Whether a node is a state without child states. -/
def isAtomic (m : Model) (i : Nat) : Bool := m.isState i && (m.childStates i).isEmpty

/-- Whether a node is a state with child states of which one is active. -/
def isCompound (m : Model) (i : Nat) : Bool := m.hasKind Kind.isSequential i && !m.isAtomic i

/-- The transition of a transition node. -/
def transition? (m : Model) (i : Nat) : Option Transition := (m.kind? i).bind Kind.transition?

/-- The state or initial element that a transition belongs to. -/
def source? (m : Model) (transition : Nat) : Option Nat := m.parent? transition

/-- A node's id, or its kind and number if it has none. -/
def label (m : Model) (i : Nat) : String :=
  match m.node? i with
  | some ⟨some id, _, _, _⟩ => id
  | some ⟨none, kind, _, _⟩ => kind.name ++ "#" ++ toString i
  | none => "#" ++ toString i

/-- What the keys of states without an id start with. -/
def anonymousMark : String := "__TID__"

/-- The state with an id, or with the key of a state that has none. -/
def getTarget? (m : Model) (id : String) : Option Nat := m.index.lookup id

/-- The states that a transition names, in the order in which they are written. -/
def resolvedTargets (m : Model) (transition : Nat) : List Nat :=
  match m.transition? transition with
  | some t => t.targets.filterMap m.getTarget?
  | none => []

/-- Whether a second transition, an event, a guard, a missing target or content forbids to add a node
of the given kind under an existing parent that accepts it. -/
def checkInitial (m : Model) (kind : Kind) (parent : Nat) (node : Node) :
    Except StructureFault Unit :=
  match kind with
  | .initial =>
    match node.kind.initialAttribute? with
    | some child => .error (.initialBesideAttribute (m.label parent) child)
    | none =>
      if (m.childrenOfKind Kind.isInitial parent).isEmpty then .ok ()
      else .error (.secondInitial (m.label parent))
  | .transition t =>
    if node.kind.isInitial then
      if ¬ node.children.isEmpty then .error .secondInitialTransition
      else if ¬ t.isEventless then .error .initialWithEvent
      else if t.cond.isSome then .error .initialWithCondition
      else if t.isTargetless then .error .initialWithoutTarget
      else .ok ()
    else .ok ()
  | kind =>
    if kind.isAction && node.kind.isTransition && node.parent.any (m.hasKind Kind.isInitial) then
      .error .initialWithContent
    else .ok ()

/-- Whether a node of the given kind may be added under a parent. -/
def checkParent (m : Model) (kind : Kind) (parent : Nat) : Except StructureFault Unit :=
  match m.node? parent with
  | none => .error (.unknownParent parent)
  | some node =>
    if node.kind.accepts kind && kind.fitsUnder node.kind then m.checkInitial kind parent node
    else .error (.misplaced kind.name node.kind.name (m.label parent))

/-- Whether a node of the given kind may be added at a place: the root without a parent and first,
any other node under a parent. -/
def checkPlace (m : Model) (kind : Kind) : Option Nat → Except StructureFault Unit
  | some parent => if kind.isRoot then .error .rootWithParent else m.checkParent kind parent
  | none =>
    if kind.isRoot then if m.root?.isSome then .error .secondRoot else .ok ()
    else .error (.missingParent kind.name)

/-- Whether a state may have an id. -/
def checkId (m : Model) (d : Declaration) : Except StructureFault Unit :=
  match d.id with
  | none => .ok ()
  | some id =>
    if ¬ d.kind.isState then .ok ()
    else if anonymousMark.toList.isPrefixOf id.toList then .error (.reservedId id anonymousMark)
    else if (m.getTarget? id).isSome then .error (.duplicateId id)
    else .ok ()

/-- The key under which a new state is found. -/
def keyOf (d : Declaration) (i : Nat) : String := d.id.getD (anonymousMark ++ toString i)

/-- Appends a node, without asking whether it fits. -/
def insertNode (m : Model) (d : Declaration) (parent : Option Nat) : Model :=
  let i := m.size
  let linked := match parent with
    | some p => m.nodes.modify p fun n => { n with children := n.children ++ [i] }
    | none => m.nodes
  { nodes := linked.push ⟨d.id, d.kind, parent, []⟩
    root? := if parent.isNone then some i else m.root?
    index := if d.kind.isState then m.index ++ [(keyOf d i, i)] else m.index
    transitions := if d.kind.isTransition then m.transitions ++ [i] else m.transitions }

/-- Adds a node under a parent, or the root without one.  The number of the new node is the size of
the model before. -/
def addNode (m : Model) (d : Declaration) (parent : Option Nat) : Except Error Model :=
  match m.checkPlace d.kind parent with
  | .error f => .error (.structural f)
  | .ok () =>
    match m.checkId d with
    | .error f => .error (.structural f)
    | .ok () => .ok (m.insertNode d parent)

end Model

end Statechart
