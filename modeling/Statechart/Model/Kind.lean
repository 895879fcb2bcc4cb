import Statechart.Event.Descriptor

/-!
# Kinds of nodes

A chart is a tree of nodes: states, transitions, blocks of executable content and the actions in
them.  `Kind` is the closed set of kinds, and `Kind.accepts` and `Kind.fitsUnder` say which kinds may
be children of which, once from above and once from below.
-/

namespace Statechart

/-- Whether a transition leaves its source even if its targets lie inside of it. -/
inductive TransitionType
  | external
  | internal
  deriving DecidableEq, Repr

namespace TransitionType

/-- The word for a type. -/
def name : TransitionType → String
  | external => "external"
  | internal => "internal"

/-- The type that a word names. -/
def ofName? (s : String) : Option TransitionType := [external, internal].find? (·.name = s)

end TransitionType

/-- A transition: the descriptors of the events it reacts to, its guard, the ids of its targets and
its type. -/
structure Transition where
  events : List Descriptor
  cond : Option String
  targets : List String
  type : TransitionType
  deriving DecidableEq, Repr

namespace Transition

/-- A transition without event, guard and target. -/
def empty : Transition := ⟨[], none, [], .external⟩

/-- Whether the transition reacts to no event, but to the configuration alone. -/
def isEventless (t : Transition) : Bool := t.events.isEmpty

/-- Whether the transition names no target. -/
def isTargetless (t : Transition) : Bool := t.targets.isEmpty

/-- Whether the transition reacts to an event of the given name. -/
def accepts (t : Transition) (event : String) : Bool := Descriptor.anyAccepts t.events event

/-- The descriptors as messages show them. -/
def descriptor (t : Transition) : String := Descriptor.join t.events

end Transition

/-- The kind of a node, with the data that belongs to it. -/
inductive Kind
  /-- The root of the tree. -/
  | scxml (initial : Option String)
  /-- A state without children, or with children of which one is active. -/
  | state (initial : Option String)
  /-- A state all of whose children are active. -/
  | parallel
  | final
  /-- The element that names what a state enters by default. -/
  | initial
  | transition (transition : Transition)
  | onEntry
  | onExit
  | log (label expr : Option String)
  | raise (event : String)
  | assign (location expr : String)
  deriving DecidableEq, Repr

namespace Kind

/-- The word for a kind. -/
def name : Kind → String
  | scxml _ => "scxml"
  | state _ => "state"
  | parallel => "parallel"
  | final => "final"
  | initial => "initial"
  | transition _ => "transition"
  | onEntry => "onentry"
  | onExit => "onexit"
  | log _ _ => "log"
  | raise _ => "raise"
  | assign _ _ => "assign"

/-- One kind for each word, without data. -/
def plain : List Kind :=
  [scxml none, state none, parallel, final, initial, transition .empty, onEntry, onExit,
    log none none, raise "", assign "" ""]

/-- The kind that a word names, without data. -/
def ofName? (s : String) : Option Kind := plain.find? (·.name = s)

def isRoot : Kind → Bool
  | scxml _ => true
  | _ => false

/-- Whether a node of the kind can be active and can be the target of a transition. -/
def isState : Kind → Bool
  | state _ | parallel | final => true
  | _ => false

def isParallel : Kind → Bool
  | parallel => true
  | _ => false

def isFinal : Kind → Bool
  | final => true
  | _ => false

/-- Whether a node of the kind has at most one active child: a state, but no parallel one. -/
def isSequential : Kind → Bool
  | state _ => true
  | _ => false

def isInitial : Kind → Bool
  | initial => true
  | _ => false

def isTransition : Kind → Bool
  | transition _ => true
  | _ => false

def isOnEntry : Kind → Bool
  | onEntry => true
  | _ => false

def isOnExit : Kind → Bool
  | onExit => true
  | _ => false

/-- Whether a node of the kind is an action. -/
def isAction : Kind → Bool
  | log _ _ | raise _ | assign _ _ => true
  | _ => false

/-- The transition of a transition node. -/
def transition? : Kind → Option Transition
  | transition t => some t
  | _ => none

/-- The id of the default child, if it is given as an attribute. -/
def initialAttribute? : Kind → Option String
  | scxml child | state child => child
  | _ => none

/-- Whether a node of the first kind may have a child of the second. -/
def accepts (parent child : Kind) : Bool :=
  match parent with
  | scxml _ => child.isState || child.isInitial
  | state _ =>
    child.isState || child.isInitial || child.isTransition || child.isOnEntry || child.isOnExit
  | parallel =>
    child.isSequential || child.isParallel || child.isTransition || child.isOnEntry || child.isOnExit
  | final => child.isOnEntry || child.isOnExit
  | initial => child.isTransition
  | transition _ | onEntry | onExit => child.isAction
  | log _ _ | raise _ | assign _ _ => false

/-- Whether a node of the first kind may lie under one of the second. -/
def fitsUnder (child parent : Kind) : Bool :=
  match child with
  | scxml _ => false
  | state _ | parallel | final => parent.isRoot || parent.isSequential || parent.isParallel
  | initial => parent.isRoot || parent.isSequential
  | transition _ => parent.isState || parent.isInitial
  | onEntry | onExit => parent.isState
  | log _ _ | raise _ | assign _ _ => parent.isTransition || parent.isOnEntry || parent.isOnExit

end Kind

end Statechart
