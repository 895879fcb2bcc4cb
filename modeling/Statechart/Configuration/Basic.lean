import Statechart.Model.Tree

/-!
# Configurations

A configuration is the set of active states, without the root.

* `Configuration.add` adds a state with everything above it and what it enters by default;
* `Configuration.validate` checks that the active states fit together;
* `Configuration.initial` is the configuration with which a chart starts.
-/

namespace Statechart

/-- The active states. -/
structure Configuration where
  states : NodeSet
  deriving DecidableEq, Repr

namespace Configuration

/-- No state is active. -/
def empty : Configuration := ⟨.empty⟩

/-- The active states without child states. -/
def atomicStates (m : Model) (c : Configuration) : NodeSet := c.states.filter m.isAtomic

/-- The labels of the active states, in document order. -/
def ids (m : Model) (c : Configuration) : List String := c.states.toList.map m.label

/-- The labels of the active atomic states, in document order. -/
def atomicIds (m : Model) (c : Configuration) : List String :=
  (c.atomicStates m).toList.map m.label

/-- Whether the state with an id is active. -/
def isActive (m : Model) (c : Configuration) (id : String) : Bool :=
  (m.getTarget? id).any fun i => decide (i ∈ c.states)

/-- A configuration as text. -/
def describe (m : Model) (c : Configuration) : String :=
  "\x7b" ++ ", ".intercalate (c.ids m) ++ "\x7d"

/-- Adds a state or the root: itself, unless it is the root, the states above it, and what it enters
by default.  A state that is active already changes nothing. -/
def add (m : Model) (c : Configuration) (i : Nat) : Except Error Configuration :=
  match m.kind? i with
  | none => .error (.illegalConfiguration (.unknownNode i))
  | some kind =>
    if ¬ m.isRoot i ∧ ¬ kind.isState then
      .error (.illegalConfiguration (.neverActive kind.name (m.label i)))
    else if i ∈ c.states then .ok c
    else
      let above := ((i :: m.ancestors i).filter fun a => !m.isRoot a)
      .ok ⟨(c.states.insertAll above).union (m.initialDescendants i)⟩

/-- How many of a node's child states are active. -/
def activeChildren (m : Model) (c : Configuration) (i : Nat) : Nat :=
  (m.childStates i).countP fun child => decide (child ∈ c.states)

/-- What is wrong with an active node: it must be a state, all states above it must be active, and so
must be all its regions if it is parallel, or exactly one of its child states if it is compound. -/
def stateFault? (m : Model) (c : Configuration) (i : Nat) : Option ConfigurationFault :=
  if ¬ m.isState i then some (.notAState (m.label i))
  else match (m.ancestors i).find? fun a => !m.isRoot a && !decide (a ∈ c.states) with
    | some a => some (.inactiveAncestor (m.label i) (m.label a))
    | none =>
      let active := c.activeChildren m i
      if m.isParallel i then
        let total := (m.childStates i).length
        if active ≠ total then some (.inactiveRegions (m.label i) active total) else none
      else if m.isCompound i ∧ active ≠ 1 then some (.activeChildren (m.label i) active)
      else none

/-- What is wrong with a configuration: an atomic state must be active, no active state may be at
fault, and exactly one state below the root must be active.  The first fault in document order
counts. -/
def fault? (m : Model) (c : Configuration) : Option ConfigurationFault :=
  if (c.atomicStates m).isEmpty then some .noAtomicState
  else match c.states.toList.findSome? (c.stateFault? m) with
    | some fault => some fault
    | none =>
      match m.root? with
      | none => none
      | some root =>
        let top := c.activeChildren m root
        if top ≠ 1 then some (.topLevelStates top) else none

/-- Checks that the active states fit together. -/
def validate (m : Model) (c : Configuration) : Except Error Unit :=
  match c.fault? m with
  | some fault => .error (.illegalConfiguration fault)
  | none => .ok ()

/-- Whether the active states fit together. -/
def isLegal (m : Model) (c : Configuration) : Bool := (c.fault? m).isNone

/-- The configuration with which a chart starts: what its root enters by default. -/
def initial (m : Model) : Except Error Configuration :=
  match m.root? with
  | none => .error (.invalidModel .noRoot)
  | some root =>
    match empty.add m root with
    | .error e => .error e
    | .ok c =>
      match c.validate m with
      | .error e => .error e
      | .ok () => .ok c

end Configuration

end Statechart
