import Statechart.Model.Kind

/-!
# Charts

A chart as it is written: its states with their transitions and executable content, before its ids
are resolved.
-/

namespace Statechart.Chart

/-- The type of a state. -/
inductive StateType
  | state
  | parallel
  | final
  deriving DecidableEq, Repr

namespace StateType

/-- The word for a type. -/
def name : StateType → String
  | state => "state"
  | parallel => "parallel"
  | final => "final"

/-- The type that a word names. -/
def ofName? (s : String) : Option StateType := [state, parallel, final].find? (·.name = s)

end StateType

/-- An action of executable content. -/
inductive Action
  | log (label expr : Option String)
  | raise (event : String)
  | assign (location expr : String)
  deriving DecidableEq, Repr

/-- A transition: event descriptors, a guard, target ids, a type and actions. -/
structure TransitionEntry where
  event : List String
  cond : Option String
  target : List String
  type : TransitionType
  actions : List Action
  deriving DecidableEq, Repr

/-- A state with everything in it.  What it enters by default is given by the id of a child, or by the
targets of an initial element. -/
structure StateEntry where
  id : Option String
  type : StateType
  initial : Option String
  initialTransition : List String
  onEntry : List Action
  onExit : List Action
  transitions : List TransitionEntry
  states : List StateEntry
  deriving Repr

end Chart

/-- A chart. -/
structure Chart where
  name : Option String
  initial : Option String
  initialTransition : List String
  states : List Chart.StateEntry
  deriving Repr

end Statechart
