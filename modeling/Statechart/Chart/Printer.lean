import Statechart.Chart.Basic
import Statechart.Checksum
import Statechart.Json.Printer

/-!
# Writing charts

`Chart.encode` is the canonical form of a chart: fields in the order of their declaration, and no
field that is absent or empty, except for the states of the chart and for types.  `Chart.toJson` is
the same as a JSON value, and `Chart.checksum` the checksum of its text.
-/

namespace Statechart

namespace Json

mutual

/-- A value with the fields of all objects in the order of their names. -/
def sorted : Json → Json
  | array items => array (sortedItems items)
  | object fields => ofFields (sortedFields fields)
  | v => v

/-- The items of an array, each sorted. -/
def sortedItems : List Json → List Json
  | [] => []
  | v :: vs => sorted v :: sortedItems vs

/-- The values of fields, each sorted. -/
def sortedFields : List (String × Json) → List (String × Json)
  | [] => []
  | (k, v) :: rest => (k, sorted v) :: sortedFields rest

end

end Json

namespace Chart

/-- A field that may be absent. -/
def optionalField (name : String) : Option String → List (String × Json)
  | some s => [(name, .string s)]
  | none => []

/-- A field that is left out when it has no items. -/
def listField (name : String) : List Json → List (String × Json)
  | [] => []
  | items => [(name, .array items)]

/-- The canonical form of an action. -/
def encodeAction : Action → Json
  | .log label expr => .object [("log", .object (optionalField "label" label ++ optionalField "expr" expr))]
  | .raise event => .object [("raise", .object [("event", .string event)])]
  | .assign location expr =>
    .object [("assign", .object [("location", .string location), ("expr", .string expr)])]

/-- The canonical form of a transition. -/
def encodeTransition (t : TransitionEntry) : Json :=
  .object (listField "event" (t.event.map .string) ++ optionalField "cond" t.cond ++
    listField "target" (t.target.map .string) ++ [("type", .string t.type.name)] ++
    listField "actions" (t.actions.map encodeAction))

mutual

/-- The canonical form of a state. -/
def encodeState : StateEntry → Json
  | ⟨id, type, initial, initialTransition, onEntry, onExit, transitions, states⟩ =>
    .object (optionalField "id" id ++ [("type", .string type.name)] ++
      optionalField "initial" initial ++
      listField "initial_transition" (initialTransition.map .string) ++
      listField "onentry" (onEntry.map encodeAction) ++
      listField "onexit" (onExit.map encodeAction) ++
      listField "transitions" (transitions.map encodeTransition) ++
      listField "states" (encodeStates states))

/-- The canonical forms of some states. -/
def encodeStates : List StateEntry → List Json
  | [] => []
  | s :: rest => encodeState s :: encodeStates rest

end

/-- The canonical form of a chart. -/
def encode (c : Chart) : Json :=
  .object (optionalField "name" c.name ++ optionalField "initial" c.initial ++
    listField "initial_transition" (c.initialTransition.map .string) ++
    [("states", .array (encodeStates c.states))])

/-- A chart as a JSON value. -/
def toJson (c : Chart) : Json := c.encode.sorted

/-- The checksum of a chart's canonical text. -/
def checksum (c : Chart) : String := Checksum.ofText c.encode.write

end Chart

end Statechart
