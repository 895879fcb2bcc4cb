import Statechart.Chart.Basic
import Statechart.Error
import Statechart.Json.Reader

/-!
# Reading charts

A chart is read from a document tree.  Unknown fields are skipped; lists of words may be written as
one text; a field that is absent is empty.  Only the states of the chart have to be given.
-/

namespace Statechart

namespace Tree

mutual

/-- How deep lists, records and tags are nested in a tree. -/
def height : Tree → Nat
  | list items => heightItems items + 1
  | record fields => heightFields fields + 1
  | tagged _ body => height body + 1
  | _ => 0

/-- The greatest height among the items of a list. -/
def heightItems : List Tree → Nat
  | [] => 0
  | t :: ts => max (height t) (heightItems ts)

/-- The greatest height among the fields of a record. -/
def heightFields : List (Option String × Tree) → Nat
  | [] => 0
  | (_, t) :: rest => max (height t) (heightFields rest)

end

end Tree

namespace Chart

open Statechart.Tree (choice? choiceFields? fields? list? optional? string? word? words?)

/-- An action. -/
def readAction (d : Dialect) (t : Tree) : Option Action :=
  match choice? d t with
  | some ("log", some body) => do
    let given ← choiceFields? d ["label", "expr"] body
    let label ← given.orElse "label" (optional? string?) none
    let expr ← given.orElse "expr" (optional? string?) none
    return .log label expr
  | some ("raise", some body) => do
    let given ← choiceFields? d ["event"] body
    let event ← given.required "event" string?
    return .raise event
  | some ("assign", some body) => do
    let given ← choiceFields? d ["location", "expr"] body
    let location ← given.required "location" string?
    let expr ← given.required "expr" string?
    return .assign location expr
  | _ => none

/-- A transition. -/
def readTransition (d : Dialect) (t : Tree) : Option TransitionEntry := do
  let given ← fields? ["event", "cond", "target", "type", "actions"] t
  let event ← given.orElse "event" words? []
  let cond ← given.orElse "cond" (optional? string?) none
  let target ← given.orElse "target" words? []
  let type ← given.orElse "type" (fun t => (word? d t).bind TransitionType.ofName?) .external
  let actions ← given.orElse "actions" (list? (readAction d)) []
  return ⟨event, cond, target, type, actions⟩

/-- A state.  `fuel` bounds how deep states are nested in it. -/
def readState (d : Dialect) : Nat → Tree → Option StateEntry
  | 0, _ => none
  | fuel + 1, t => do
    let given ← fields?
      ["id", "type", "initial", "initial_transition", "onentry", "onexit", "transitions", "states"] t
    let id ← given.orElse "id" (optional? string?) none
    let type ← given.orElse "type" (fun t => (word? d t).bind StateType.ofName?) .state
    let initial ← given.orElse "initial" (optional? string?) none
    let initialTransition ← given.orElse "initial_transition" words? []
    let onEntry ← given.orElse "onentry" (list? (readAction d)) []
    let onExit ← given.orElse "onexit" (list? (readAction d)) []
    let transitions ← given.orElse "transitions" (list? (readTransition d)) []
    let states ← given.orElse "states" (list? (readState d fuel)) []
    return ⟨id, type, initial, initialTransition, onEntry, onExit, transitions, states⟩

/-- A chart. -/
def ofTree? (d : Dialect) (t : Tree) : Option Chart := do
  let given ← fields? ["name", "initial", "initial_transition", "states"] t
  let name ← given.orElse "name" (optional? string?) none
  let initial ← given.orElse "initial" (optional? string?) none
  let initialTransition ← given.orElse "initial_transition" words? []
  let states ← given.required "states" (list? (readState d (t.height + 1)))
  return ⟨name, initial, initialTransition, states⟩

/-- The chart of a JSON value. -/
def ofJson (v : Json) : Except Error Chart :=
  match ofTree? .value (.ofJson v) with
  | some c => .ok c
  | none => .error .notJsonChart

/-- The chart of a JSON text. -/
def ofJsonText (s : String) : Except Error Chart :=
  match (Tree.ofJsonText? s).bind (ofTree? .text) with
  | some c => .ok c
  | none => .error .notJsonChart

end Chart

end Statechart
