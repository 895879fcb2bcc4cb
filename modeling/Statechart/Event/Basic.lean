import Statechart.Json.Basic
import Statechart.Tree.Reading

/-!
# Events

An event has a name, a payload and a kind: the host sends external events, executable content raises
internal ones, and the engine itself raises platform events.

* `Event.toJson` is the event as a document, `Event.ofJson?` reads it back;
* `Event.view` is the event as expressions see it.
-/

namespace Statechart

/-- Where an event came from. -/
inductive EventKind
  | external
  | internal
  | platform
  deriving DecidableEq, Repr

namespace EventKind

/-- The word for a kind. -/
def name : EventKind → String
  | external => "external"
  | internal => "internal"
  | platform => "platform"

/-- The kind that a word names. -/
def ofName? (s : String) : Option EventKind := [external, internal, platform].find? (·.name = s)

end EventKind

/-- An event. -/
structure Event where
  name : String
  data : Json
  kind : EventKind
  deriving Repr

namespace Event

/-- An external event without a payload. -/
def external (name : String) : Event := ⟨name, .null, .external⟩

/-- An event that executable content raises. -/
def internal (name : String) : Event := ⟨name, .null, .internal⟩

/-- An event that the engine raises. -/
def platform (name : String) (data : Json) : Event := ⟨name, data, .platform⟩

/-- The event as expressions see it. -/
def view (e : Event) : Json :=
  .ofFields [("name", .string e.name), ("type", .string e.kind.name), ("data", e.data)]

/-- The event as a document. -/
def toJson (e : Event) : Json :=
  .ofFields [("name", .string e.name), ("data", e.data), ("kind", .string e.kind.name)]

/-- Reads an event from a document: the name must be given, the payload is null and the kind external
unless they are given. -/
def ofJson? (v : Json) : Option Event := do
  let given ← Tree.fields? ["name", "data", "kind"] (.ofJson v)
  let name ← given.required "name" Tree.string?
  let data ← given.orElse "data" Tree.value? .null
  let kind ← given.orElse "kind" (fun t => (Tree.word? .value t).bind EventKind.ofName?) .external
  return ⟨name, data, kind⟩

end Event

end Statechart
