import Statechart.Json.Basic

/-!
# Variables

Expressions and executable content read and write variables through a `Context`.  A `Scope` is the
context of the default evaluator: a frame of variables inside any number of enclosing frames.  Reads
fall back to the enclosing frames, writes change the innermost frame only.
-/

namespace Statechart

/-- What expressions and executable content need of a store of variables. -/
class Context (κ : Type) where
  /-- The visible value of a variable. -/
  get? : κ → String → Option Json
  /-- Sets a variable. -/
  set : κ → String → Json → κ
  /-- All visible variables, with their values. -/
  bindings : κ → Fields

/-- A frame of variables and the frames around it, innermost first. -/
structure Scope where
  own : Fields
  enclosing : List Fields
  deriving Repr

namespace Scope

/-- No variables, and no frame around them. -/
def empty : Scope := ⟨[], []⟩

/-- A scope with the fields of an object; any other value gives an empty one. -/
def ofJson : Json → Scope
  | .object fields => ⟨fields, []⟩
  | _ => empty

/-- A new innermost frame without variables. -/
def push (s : Scope) : Scope := ⟨[], s.own :: s.enclosing⟩

/-- The scope around the innermost frame. -/
def parent? (s : Scope) : Option Scope :=
  match s.enclosing with
  | [] => none
  | frame :: rest => some ⟨frame, rest⟩

/-- Looks a name up in frames, innermost first. -/
def lookup : List Fields → String → Option Json
  | [], _ => none
  | frame :: rest, name =>
    match frame.get? name with
    | some v => some v
    | none => lookup rest name

/-- The visible value of a variable. -/
def get? (s : Scope) (name : String) : Option Json := lookup (s.own :: s.enclosing) name

/-- The variables that frames show: each frame shadows those around it. -/
def visible : List Fields → Fields
  | [] => []
  | frame :: rest => Fields.merge (visible rest) frame

/-- All visible variables, with their values. -/
def bindings (s : Scope) : Fields := visible (s.own :: s.enclosing)

/-- Sets a variable of the innermost frame. -/
def set (s : Scope) (name : String) (value : Json) : Scope :=
  { s with own := s.own.set name value }

/-- Removes a variable from the innermost frame. -/
def clear (s : Scope) (name : String) : Scope := { s with own := s.own.erase name }

/-- Removes every variable from the innermost frame. -/
def clearAll (s : Scope) : Scope := { s with own := [] }

instance : Context Scope := ⟨get?, set, bindings⟩

end Scope

end Statechart
