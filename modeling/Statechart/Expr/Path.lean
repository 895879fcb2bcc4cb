import Statechart.Error
import Statechart.Scope
import Statechart.Text.Blank

/-!
# Places of variables

A path names a variable and a place inside of it: fields of objects by name, items of arrays by
number.

* `readPath` reads a place; what is missing reads as null;
* `Fields.put` writes one, making objects on the way;
* `assign` writes at a location as it is written, such as `ctx.order.total`.
-/

namespace Statechart

namespace Json

/-- The part of a value that one segment of a path names. -/
def step (v : Json) (segment : String) : Json :=
  match v with
  | .object fields => (Fields.get? fields segment).getD .null
  | .array items =>
    match Text.unsigned? segment with
    | some i => (items[i]?).getD .null
    | none => .null
  | _ => .null

end Json

namespace Fields

/-- Puts a value at a path.  Anything on the way that is no object is replaced by one. -/
def put : Fields → List String → Json → Fields
  | fields, [], _ => fields
  | fields, [k], value => set fields k value
  | fields, k :: rest, value =>
    let inner := match get? fields k with
      | some (.object inner) => inner
      | _ => []
    set fields k (.object (put inner rest value))

end Fields

variable {κ : Type} [Context κ]

/-- The value at a path.  The empty path is the object of all variables. -/
def readPath (c : κ) : List String → Json
  | [] => .object (Context.bindings c)
  | name :: rest => rest.foldl Json.step ((Context.get? c name).getD .null)

/-- Puts a value at a path. -/
def writePath (c : κ) (path : List String) (value : Json) : κ :=
  match path with
  | [] => c
  | [name] => Context.set c name value
  | name :: rest =>
    let root := match Context.get? c name with
      | some (.object fields) => fields
      | _ => []
    Context.set c name (.object (Fields.put root rest value))

/-- A location without the mark that it is a variable. -/
def bareLocation (location : String) : String :=
  match location.toList with
  | 'c' :: 't' :: 'x' :: '.' :: rest => String.ofList rest
  | _ => location

/-- The segments of a location, unless one of them is empty. -/
def locationPath (location : String) : Except Expr.Fault (List String) :=
  let segments := Text.dotted (bareLocation location)
  if "" ∈ segments then .error (.badLocation (bareLocation location)) else .ok segments

/-- Assigns a value at a location. -/
def assign (c : κ) (location : String) (value : Json) : Except Error κ :=
  match locationPath location with
  | .error f => .error (.invalidExpression f)
  | .ok path => .ok (writePath c path value)

end Statechart
