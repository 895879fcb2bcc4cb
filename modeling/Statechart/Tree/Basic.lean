import Statechart.Json.Basic

/-!
# Document trees

What a text says before anybody asks for types.  A `Tree` comes from JSON text, from a JSON value or
from YAML text; the readers of `Statechart.Tree.Reading` turn it into typed data.

* `Tree.plain` is an unquoted scalar whose type depends on the place where it stands;
* `Tree.unreadable` is well formed and may be skipped, but no value can be read from it;
* a record keeps repeated names, and a name that cannot be read is `none`.
-/

namespace Statechart

/-- A document before it is read with types. -/
inductive Tree
  | unreadable
  | null
  | bool (value : Bool)
  | number (value : Number)
  | text (value : String)
  | plain (value : String)
  | list (items : List Tree)
  | record (fields : List (Option String × Tree))
  | tagged (tag : String) (body : Tree)
  deriving Repr, Inhabited

/-- How a kind of document writes a choice between alternatives. -/
structure Dialect where
  /-- The chosen alternative may be the only name of a record. -/
  choiceByName : Bool
  /-- The chosen alternative may be a tag. -/
  choiceByTag : Bool
  /-- The fields of an alternative may be given as a list. -/
  choiceAsList : Bool
  deriving DecidableEq, Repr

namespace Dialect

/-- JSON values. -/
def value : Dialect := ⟨true, false, false⟩

/-- JSON text. -/
def text : Dialect := ⟨true, false, true⟩

/-- Text with tags. -/
def tags : Dialect := ⟨false, true, true⟩

end Dialect

namespace Tree

mutual

/-- The tree of a JSON value. -/
def ofJson : Json → Tree
  | .null => null
  | .bool b => bool b
  | .number n => number n
  | .string s => text s
  | .array items => list (ofItems items)
  | .object fields => record (ofFields fields)

/-- The trees of the items of an array. -/
def ofItems : List Json → List Tree
  | [] => []
  | v :: vs => ofJson v :: ofItems vs

/-- The trees of the fields of an object. -/
def ofFields : List (String × Json) → List (Option String × Tree)
  | [] => []
  | (k, v) :: rest => (some k, ofJson v) :: ofFields rest

end

/-- A tree below its tags. -/
def untagged : Tree → Tree
  | tagged _ body => untagged body
  | t => t

end Tree

end Statechart
