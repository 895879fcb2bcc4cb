import Statechart.Text.Blank
import Statechart.Tree.Plain

/-!
# Reading typed data from trees

Each reader asks a tree for one type and refuses every other shape.

* `string?`, `bool?`, `size?`, `optional?`, `list?` read scalars and lists;
* `words?` reads words from one text, or from a list of texts;
* `fields?` reads the declared fields of a record, which may also be given as a list in the order of
  their declaration;
* `choice?` reads one alternative out of several;
* `value?` reads a JSON value.
-/

namespace Statechart.Tree

/-- A text; a plain scalar is taken as it is written. -/
def string? : Tree → Option String
  | text s => some s
  | plain s => some s
  | tagged _ body => string? body
  | _ => none

/-- A boolean. -/
def bool? : Tree → Option Bool
  | bool b => some b
  | plain s => Plain.bool? s
  | tagged _ body => bool? body
  | _ => none

/-- A whole number from `0` to `2 ^ 64 - 1`. -/
def size? : Tree → Option Nat
  | number (.integer (.ofNat n)) => some n
  | plain s =>
    match Plain.integer? s with
    | some (.ofNat n) => if n < Nat.pow 2 64 then some n else none
    | _ => none
  | tagged _ body => size? body
  | _ => none

/-- Whether a plain scalar stands for the absence of a value. -/
def isAbsent (s : String) : Bool := s = "" || Plain.isNull s

/-- The tag that says null. -/
def nullTag : String := "tag:yaml.org,2002:null"

/-- Something that may be absent. -/
def optional? (read : Tree → Option α) : Tree → Option (Option α)
  | null => some none
  | plain s => if isAbsent s then some none else (read (plain s)).map some
  | tagged tag (plain s) =>
    if tag = nullTag then if Plain.isNull s then some none else none
    else (read (plain s)).map some
  | t => (read t).map some

/-- A list; an empty plain scalar is the empty list. -/
def list? (read : Tree → Option α) (t : Tree) : Option (List α) :=
  match t.untagged with
  | list items => items.mapM read
  | plain s => if s = "" then some [] else none
  | _ => none

/-- A scalar with the type that it has where any type may stand; a core tag decides the type of a
scalar, and any other tag is refused. -/
def resolve : Tree → Option Tree
  | plain s => Plain.resolve s
  | unreadable => none
  | tagged tag body =>
    if tag.toList.head? = some '!' then none
    else match body, scalarText body with
      | _, some s =>
        if tag = nullTag then if Plain.isNull s then some null else none
        else if tag = "tag:yaml.org,2002:bool" then (Plain.bool? s).map bool
        else if tag = "tag:yaml.org,2002:int" then
          match Plain.integer? s with
          | some i => if -Int.pow 2 63 ≤ i ∧ i < Int.pow 2 64 then some (number (.integer i)) else none
          | none => none
        else if tag = "tag:yaml.org,2002:float" then (Plain.float? s).map (number ∘ .double)
        else some (text s)
      | body, none => some body
  | t => some t
where
  /-- The text of a scalar. -/
  scalarText : Tree → Option String
    | plain s => some s
    | text s => some s
    | _ => none

/-- Words: those of one text, or those of a list of texts, or none where nothing is written. -/
def words? (t : Tree) : Option (List String) :=
  match resolve t with
  | some null => some []
  | some (text s) => some (Text.words s)
  | some (list items) => (items.mapM string?).map fun texts => texts.flatMap Text.words
  | _ => none

/-- The values of the declared fields; a field that is not given has none. -/
abbrev Given := List (String × Tree)

/-- Adds one field of a record: an undeclared one is skipped, a repeated one refused. -/
def give (declared : List String) (given : Given) : Option String × Tree → Option Given
  | (none, _) => none
  | (some name, t) =>
    if name ∉ declared then some given
    else if (given.lookup name).isSome then none
    else some (given ++ [(name, t)])

/-- The fields of a record that are declared.  They may also be the items of a list, in the order of
their declaration and without the last ones; nothing written means no field. -/
def fields? (declared : List String) (t : Tree) : Option Given :=
  match t.untagged with
  | record fields => fields.foldlM (give declared) []
  | list items => if items.length ≤ declared.length then some (declared.zip items) else none
  | plain s => if s = "" then some [] else none
  | _ => none

namespace Given

/-- A field that must be given. -/
def required (given : Given) (name : String) (read : Tree → Option α) : Option α :=
  match given.lookup name with
  | some t => read t
  | none => none

/-- A field that has a value of its own where it is not given. -/
def orElse (given : Given) (name : String) (read : Tree → Option α) (default : α) : Option α :=
  match given.lookup name with
  | some t => read t
  | none => some default

end Given

/-- The chosen one of several alternatives, with its body unless it is written as a bare word. -/
def choice? (d : Dialect) : Tree → Option (String × Option Tree)
  | text s => some (s, none)
  | plain s => some (s, none)
  | record [(some name, body)] => if d.choiceByName then some (name, some body) else none
  | tagged tag body =>
    match tag.toList with
    | '!' :: name => if d.choiceByTag then some (String.ofList name, some body) else none
    | _ => match body with
      | text s => some (s, none)
      | plain s => some (s, none)
      | _ => none
  | _ => none

/-- An alternative without fields. -/
def word? (d : Dialect) (t : Tree) : Option String :=
  match choice? d t with
  | some (name, none) => some name
  | some (name, some null) => some name
  | some (name, some (plain s)) => if isAbsent s then some name else none
  | _ => none

/-- The fields of a chosen alternative. -/
def choiceFields? (d : Dialect) (declared : List String) (t : Tree) : Option Given :=
  match t with
  | list _ => if d.choiceAsList then fields? declared t else none
  | t => fields? declared t

/-- The value of a number; one that is not finite is null. -/
def ofNumber : Number → Json
  | .integer i => .number (.integer i)
  | .double x => if x.isFinite then .number (.double x) else .null

/-- The value of a scalar whose type is known. -/
def scalar? : Tree → Option Json
  | null => some .null
  | bool b => some (.bool b)
  | number n => some (ofNumber n)
  | text s => some (.string s)
  | _ => none

mutual

/-- A JSON value.  A number that is not finite is null; of fields with one name the last counts. -/
def value? (t : Tree) : Option Json :=
  match t with
  | unreadable => none
  | null => some .null
  | bool b => some (.bool b)
  | number n => some (ofNumber n)
  | text s => some (.string s)
  | list items => (values? items).map .array
  | record fields => (pairs? fields).map .ofFields
  | plain s => (Plain.resolve s).bind scalar?
  | tagged tag body =>
    if tag.toList.head? = some '!' then none
    else match body with
      | list items => (values? items).map .array
      | record fields => (pairs? fields).map .ofFields
      | body => (resolve (tagged tag body)).bind scalar?

/-- The values of the items of a list. -/
def values? : List Tree → Option (List Json)
  | [] => some []
  | t :: ts => do
    let v ← value? t
    let vs ← values? ts
    return v :: vs

/-- The values of the fields of a record. -/
def pairs? : List (Option String × Tree) → Option (List (String × Json))
  | [] => some []
  | (name, t) :: rest => do
    let name ← name
    let v ← value? t
    let vs ← pairs? rest
    return (name, v) :: vs

end

end Statechart.Tree
