import Statechart.Json.Token
import Statechart.Tree.Reading

/-!
# Reading JSON text

* `Tree.ofJsonText?` is the tree of a JSON text;
* `Json.ofText?` is its value, if every part of it has one.

Lists and records may be nested `maxDepth` deep.  What lies deeper must still be well formed, but
cannot be read.
-/

namespace Statechart

namespace Tree

open Json (Token)

/-- How deep the lists and records that are read may be nested. -/
def maxDepth : Nat := 127

/-- A list or record at a given depth. -/
def atDepth (depth : Nat) (t : Tree) : Tree := if depth < maxDepth then t else unreadable

mutual

/-- The tree at the front of some tokens, inside of `depth` lists and records.  Every step takes a
token, so `fuel` need not exceed their number. -/
def parse (fuel depth : Nat) (tokens : List Token) : Option (Tree × List Token) :=
  match fuel, tokens with
  | 0, _ => none
  | _, [] => none
  | fuel + 1, token :: rest =>
    match token with
    | .null => some (null, rest)
    | .bool b => some (bool b, rest)
    | .numeral n =>
      match n.number? with
      | some x => some (number x, rest)
      | none => some (unreadable, rest)
    | .string (some s) => some (text s, rest)
    | .string none => some (unreadable, rest)
    | .openList =>
      match rest with
      | .closeList :: rest => some (atDepth depth (list []), rest)
      | _ => (parseItems fuel (depth + 1) rest).map fun (items, rest) =>
          (atDepth depth (list items), rest)
    | .openRecord =>
      match rest with
      | .closeRecord :: rest => some (atDepth depth (record []), rest)
      | _ => (parseFields fuel (depth + 1) rest).map fun (fields, rest) =>
          (atDepth depth (record fields), rest)
    | _ => none

/-- The items of a list that is not empty, up to the end of the list. -/
def parseItems (fuel depth : Nat) (tokens : List Token) : Option (List Tree × List Token) :=
  match fuel with
  | 0 => none
  | fuel + 1 =>
    match parse fuel depth tokens with
    | some (t, .comma :: rest) => (parseItems fuel depth rest).map fun (ts, rest) => (t :: ts, rest)
    | some (t, .closeList :: rest) => some ([t], rest)
    | _ => none

/-- The fields of a record that is not empty, up to the end of the record. -/
def parseFields (fuel depth : Nat) (tokens : List Token) :
    Option (List (Option String × Tree) × List Token) :=
  match fuel, tokens with
  | fuel + 1, .string name :: .colon :: rest =>
    match parse fuel depth rest with
    | some (t, .comma :: rest) =>
      (parseFields fuel depth rest).map fun (ts, rest) => ((name, t) :: ts, rest)
    | some (t, .closeRecord :: rest) => some ([(name, t)], rest)
    | _ => none
  | _, _ => none

end

/-- The tree of a JSON text. -/
def ofJsonText? (s : String) : Option Tree :=
  match Token.scan s with
  | none => none
  | some tokens =>
    match parse (2 * tokens.length) 0 tokens with
    | some (t, []) => some t
    | _ => none

end Tree

/-- The value of a JSON text. -/
def Json.ofText? (s : String) : Option Json := (Tree.ofJsonText? s).bind Tree.value?

end Statechart
