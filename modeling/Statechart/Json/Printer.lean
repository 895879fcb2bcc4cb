import Statechart.Decimal.Layout
import Statechart.Json.Basic

/-!
# Compact JSON text

`Json.write` prints a value without blanks, the fields of an object in their order.
-/

namespace Statechart

/-- Numbers are written plainly from one hundred-thousandth to below ten quadrillion, with a plus
sign before a positive power of ten otherwise; a tie goes to the even digit. -/
def Number.layout : Layout := ⟨-5, 15, "+", .toEven⟩

/-- The text of a number. -/
def Number.write : Number → String
  | integer i => toString i
  | double x => if x.isFinite then layout.write x else "null"

namespace Json

/-- How a character is written inside a string: quotes, backslashes and controls are escaped. -/
def escape (c : Char) : List Char :=
  if c = '"' then ['\\', '"']
  else if c = '\\' then ['\\', '\\']
  else if c = '\x08' then ['\\', 'b']
  else if c = '\x0c' then ['\\', 'f']
  else if c = '\n' then ['\\', 'n']
  else if c = '\r' then ['\\', 'r']
  else if c = '\t' then ['\\', 't']
  else if c.toNat < 0x20 then
    ['\\', 'u', '0', '0', Nat.digitChar (c.toNat / 16), Nat.digitChar (c.toNat % 16)]
  else [c]

/-- The text of a string. -/
def writeString (s : String) : String := String.ofList ('"' :: s.toList.flatMap escape ++ ['"'])

mutual

/-- The compact text of a value. -/
def write : Json → String
  | null => "null"
  | bool true => "true"
  | bool false => "false"
  | number n => n.write
  | string s => writeString s
  | array items => "[" ++ ",".intercalate (writeItems items) ++ "]"
  | object fields => "\x7b" ++ ",".intercalate (writeFields fields) ++ "\x7d"

/-- The texts of the items of an array. -/
def writeItems : List Json → List String
  | [] => []
  | v :: vs => write v :: writeItems vs

/-- The texts of the fields of an object. -/
def writeFields : List (String × Json) → List String
  | [] => []
  | (k, v) :: rest => (writeString k ++ ":" ++ write v) :: writeFields rest

end

end Json

end Statechart
