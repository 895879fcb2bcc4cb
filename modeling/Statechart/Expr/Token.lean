import Statechart.Decimal.Layout
import Statechart.Expr.Basic
import Statechart.Text.Digits
import Statechart.Text.Quoted

/-!
# The tokens of expressions

* `Numeral` is a number as it is written; `Numeral.toFloat` is the nearest double and
  `Numeral.segment?` the whole number that names an item of an array;
* `Token.describe` is a token as messages name it.
-/

namespace Statechart.Expr

/-- A number as it is written: a sign, the digits before the point and those behind it. -/
structure Numeral where
  negative : Bool
  whole : List Char
  fraction : List Char
  deriving DecidableEq, Repr

namespace Numeral

/-- The nearest double. -/
def toFloat (n : Numeral) : Float :=
  let x := Float.ofScientific (Text.decimalValue (n.whole ++ n.fraction)) true n.fraction.length
  if n.negative then -x else x

/-- The decimal digits of a numeral that stands for a whole number which is not negative.  A double
represents every whole number below `2 ^ 53`; any other numeral counts as the double that it rounds
to, and as `2 ^ 64 - 1` if that is larger. -/
def segment? (n : Numeral) : Option String :=
  let value := Text.decimalValue n.whole
  if n.negative = false ∧ n.fraction = [] ∧ value < Nat.pow 2 53 then some (toString value)
  else
    let x := n.toFloat
    if x.isFinite ∧ 0.0 ≤ x ∧ x.floor == x then some (toString x.toUInt64.toNat) else none

end Numeral

/-- A token of an expression. -/
inductive Token
  | ident (word : String)
  | dot
  | number (value : Numeral)
  | string (value : String)
  | compare (op : Comparison)
  | not
  | and
  | or
  | openParen
  | closeParen
  deriving DecidableEq, Repr

/-- In messages doubles are written plainly from one ten-thousandth to below ten quadrillion, without
a plus sign before a power of ten; a tie goes to the larger digit. -/
def messageLayout : Layout := ⟨-4, 15, "", .up⟩

/-- A double as messages name it. -/
def describeFloat (x : Float) : String :=
  if x.isFinite then messageLayout.write x else if x < 0.0 then "-inf" else "inf"

namespace Token

/-- A token as messages name it. -/
def describe : Token → String
  | ident w => "Ident(" ++ Text.quoted w ++ ")"
  | dot => "Dot"
  | number n => "Number(" ++ describeFloat n.toFloat ++ ")"
  | string s => "Str(" ++ Text.quoted s ++ ")"
  | compare op => "Cmp(" ++ op.word ++ ")"
  | not => "Not"
  | and => "And"
  | or => "Or"
  | openParen => "LParen"
  | closeParen => "RParen"

end Token

/-- What can be wrong with the text of an expression, or with the place of an assignment. -/
inductive Fault
  | empty
  | unterminatedString
  | unexpectedCharacter (c : Char)
  | unexpectedToken (t : Token)
  | endOfExpression
  | unclosedParen
  | infiniteNumber (n : Numeral)
  | unknownWord (word : String)
  | missingField
  | missingPath
  | badLocation (location : String)
  deriving Repr

namespace Fault

/-- The wording of a fault. -/
def message : Fault → String
  | empty => "empty expression"
  | unterminatedString => "unterminated string"
  | unexpectedCharacter c => "unexpected character '" ++ c.toString ++ "'"
  | unexpectedToken t => "unexpected " ++ t.describe
  | endOfExpression => "unexpected end of expression"
  | unclosedParen => "expected ')'"
  | infiniteNumber n => "invalid number: '" ++ describeFloat n.toFloat ++ "'"
  | unknownWord w => "unknown identifier '" ++ w ++ "'; variables are read as ctx.<name>"
  | missingField => "expected field name after '.'"
  | missingPath => "field must be written as ctx.<name>"
  | badLocation l => "invalid assignment location '" ++ l ++ "'"

end Fault

end Statechart.Expr
