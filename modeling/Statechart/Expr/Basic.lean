import Statechart.Json.Basic

/-!
# Expressions

The expressions of guards and of executable content: literals, variables, negation, conjunction,
disjunction and comparison.
-/

namespace Statechart

/-- A comparison operator. -/
inductive Comparison
  | eq
  | ne
  | gt
  | ge
  | lt
  | le
  deriving DecidableEq, Repr

namespace Comparison

/-- How an operator is written. -/
def symbol : Comparison → String
  | eq => "=="
  | ne => "!="
  | gt => ">"
  | ge => ">="
  | lt => "<"
  | le => "<="

/-- The word for an operator in messages. -/
def word : Comparison → String
  | eq => "Eq"
  | ne => "Ne"
  | gt => "Gt"
  | ge => "Ge"
  | lt => "Lt"
  | le => "Le"

end Comparison

/-- An expression. -/
inductive Expr
  | literal (value : Json)
  /-- A variable, or a place inside of one. -/
  | field (path : List String)
  | not (inner : Expr)
  | and (left right : Expr)
  | or (left right : Expr)
  | compare (op : Comparison) (left right : Expr)
  deriving Repr, Inhabited

end Statechart
