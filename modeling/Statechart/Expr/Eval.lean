import Statechart.Expr.Path

/-!
# Evaluation

* `Json.isTruthy` is the truth of a value as a condition;
* `Comparison.holds` compares two values;
* `Expr.eval` evaluates an expression in a context.
-/

namespace Statechart

namespace Json

/-- The truth of a value: null, false, zero and whatever is empty are false. -/
def isTruthy : Json → Bool
  | null => false
  | bool b => b
  | number n => n.toFloat != 0.0
  | string s => s ≠ ""
  | array items => !items.isEmpty
  | object fields => !fields.isEmpty

/-- Numbers that are nearer than this are equal: `2 ^ -52`. -/
def tolerance : Float := Float.ofBits 0x3CB0000000000000

/-- Equality in expressions: numbers are equal if they are near enough, other values if they are the
same. -/
def equals : Json → Json → Bool
  | number a, number b => (a.toFloat - b.toFloat).abs < tolerance
  | a, b => a.same b

end Json

namespace Comparison

/-- Whether a comparison holds between two doubles. -/
def holdsFor (op : Comparison) (a b : Float) : Bool :=
  match op with
  | eq => a == b
  | ne => a != b
  | gt => a > b
  | ge => a ≥ b
  | lt => a < b
  | le => a ≤ b

/-- Whether a comparison holds between two values.  Order is defined for numbers only. -/
def holds (op : Comparison) (l r : Json) : Except Error Bool :=
  match op, l, r with
  | eq, l, r => .ok (l.equals r)
  | ne, l, r => .ok (!l.equals r)
  | op, .number a, .number b => .ok (op.holdsFor a.toFloat b.toFloat)
  | op, l, r => .error (.unordered l op r)

end Comparison

variable {κ : Type} [Context κ]

/-- The value of an expression.  The right side of a conjunction or disjunction is only evaluated if
the left side does not decide. -/
def Expr.eval (c : κ) : Expr → Except Error Json
  | literal v => .ok v
  | field path => .ok (readPath c path)
  | not inner =>
    match inner.eval c with
    | .error e => .error e
    | .ok v => .ok (.bool !v.isTruthy)
  | and left right =>
    match left.eval c with
    | .error e => .error e
    | .ok l =>
      if l.isTruthy then
        match right.eval c with
        | .error e => .error e
        | .ok r => .ok (.bool r.isTruthy)
      else .ok (.bool false)
  | or left right =>
    match left.eval c with
    | .error e => .error e
    | .ok l =>
      if l.isTruthy then .ok (.bool true)
      else match right.eval c with
        | .error e => .error e
        | .ok r => .ok (.bool r.isTruthy)
  | compare op left right =>
    match left.eval c with
    | .error e => .error e
    | .ok l =>
      match right.eval c with
      | .error e => .error e
      | .ok r =>
        match op.holds l r with
        | .error e => .error e
        | .ok b => .ok (.bool b)

end Statechart
