import Statechart.Expr.Eval
import Statechart.Expr.Parser

/-!
# Evaluators

An `Evaluator` evaluates the texts of guards and of executable content.  It may remember something
between calls, its memory of type `σ`, but it cannot change the context.  The default one remembers
the expressions it has parsed; `cached` counts them.
-/

namespace Statechart

/-- What evaluates guards and values. -/
structure Evaluator (κ σ : Type) where
  /-- The value of a text. -/
  evaluate : κ → String → σ → Except Error Json × σ
  /-- The truth of a text as a guard. -/
  condition : κ → String → σ → Except Error Bool × σ

/-- The expressions that have been parsed so far, each under its text. -/
structure Cache where
  entries : List (String × Expr)
  deriving Repr

namespace Cache

/-- Nothing parsed yet. -/
def empty : Cache := ⟨[]⟩

/-- How many texts have been parsed. -/
def cached (m : Cache) : Nat := m.entries.length

/-- The expression of a text, parsed unless it has been before.  A text that cannot be parsed is not
remembered. -/
def compile (m : Cache) (text : String) : Except Error Expr × Cache :=
  match m.entries.lookup text with
  | some e => (.ok e, m)
  | none =>
    match Expr.parse text with
    | .error f => (.error (.invalidExpression f), m)
    | .ok e => (.ok e, ⟨(text, e) :: m.entries⟩)

/-- The value of a text. -/
def evaluate {κ : Type} [Context κ] (c : κ) (text : String) (m : Cache) :
    Except Error Json × Cache :=
  match m.compile text with
  | (.error e, m) => (.error e, m)
  | (.ok e, m) => (e.eval c, m)

/-- The truth of a text's value. -/
def condition {κ : Type} [Context κ] (c : κ) (text : String) (m : Cache) :
    Except Error Bool × Cache :=
  match m.evaluate c text with
  | (.error e, m) => (.error e, m)
  | (.ok v, m) => (.ok v.isTruthy, m)

end Cache

/-- The default evaluator. -/
def Evaluator.standard (κ : Type) [Context κ] : Evaluator κ Cache :=
  ⟨fun c text m => m.evaluate c text, fun c text m => m.condition c text⟩

end Statechart
