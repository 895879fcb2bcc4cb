import Statechart.Expr.Lexer

/-!
# From tokens to expressions

Recursive descent over the grammar

    or         := and ("||" and)*
    and        := unary ("&&" unary)*
    unary      := "!" unary | comparison
    comparison := operand (op operand)?
    operand    := "(" or ")" | number | string | "true" | "false" | "null" | "ctx" ("." segment)+

Each function gives the expression at the front of its tokens and the tokens behind it, with a proof
that these are fewer; `Expr.ofTokens` asks for all tokens, and `Expr.parse` starts from text.  Seven
functions are called one after the other before a token is taken, which is what their measure counts.
-/

namespace Statechart.Expr

/-- What is left behind an expression at the front of some tokens. -/
abbrev Rest (ts : List Token) := { rest : List Token // rest.length < ts.length }

/-- What is left behind any number of further operands. -/
abbrev RestOrAll (ts : List Token) := { rest : List Token // rest.length ≤ ts.length }

/-- The segments of a path, each behind its dot. -/
def parsePath (ts : List Token) : Except Fault (List String × RestOrAll ts) :=
  match ts with
  | .dot :: .ident w :: rest =>
    match parsePath rest with
    | .ok (path, ⟨after, h⟩) => .ok (w :: path, ⟨after, by simp; omega⟩)
    | .error e => .error e
  | .dot :: .number n :: rest =>
    match n.segment? with
    | some s =>
      match parsePath rest with
      | .ok (path, ⟨after, h⟩) => .ok (s :: path, ⟨after, by simp; omega⟩)
      | .error e => .error e
    | none => .error .missingField
  | .dot :: _ => .error .missingField
  | ts => .ok ([], ⟨ts, Nat.le_refl _⟩)

/-- The value of a word that is a literal. -/
def wordValue? (w : String) : Option Json :=
  if w = "true" then some (.bool true)
  else if w = "false" then some (.bool false)
  else if w = "null" then some .null
  else none

mutual

/-- An operand. -/
def parseOperand (ts : List Token) : Except Fault (Expr × Rest ts) :=
  match ts with
  | [] => .error .endOfExpression
  | .openParen :: rest =>
    match parseOr rest with
    | .error e => .error e
    | .ok (e, ⟨.closeParen :: after, h⟩) => .ok (e, ⟨after, by simp at h ⊢; omega⟩)
    | .ok _ => .error .unclosedParen
  | .number n :: rest =>
    if n.toFloat.isFinite then .ok (.literal (.number (.double n.toFloat)), ⟨rest, by simp⟩)
    else .error (.infiniteNumber n)
  | .string s :: rest => .ok (.literal (.string s), ⟨rest, by simp⟩)
  | .ident w :: rest =>
    match wordValue? w with
    | some v => .ok (.literal v, ⟨rest, by simp⟩)
    | none =>
      if w = "ctx" then
        match parsePath rest with
        | .error e => .error e
        | .ok ([], _) => .error .missingPath
        | .ok (path, ⟨after, h⟩) => .ok (.field path, ⟨after, by simp; omega⟩)
      else .error (.unknownWord w)
  | t :: _ => .error (.unexpectedToken t)
termination_by 7 * ts.length

/-- An operand, or two of them with a comparison operator between them. -/
def parseComparison (ts : List Token) : Except Fault (Expr × Rest ts) :=
  match parseOperand ts with
  | .error e => .error e
  | .ok (left, ⟨.compare op :: rest, h⟩) =>
    match parseOperand rest with
    | .error e => .error e
    | .ok (right, ⟨after, h'⟩) => .ok (.compare op left right, ⟨after, by simp at h; omega⟩)
  | .ok result => .ok result
termination_by 7 * ts.length + 1
decreasing_by
  · omega
  · simp at h; omega

/-- A comparison behind any number of negations. -/
def parseUnary (ts : List Token) : Except Fault (Expr × Rest ts) :=
  match ts with
  | .not :: rest =>
    match parseUnary rest with
    | .error e => .error e
    | .ok (e, ⟨after, h⟩) => .ok (.not e, ⟨after, by simp; omega⟩)
  | ts => parseComparison ts
termination_by 7 * ts.length + 2

/-- Further operands of a conjunction whose first ones are `left`. -/
def parseAndTail (left : Expr) (ts : List Token) : Except Fault (Expr × RestOrAll ts) :=
  match ts with
  | .and :: rest =>
    match parseUnary rest with
    | .error e => .error e
    | .ok (right, ⟨after, h⟩) =>
      match parseAndTail (.and left right) after with
      | .error e => .error e
      | .ok (e, ⟨after', h'⟩) => .ok (e, ⟨after', by simp; omega⟩)
  | ts => .ok (left, ⟨ts, Nat.le_refl _⟩)
termination_by 7 * ts.length + 3

/-- A conjunction. -/
def parseAnd (ts : List Token) : Except Fault (Expr × Rest ts) :=
  match parseUnary ts with
  | .error e => .error e
  | .ok (left, ⟨rest, h⟩) =>
    match parseAndTail left rest with
    | .error e => .error e
    | .ok (e, ⟨after, h'⟩) => .ok (e, ⟨after, by omega⟩)
termination_by 7 * ts.length + 4

/-- Further operands of a disjunction whose first ones are `left`. -/
def parseOrTail (left : Expr) (ts : List Token) : Except Fault (Expr × RestOrAll ts) :=
  match ts with
  | .or :: rest =>
    match parseAnd rest with
    | .error e => .error e
    | .ok (right, ⟨after, h⟩) =>
      match parseOrTail (.or left right) after with
      | .error e => .error e
      | .ok (e, ⟨after', h'⟩) => .ok (e, ⟨after', by simp; omega⟩)
  | ts => .ok (left, ⟨ts, Nat.le_refl _⟩)
termination_by 7 * ts.length + 5

/-- A disjunction. -/
def parseOr (ts : List Token) : Except Fault (Expr × Rest ts) :=
  match parseAnd ts with
  | .error e => .error e
  | .ok (left, ⟨rest, h⟩) =>
    match parseOrTail left rest with
    | .error e => .error e
    | .ok (e, ⟨after, h'⟩) => .ok (e, ⟨after, by omega⟩)
termination_by 7 * ts.length + 6

end

/-- The expression that a list of tokens is. -/
def ofTokens (ts : List Token) : Except Fault Expr :=
  if ts.isEmpty then .error .empty
  else match parseOr ts with
    | .error e => .error e
    | .ok (e, ⟨[], _⟩) => .ok e
    | .ok (_, ⟨t :: _, _⟩) => .error (.unexpectedToken t)

/-- The expression that a text is. -/
def parse (s : String) : Except Fault Expr :=
  match Token.scan s with
  | .error e => .error e
  | .ok ts => ofTokens ts

end Statechart.Expr
