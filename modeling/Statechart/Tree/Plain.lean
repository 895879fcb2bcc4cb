import Statechart.Text.Digits
import Statechart.Tree.Basic

/-!
# Plain scalars

The meaning of an unquoted scalar: null, a boolean, a whole number in one of four bases, a decimal
number, or else its own text.

A whole number has at most sixty-four bits.  One with more, up to a hundred and twenty-eight, has
no value here; beyond that it is read as a decimal number.
-/

namespace Statechart.Plain

/-- Whether a scalar is a word for null. -/
def isNull (s : String) : Bool := s ∈ ["null", "Null", "NULL", "~"]

/-- The boolean that a scalar is a word for. -/
def bool? (s : String) : Option Bool :=
  if s ∈ ["true", "True", "TRUE"] then some true
  else if s ∈ ["false", "False", "FALSE"] then some false
  else none

/-- Whether digits follow a leading zero, as in `007`, which is no number. -/
def isPadded (cs : List Char) : Bool :=
  let digits := match cs with
    | '-' :: r => r
    | '+' :: r => r
    | r => r
  match digits with
  | '0' :: c :: r => (c :: r).all Char.isDigit
  | _ => false

/-- The digits behind a base mark, and the base. -/
def based? : List Char → Option (Nat × List Char)
  | '0' :: 'x' :: r => some (16, r)
  | '0' :: 'o' :: r => some (8, r)
  | '0' :: 'b' :: r => some (2, r)
  | _ => none

/-- The magnitude of a whole number, without its sign. -/
def magnitude? (cs : List Char) : Option Nat :=
  match based? cs with
  | some (base, digits) => Text.number? base digits
  | none => if isPadded cs then none else Text.number? 10 cs

/-- The whole number that a scalar stands for, of any size. -/
def integer? (s : String) : Option Int :=
  match s.toList with
  | '-' :: cs => (magnitude? cs).map fun n => -(n : Int)
  | '+' :: cs => (magnitude? cs).map Int.ofNat
  | cs => (magnitude? cs).map Int.ofNat

/-- The decimal number that a list of characters stands for: digits with a point anywhere, an
optional sign before them and an optional power of ten behind them. -/
def decimal? (cs : List Char) : Option Float :=
  let (negative, cs) := match cs with
    | '-' :: r => (true, r)
    | '+' :: r => (false, r)
    | r => (false, r)
  let whole := cs.takeWhile Char.isDigit
  let cs := cs.dropWhile Char.isDigit
  let (fraction, cs) := match cs with
    | '.' :: r => (r.takeWhile Char.isDigit, r.dropWhile Char.isDigit)
    | r => ([], r)
  let power : Option Int := match cs with
    | [] => some 0
    | c :: r =>
      if c = 'e' ∨ c = 'E' then
        match r with
        | '-' :: d => (Text.number? 10 d).map fun n => -(n : Int)
        | '+' :: d => (Text.number? 10 d).map Int.ofNat
        | d => (Text.number? 10 d).map Int.ofNat
      else none
  if whole.isEmpty && fraction.isEmpty then none
  else power.map fun p =>
    let digits := Text.decimalValue (whole ++ fraction)
    let size := magnitude digits (p - fraction.length) (whole ++ fraction).length
    if negative then -size else size
where
  /-- The nearest double of `digits * 10 ^ power`, where `digits` has at most `length` digits. -/
  magnitude (digits : Nat) (power : Int) (length : Nat) : Float :=
    if digits = 0 ∨ power + length < -400 then 0.0
    else if 400 < power then Float.ofScientific 1 false 400
    else match power with
      | .ofNat e => Float.ofScientific digits false e
      | .negSucc e => Float.ofScientific digits true (e + 1)

/-- The number with a point, or the word for an infinity or for no number, that a scalar is. -/
def float? (s : String) : Option Float :=
  let body := match s.toList with
    | '+' :: cs => cs
    | cs => cs
  if s.toList.head? = some '+' ∧ (body.head? = some '+' ∨ body.head? = some '-') then none
  else if String.ofList body ∈ [".inf", ".Inf", ".INF"] then some (1.0 / 0.0)
  else if s ∈ ["-.inf", "-.Inf", "-.INF"] then some (-1.0 / 0.0)
  else if s ∈ [".nan", ".NaN", ".NAN"] then some (0.0 / 0.0)
  else (decimal? body).filter Float.isFinite

/-- What a scalar means where any type may stand. -/
def resolve (s : String) : Option Tree :=
  if s = "" ∨ isNull s then some .null
  else match bool? s with
    | some b => some (.bool b)
    | none =>
      match (integer? s).filter fun i => -Int.pow 2 127 ≤ i ∧ i < Int.pow 2 128 with
      | some i => if -Int.pow 2 63 ≤ i ∧ i < Int.pow 2 64 then some (.number (.integer i)) else none
      | none =>
        match if isPadded s.toList then none else float? s with
        | some x => some (.number (.double x))
        | none => some (.text s)

end Statechart.Plain
