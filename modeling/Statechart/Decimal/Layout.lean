import Statechart.Decimal.Shortest

/-!
# Written decimals

How the digits of a double are laid out: with a decimal point for magnitudes that people read at a
glance, and with a power of ten for the others.
-/

namespace Statechart

/-- A way to write doubles. -/
structure Layout where
  /-- The least power of ten of the leading digit that is written without an exponent. -/
  plainFrom : Int
  /-- The greatest power of ten of the leading digit that is written without an exponent. -/
  plainTo : Int
  /-- What stands before a positive exponent. -/
  plus : String
  /-- Which of two equally good shortest decimals is written. -/
  tie : Tie
  deriving DecidableEq, Repr

namespace Layout

/-- The digits of a number, leading digit first. -/
def digitsOf (n : Nat) : List Char := Nat.toDigits 10 n

/-- A decimal with a point and at least one digit behind it. -/
def plain (d : Decimal) : List Char :=
  let ds := digitsOf d.digits
  match d.exponent with
  | .ofNat e => ds ++ List.replicate e '0' ++ ['.', '0']
  | .negSucc e =>
    let after := e + 1
    if after < ds.length then ds.take (ds.length - after) ++ '.' :: ds.drop (ds.length - after)
    else '0' :: '.' :: List.replicate (after - ds.length) '0' ++ ds

/-- A decimal as its leading digit, the others behind a point, and the power of ten. -/
def scientific (plus : String) (d : Decimal) : List Char :=
  let ds := digitsOf d.digits
  let power := d.exponent + (ds.length - 1 : Nat)
  let exponent := match power with
    | .ofNat e => plus.toList ++ digitsOf e
    | .negSucc e => '-' :: digitsOf (e + 1)
  match ds with
  | [] => 'e' :: exponent
  | [c] => c :: 'e' :: exponent
  | c :: rest => c :: '.' :: rest ++ 'e' :: exponent

/-- The text of a finite double. -/
def write (l : Layout) (x : Float) : String :=
  let body :=
    if x == 0.0 then ['0', '.', '0']
    else
      let d := Decimal.shortest l.tie (Dyadic.ofFloat x)
      let power := d.exponent + ((digitsOf d.digits).length - 1 : Nat)
      if l.plainFrom ≤ power ∧ power ≤ l.plainTo then plain d else scientific l.plus d
  String.ofList (if x.toBits.toNat / Nat.pow 2 63 = 1 then '-' :: body else body)

end Layout

end Statechart
