/-!
# Shortest decimals

A finite double stands for every real number that rounds to it.  Its shortest decimal is the one
with the fewest digits among those reals, and of those with that many digits the nearest one.

* `Dyadic` is a positive binary fraction `mantissa * 2 ^ exponent` with its interval of reals;
* `Decimal` is `digits * 10 ^ exponent`;
* `shortest` tries one digit, then two, and takes the first grid of decimals that meets the interval.
-/

namespace Statechart

/-- The number `digits * 10 ^ exponent`. -/
structure Decimal where
  digits : Nat
  exponent : Int
  deriving DecidableEq, Repr

/-- The double `mantissa * 2 ^ exponent`.  `lowerGap` tells that the next double below is only half
as far away as the next one above, which is so at a power of two. -/
structure Dyadic where
  mantissa : Nat
  exponent : Int
  lowerGap : Bool
  deriving DecidableEq, Repr

/-- Which of two decimals at the same distance is taken. -/
inductive Tie
  | toEven
  | up
  deriving DecidableEq, Repr

namespace Dyadic

/-- The magnitude of a finite double, from its bits: eleven of exponent, fifty-two of fraction. -/
def ofFloat (x : Float) : Dyadic :=
  let bits := x.toBits.toNat
  let fraction : Nat := bits % Nat.pow 2 52
  let field : Nat := bits / Nat.pow 2 52 % Nat.pow 2 11
  if field = 0 then ⟨fraction, -1074, false⟩
  else ⟨fraction + Nat.pow 2 52, (field : Int) - 1075, fraction = 0 && 1 < field⟩

/-- The same number as a quotient of natural numbers. -/
def ratio (d : Dyadic) : Nat × Nat :=
  match d.exponent with
  | .ofNat e => (d.mantissa * Nat.pow 2 e, 1)
  | .negSucc e => (d.mantissa, Nat.pow 2 (e + 1))

/-- Whether the quotient `num / den` rounds to this double.  The interval reaches half way to both
neighbours, and its ends belong to it when the mantissa is even. -/
def covers (d : Dyadic) (num den : Nat) : Bool :=
  let (n, q) := d.ratio
  -- everything times `4 * mantissa`, so that the half gaps are whole numbers
  let point := 4 * d.mantissa * num * q
  let unit := n * den
  let low := (4 * d.mantissa - if d.lowerGap then 1 else 2) * unit
  let high := (4 * d.mantissa + 2) * unit
  if d.mantissa % 2 = 0 then low ≤ point && point ≤ high else low < point && point < high

end Dyadic

namespace Decimal

/-- The decimal as a quotient of natural numbers. -/
def ratio (d : Decimal) : Nat × Nat :=
  match d.exponent with
  | .ofNat e => (d.digits * Nat.pow 10 e, 1)
  | .negSucc e => (d.digits, Nat.pow 10 (e + 1))

/-- The same number without trailing zeros in its digits. -/
def normalize : Nat → Decimal → Decimal
  | 0, d => d
  | fuel + 1, d =>
    if d.digits ≠ 0 ∧ d.digits % 10 = 0 then normalize fuel ⟨d.digits / 10, d.exponent + 1⟩ else d

/-- How many digits a positive number has before its decimal point; for a number below one, minus
the count of zeros behind the point.  `fuel` bounds the zeros. -/
def pointOf (num den : Nat) : Nat → Int
  | 0 => 0
  | fuel + 1 =>
    if num < den then
      if den ≤ num * 10 then 0 else pointOf (num * 10) den fuel - 1
    else (Nat.toDigits 10 (num / den)).length

/-- The decimals with exponent `e` just below and just above `num / den`, where the first may be
the number itself, and how far away they are in one common unit. -/
def neighbours (num den : Nat) (e : Int) : (Decimal × Nat) × (Decimal × Nat) :=
  let (n, q) := match e with
    | .ofNat k => (num, den * Nat.pow 10 k)
    | .negSucc k => (num * Nat.pow 10 (k + 1), den)
  ((⟨n / q, e⟩, n % q), (⟨n / q + 1, e⟩, q - n % q))

/-- The better of the two neighbours that a double covers, if it covers one. -/
def bestOn (tie : Tie) (d : Dyadic) (e : Int) : Option Decimal :=
  let (num, den) := d.ratio
  let ((below, down), (above, up)) := neighbours num den e
  let hit (x : Decimal) : Bool := 0 < x.digits && d.covers x.ratio.1 x.ratio.2
  match hit below, hit above with
  | false, false => none
  | true, false => some below
  | false, true => some above
  | true, true =>
    if down < up then some below
    else if up < down then some above
    else match tie with
      | .up => some above
      | .toEven => if below.digits % 2 = 0 then some below else some above

/-- Tries `count` digits, then one more, at most `fuel` times. -/
def search (tie : Tie) (d : Dyadic) (point : Int) (count : Nat) : Nat → Option Decimal
  | 0 => none
  | fuel + 1 =>
    match bestOn tie d (point - count) with
    | some x => some x
    | none => search tie d point (count + 1) fuel

/-- The shortest decimal of a positive double.  Seventeen digits always suffice. -/
def shortest (tie : Tie) (d : Dyadic) : Decimal :=
  let (num, den) := d.ratio
  match search tie d (pointOf num den 400) 1 17 with
  | some x => normalize 20 x
  | none => ⟨d.mantissa, 0⟩

end Decimal

end Statechart
