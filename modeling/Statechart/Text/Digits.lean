/-!
# Whole numbers in text

Reading whole numbers from ASCII digits: `value?` in any base up to sixteen, and `unsigned?` for the
decimal numbers that fit 64 bits.
-/

namespace Statechart.Text

/-- The value of a digit, in bases up to sixteen. -/
def digitValue? (c : Char) : Option Nat :=
  if '0' ≤ c ∧ c ≤ '9' then some (c.toNat - '0'.toNat)
  else if 'a' ≤ c ∧ c ≤ 'f' then some (c.toNat - 'a'.toNat + 10)
  else if 'A' ≤ c ∧ c ≤ 'F' then some (c.toNat - 'A'.toNat + 10)
  else none

/-- Continues a number in base `base` with more digits. -/
def value? (base : Nat) (acc : Nat) : List Char → Option Nat
  | [] => some acc
  | c :: cs =>
    match digitValue? c with
    | some d => if d < base then value? base (acc * base + d) cs else none
    | none => none

/-- The number that a non-empty list of digits stands for. -/
def number? (base : Nat) (cs : List Char) : Option Nat :=
  if cs.isEmpty then none else value? base 0 cs

/-- The number that a list of decimal digits stands for; other characters count as zero. -/
def decimalValue (cs : List Char) : Nat :=
  cs.foldl (fun n c => n * 10 + (c.toNat - '0'.toNat)) 0

/-- A whole number below `2 ^ 64`, in decimal digits with at most one plus sign before them. -/
def unsigned? (s : String) : Option Nat :=
  let digits := match s.toList with
    | '+' :: cs => cs
    | cs => cs
  match number? 10 digits with
  | some n => if n < Nat.pow 2 64 then some n else none
  | none => none

end Statechart.Text
