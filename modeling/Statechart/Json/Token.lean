import Statechart.Json.Basic
import Statechart.Text.Digits

/-!
# The tokens of JSON text

* `Numeral` is a number as it is written, `Numeral.number?` the number it stands for;
* `Token.scan` cuts a text into tokens.

A string that holds half of a surrogate pair is a token without a text: it may stand where nobody
reads it.
-/

namespace Statechart.Json

/-- A number as it is written. -/
structure Numeral where
  negative : Bool
  whole : List Char
  fraction : Option (List Char)
  /-- Whether the exponent is negative, and its digits. -/
  exponent : Option (Bool × List Char)
  deriving DecidableEq, Repr

/-- A token of JSON text. -/
inductive Token
  | openRecord
  | closeRecord
  | openList
  | closeList
  | colon
  | comma
  | null
  | bool (value : Bool)
  | numeral (value : Numeral)
  | string (text : Option String)
  deriving DecidableEq, Repr

namespace Numeral

/-- Multiplies or divides by a power of ten, in steps of `10 ^ 308` when it is far below that.  The
power is rounded to a double first; a result that is too large is refused. -/
def scale (x : Float) (exponent : Int) : Option Float :=
  match exponent with
  | .ofNat e =>
    if e ≤ 308 then
      let y := x * Float.ofScientific 1 false e
      if y.isInf then none else some y
    else if x == 0.0 then some x else none
  | .negSucc e => some (shrink x (e + 1))
where
  /-- Divides by `10 ^ e`. -/
  shrink (x : Float) (e : Nat) : Float :=
    if e ≤ 308 then x / Float.ofScientific 1 false e
    else if x == 0.0 then x
    else shrink (x / Float.ofScientific 1 false 308) (e - 308)
  termination_by e

/-- Appends digits to a significand as long as it stays below `2 ^ 64`.  Gives the significand and
how many digits were taken. -/
def absorb (significand : Nat) : List Char → Nat × Nat
  | [] => (significand, 0)
  | c :: cs =>
    let next := significand * 10 + (c.toNat - '0'.toNat)
    if next < Nat.pow 2 64 then
      let (s, n) := absorb next cs
      (s, n + 1)
    else (significand, 0)

/-- The double with the given significand and power of ten, moved by the written exponent.  An
exponent of more than thirty-one bits leaves zero, unless the number would be too large. -/
def toDouble (n : Numeral) (significand : Nat) (power : Int) : Option Float :=
  let x := Float.ofNat significand
  let size := match n.exponent with
    | none => scale x power
    | some (false, digits) =>
      let e := Text.decimalValue digits
      if e < Nat.pow 2 31 then scale x (power + e) else if significand = 0 then some 0.0 else none
    | some (true, digits) =>
      let e := Text.decimalValue digits
      if e < Nat.pow 2 31 then scale x (power - e) else some 0.0
  size.map fun y => if n.negative then -y else y

/-- The number that a numeral stands for.  Without a point and an exponent it is a whole number if
it fits 64 bits.  Otherwise at most twenty digits are used: the significand stays below `2 ^ 64`,
digits before the point that do not fit count as zeros and those behind the point are dropped. -/
def number? (n : Numeral) : Option Number :=
  let (significand, taken) := absorb 0 n.whole
  let dropped : Int := n.whole.length - taken
  match n.fraction with
  | some digits =>
    let (s, k) := absorb significand digits
    (n.toDouble s (dropped - k)).map .double
  | none =>
    if n.exponent.isSome ∨ dropped ≠ 0 then (n.toDouble significand dropped).map .double
    else if n.negative then
      if significand = 0 ∨ Nat.pow 2 63 < significand then some (.double (-(Float.ofNat significand)))
      else some (.integer (-(significand : Int)))
    else some (.integer significand)

/-- Reads the numeral at the front of a text. -/
def scan (cs : List Char) : Option (Numeral × List Char) := do
  let (negative, cs) := match cs with
    | '-' :: rest => (true, rest)
    | _ => (false, cs)
  let whole := cs.takeWhile Char.isDigit
  let cs := cs.dropWhile Char.isDigit
  if whole.isEmpty ∨ (whole.head? = some '0' ∧ 1 < whole.length) then none
  let (fraction, cs) ← match cs with
    | '.' :: rest =>
      let digits := rest.takeWhile Char.isDigit
      if digits.isEmpty then none else some (some digits, rest.dropWhile Char.isDigit)
    | _ => some (none, cs)
  let (exponent, cs) ← match cs with
    | c :: rest =>
      if c = 'e' ∨ c = 'E' then
        let (down, rest) := match rest with
          | '-' :: r => (true, r)
          | '+' :: r => (false, r)
          | r => (false, r)
        let digits := rest.takeWhile Char.isDigit
        if digits.isEmpty then none else some (some (down, digits), rest.dropWhile Char.isDigit)
      else some (none, c :: rest)
    | [] => some (none, [])
  return (⟨negative, whole, fraction, exponent⟩, cs)

end Numeral

/-- Joins the halves of surrogate pairs.  A half that stands alone has no text. -/
def joinSurrogates : List Nat → Option (List Char)
  | [] => some []
  | u :: rest =>
    if 0xD800 ≤ u ∧ u < 0xDC00 then
      match rest with
      | v :: rest =>
        if 0xDC00 ≤ v ∧ v < 0xE000 then
          (joinSurrogates rest).map
            (Char.ofNat (0x10000 + (u - 0xD800) * 0x400 + (v - 0xDC00)) :: ·)
        else none
      | [] => none
    else if 0xDC00 ≤ u ∧ u < 0xE000 then none
    else (joinSurrogates rest).map (Char.ofNat u :: ·)

/-- Reads a string up to its closing quote: the code points and halves of surrogate pairs in it,
and what follows the quote. -/
def scanString : List Char → Option (List Nat × List Char)
  | [] => none
  | '"' :: rest => some ([], rest)
  | '\\' :: 'u' :: a :: b :: c :: d :: rest => do
    let unit ← Text.number? 16 [a, b, c, d]
    let (units, rest) ← scanString rest
    return (unit :: units, rest)
  | '\\' :: c :: rest => do
    let char ← match c with
      | '"' => some '"'
      | '\\' => some '\\'
      | '/' => some '/'
      | 'b' => some '\x08'
      | 'f' => some '\x0c'
      | 'n' => some '\n'
      | 'r' => some '\r'
      | 't' => some '\t'
      | _ => none
    let (units, rest) ← scanString rest
    return (char.toNat :: units, rest)
  | c :: rest => do
    if c.toNat < 0x20 then none
    let (units, rest) ← scanString rest
    return (c.toNat :: units, rest)

namespace Token

/-- The token that a mark stands for. -/
def ofMark? : Char → Option Token
  | '\x7b' => some openRecord
  | '\x7d' => some closeRecord
  | '[' => some openList
  | ']' => some closeList
  | ':' => some colon
  | ',' => some comma
  | _ => none

/-- The token that a word stands for. -/
def ofWord? : List Char → Option Token
  | ['n', 'u', 'l', 'l'] => some null
  | ['t', 'r', 'u', 'e'] => some (bool true)
  | ['f', 'a', 'l', 's', 'e'] => some (bool false)
  | _ => none

/-- Whether a character may stand between tokens. -/
def isGap (c : Char) : Bool := c = ' ' || c = '\n' || c = '\t' || c = '\r'

/-- The first token of a text that does not start with a gap, and what follows it. -/
def next? (cs : List Char) : Option (Token × List Char) :=
  match cs with
  | [] => none
  | c :: rest =>
    match ofMark? c with
    | some t => some (t, rest)
    | none =>
      if c = '"' then
        (scanString rest).map fun (units, rest) =>
          (string ((joinSurrogates units).map String.ofList), rest)
      else if c = '-' ∨ c.isDigit then
        (Numeral.scan cs).map fun (n, rest) => (numeral n, rest)
      else
        (ofWord? (cs.takeWhile Char.isAlpha)).map fun t => (t, cs.dropWhile Char.isAlpha)

/-- The tokens of a text.  Every token takes a character, so `fuel` need not exceed the text's
length. -/
def scanAll : Nat → List Char → Option (List Token)
  | _, [] => some []
  | 0, _ :: _ => none
  | fuel + 1, c :: rest =>
    if isGap c then scanAll fuel rest
    else do
      let (t, rest) ← next? (c :: rest)
      let ts ← scanAll fuel rest
      return t :: ts

/-- The tokens of a text. -/
def scan (s : String) : Option (List Token) := scanAll s.toList.length s.toList

end Token

end Statechart.Json
