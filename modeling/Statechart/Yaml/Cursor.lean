import Statechart.Text.Digits

/-!
# Reading YAML character by character

A `Cursor` is a place in a text: what follows it, its line and column, and how many characters stand
before it.  Blanks are spaces and tabs; line breaks are line feeds, carriage returns, and the
separators of Unicode.
-/

namespace Statechart.Yaml

/-- A place in a text. -/
structure Cursor where
  rest : List Char
  line : Nat
  column : Nat
  /-- How many characters stand before the place. -/
  index : Nat
  deriving Repr

/-- Whether a character may stand in a text at all. -/
def isAllowed (c : Char) : Bool :=
  let n := c.toNat
  n = 0x09 || n = 0x0A || n = 0x0D || (0x20 ≤ n && n ≤ 0x7E) || n = 0x85 ||
    (0xA0 ≤ n && n ≤ 0xFFFD) || 0x10000 ≤ n

/-- A space or a tab. -/
def isBlank (c : Char) : Bool := c = ' ' || c = '\t'

/-- A line break. -/
def isBreak (c : Char) : Bool :=
  c = '\n' || c = '\r' || c.toNat = 0x85 || c.toNat = 0x2028 || c.toNat = 0x2029

/-- A character of names: an ASCII letter or digit, an underscore or a dash. -/
def isNameChar (c : Char) : Bool := c.isAlphanum || c = '_' || c = '-'

namespace Cursor

/-- The start of a text. -/
def start (cs : List Char) : Cursor := ⟨cs, 0, 0, 0⟩

/-- The character at a place; at the end there is none. -/
def peek (c : Cursor) : Option Char := c.rest.head?

/-- The character `n` places further on. -/
def peekAt (c : Cursor) (n : Nat) : Option Char := c.rest[n]?

/-- Whether a given character stands at the place. -/
def sees (c : Cursor) (ch : Char) : Bool := c.peek = some ch

/-- Whether a blank stands at the place. -/
def seesBlank (c : Cursor) : Bool := c.peek.any isBlank

/-- Whether a line break stands at the place. -/
def seesBreak (c : Cursor) : Bool := c.peek.any isBreak

/-- Whether a blank, a line break or the end is `n` places further on. -/
def endsAt (c : Cursor) (n : Nat) : Bool := (c.peekAt n).all fun ch => isBlank ch || isBreak ch

/-- Whether a line starts here with one of the two marks between documents. -/
def atDocumentMark (c : Cursor) : Bool :=
  c.column = 0 && c.endsAt 3 &&
    (c.rest.take 3 = ['-', '-', '-'] || c.rest.take 3 = ['.', '.', '.'])

/-- Goes on by one character of the line. -/
def next (c : Cursor) : Cursor :=
  { c with rest := c.rest.drop 1, column := c.column + 1, index := c.index + 1 }

/-- Goes on by `n` characters of the line. -/
def skip (c : Cursor) (n : Nat) : Cursor :=
  { c with rest := c.rest.drop n, column := c.column + n, index := c.index + n }

/-- Goes on while characters satisfy `p`. -/
def skipWhile (c : Cursor) (p : Char → Bool) : Cursor := c.skip (c.rest.takeWhile p).length

/-- Takes a line break: what it counts as, and the place behind it. -/
def takeBreak (c : Cursor) : List Char × Cursor :=
  match c.rest with
  | '\r' :: '\n' :: rest => (['\n'], ⟨rest, c.line + 1, 0, c.index + 2⟩)
  | ch :: rest =>
    let read := if ch.toNat = 0x2028 || ch.toNat = 0x2029 then [ch] else ['\n']
    (read, ⟨rest, c.line + 1, 0, c.index + 1⟩)
  | [] => ([], c)

/-- Skips blanks, a comment and a line break, which must follow. -/
def finishLine? (c : Cursor) : Option Cursor :=
  let c := c.skipWhile isBlank
  let c := if c.sees '#' then c.skipWhile (! isBreak ·) else c
  if c.seesBreak then some c.takeBreak.2
  else if c.rest.isEmpty then some c
  else none

end Cursor

end Statechart.Yaml
