import Statechart.Yaml.Cursor

/-!
# YAML scalars

The four ways to write a text: plain, between single or double quotes, and as a block whose lines are
kept or folded.

Where a line of a plain or quoted scalar ends, a single line break counts as a space, and of several
ones the first is dropped (`Gap.text`).
-/

namespace Statechart.Yaml

/-- What stands between two words of a scalar: blanks, or line breaks with blanks around them. -/
structure Gap where
  blanks : List Char
  /-- Whether there is a line break. -/
  broken : Bool
  /-- The first line break. -/
  first : List Char
  /-- The further line breaks. -/
  others : List Char
  deriving Repr

namespace Gap

/-- Nothing. -/
def empty : Gap := ⟨[], false, [], []⟩

/-- What a gap counts as. -/
def text (g : Gap) : List Char :=
  if g.broken then
    if g.first = ['\n'] then if g.others.isEmpty then [' '] else g.others
    else g.first ++ g.others
  else g.blanks

/-- Reads blanks and line breaks.  Behind a line break no tab may stand before the column `indent`.
`fuel` bounds the characters. -/
def scan (indent : Int) : Nat → Gap → Cursor → Option (Gap × Cursor)
  | 0, g, c => some (g, c)
  | fuel + 1, g, c =>
    match c.peek with
    | none => some (g, c)
    | some ch =>
      if isBlank ch then
        if g.broken then
          if ch = '\t' ∧ (c.column : Int) < indent then none else scan indent fuel g c.next
        else scan indent fuel { g with blanks := g.blanks ++ [ch] } c.next
      else if isBreak ch then
        let (read, c) := c.takeBreak
        if g.broken then scan indent fuel { g with others := g.others ++ read } c
        else scan indent fuel ⟨[], true, read, []⟩ c
      else some (g, c)

end Gap

/-! ### Plain scalars -/

/-- Whether a plain scalar ends at the place: before a colon that a blank follows and, inside of
brackets, before a bracket or comma. -/
def plainEnds (flow : Bool) (c : Cursor) : Bool :=
  (c.sees ':' && c.endsAt 1) || (flow && c.peek.any fun ch => ch ∈ [',', '[', ']', '\x7b', '\x7d'])

/-- Whether a colon stands at the place and a bracket or comma behind it, which is not allowed inside
of brackets. -/
def badColon (flow : Bool) (c : Cursor) : Bool :=
  flow && c.sees ':' && (c.peekAt 1).any fun ch => ch ∈ [',', '?', '[', ']', '\x7b', '\x7d']

/-- A word of a plain scalar.  `fuel` bounds the characters. -/
def plainWord (flow : Bool) : Nat → Cursor → Option (List Char × Cursor)
  | 0, c => some ([], c)
  | fuel + 1, c =>
    match c.peek with
    | none => some ([], c)
    | some ch =>
      if isBlank ch || isBreak ch then some ([], c)
      else if badColon flow c then none
      else if plainEnds flow c then some ([], c)
      else (plainWord flow fuel c.next).map fun (word, c) => (ch :: word, c)

/-- A plain scalar, behind the gap `g` that has been read already: its text, whether it ends with a
line break, and the place behind it.  Outside of brackets its further lines must be indented to the
column `indent`. -/
def scanPlain (flow : Bool) (indent : Int) : Nat → Gap → Cursor → Option (List Char × Bool × Cursor)
  | 0, _, _ => none
  | fuel + 1, g, c =>
    if c.atDocumentMark || c.sees '#' then some ([], g.broken, c)
    else do
      let (word, c) ← plainWord flow c.rest.length c
      let lead := if word.isEmpty then [] else g.text ++ word
      let open' := if word.isEmpty then g else .empty
      if c.seesBlank || c.seesBreak then
        let (gap, c) ← Gap.scan indent c.rest.length open' c
        if !flow && (c.column : Int) < indent then return (lead, gap.broken, c)
        let (more, broken, c) ← scanPlain flow indent fuel gap c
        return (lead ++ more, broken, c)
      else return (lead, open'.broken, c)

/-! ### Quoted scalars -/

/-- The character that an escape of one letter stands for. -/
def escape? (c : Char) : Option Char :=
  match c with
  | '0' => some '\x00'
  | 'a' => some '\x07'
  | 'b' => some '\x08'
  | 't' => some '\t'
  | '\t' => some '\t'
  | 'n' => some '\n'
  | 'v' => some '\x0b'
  | 'f' => some '\x0c'
  | 'r' => some '\r'
  | 'e' => some '\x1b'
  | ' ' => some ' '
  | '"' => some '"'
  | '/' => some '/'
  | '\\' => some '\\'
  | 'N' => some (Char.ofNat 0x85)
  | '_' => some (Char.ofNat 0xA0)
  | 'L' => some (Char.ofNat 0x2028)
  | 'P' => some (Char.ofNat 0x2029)
  | _ => none

/-- How many hexadecimal digits follow a letter that starts a numeric escape. -/
def escapeLength? (c : Char) : Option Nat :=
  match c with
  | 'x' => some 2
  | 'u' => some 4
  | 'U' => some 8
  | _ => none

/-- The character that an escape stands for, and the place behind it. -/
def scanEscape (c : Cursor) : Option (Char × Cursor) := do
  let letter ← c.peekAt 1
  match escapeLength? letter with
  | none =>
    let ch ← escape? letter
    return (ch, c.skip 2)
  | some n =>
    let digits := (c.rest.drop 2).take n
    let code ← Text.number? 16 digits
    if digits.length = n ∧ code ≤ 0x10FFFF ∧ ¬ (0xD800 ≤ code ∧ code ≤ 0xDFFF) then
      return (Char.ofNat code, c.skip (2 + n))
    else none

/-- A word of a quoted scalar: its characters, whether an escaped line break ends it, and the place
behind it. -/
def quotedWord (quote : Char) : Nat → Cursor → Option (List Char × Bool × Cursor)
  | 0, c => some ([], false, c)
  | fuel + 1, c =>
    match c.peek with
    | none => some ([], false, c)
    | some ch =>
      if isBlank ch || isBreak ch then some ([], false, c)
      else if quote = '\'' && ch = '\'' && c.peekAt 1 = some '\'' then
        (quotedWord quote fuel (c.skip 2)).map fun (word, r) => ('\'' :: word, r)
      else if ch = quote then some ([], false, c)
      else if quote = '"' && ch = '\\' then
        if (c.peekAt 1).any isBreak then some ([], true, c.next.takeBreak.2)
        else do
          let (ch, c) ← scanEscape c
          let (word, r) ← quotedWord quote fuel c
          return (ch :: word, r)
      else (quotedWord quote fuel c.next).map fun (word, r) => (ch :: word, r)

/-- A quoted scalar from behind its first quote to behind its last one. -/
def scanQuoted (quote : Char) : Nat → Cursor → Option (List Char × Cursor)
  | 0, _ => none
  | fuel + 1, c =>
    if c.atDocumentMark || c.rest.isEmpty then none
    else do
      let (word, escaped, c) ← quotedWord quote c.rest.length c
      if c.sees quote && !escaped then return (word, c.next)
      else
        let (gap, c) ← Gap.scan 0 c.rest.length { Gap.empty with broken := escaped } c
        let (more, c) ← scanQuoted quote fuel c
        return (word ++ gap.text ++ more, c)

/-! ### Block scalars -/

/-- What happens to the line breaks at the end of a block. -/
inductive Chomp
  | strip
  | clip
  | keep
  deriving DecidableEq, Repr

/-- The mark for the end of a block. -/
def chomp? (c : Char) : Option Chomp :=
  match c with
  | '-' => some .strip
  | '+' => some .keep
  | _ => none

/-- The head of a block behind its first mark: how it ends, and how far it is indented if that is
given.  A zero is refused. -/
def blockHead (c : Cursor) : Option (Chomp × Option Nat × Cursor) :=
  let digit? (c : Cursor) : Option (Option Nat × Cursor) :=
    match c.peek with
    | some ch =>
      if ch = '0' then none
      else if ch.isDigit then some (Text.digitValue? ch, c.next)
      else some (none, c)
    | none => some (none, c)
  match c.peek.bind chomp? with
  | some chomp => (digit? c.next).map fun (n, c) => (chomp, n, c)
  | none =>
    match digit? c with
    | none => none
    | some (some n, c) =>
      match c.peek.bind chomp? with
      | some chomp => some (chomp, some n, c.next)
      | none => some (.clip, some n, c)
    | some (none, c) => some (.clip, none, c)

/-- The empty lines before a line of a block: their breaks, the widest indentation of them and the
line, and the place where the line starts.  Without a known indentation all spaces are skipped; a tab
must not stand in the indentation. -/
def blockBreaks (indent : Option Nat) : Nat → Nat → Cursor → Option (List Char × Nat × Cursor)
  | 0, widest, c => some ([], widest, c)
  | fuel + 1, widest, c =>
    let spaces := (c.rest.takeWhile (· = ' ')).length
    let c := c.skip (match indent with
      | some n => min spaces (n - c.column)
      | none => spaces)
    let widest := max widest c.column
    if c.sees '\t' && indent.all (c.column < ·) then none
    else if c.seesBreak then
      let (read, c) := c.takeBreak
      (blockBreaks indent fuel widest c).map fun (breaks, r) => (read ++ breaks, r)
    else some ([], widest, c)

/-- The lines of a block.  `lead` is the break before the line, `breaks` are the empty lines before
it, and `indented` tells whether the line before starts with a blank: such a line, and one behind it,
is not folded. -/
def blockLines (folded : Bool) (chomp : Chomp) (indent : Nat) :
    Nat → List Char → List Char → Bool → Cursor → Option (List Char × Cursor)
  | 0, _, _, _, _ => none
  | fuel + 1, lead, breaks, indented, c =>
    if c.column = indent ∧ ¬ c.rest.isEmpty then do
      let blank := c.seesBlank
      let before :=
        if folded && lead = ['\n'] && !indented && !blank then
          if breaks.isEmpty then [' '] else []
        else lead
      let line := c.rest.takeWhile (! isBreak ·)
      let (read, c) := (c.skip line.length).takeBreak
      let (breaks', _, c) ← blockBreaks (some indent) c.rest.length 0 c
      let (more, c) ← blockLines folded chomp indent fuel read breaks' blank c
      return (before ++ breaks ++ line ++ more, c)
    else
      let tail := match chomp with
        | .strip => []
        | .clip => lead
        | .keep => lead ++ breaks
      some (tail, c)

/-- A block scalar from behind its first mark.  Its lines are indented further than the column
`parent`. -/
def scanBlock (folded : Bool) (parent : Int) (c : Cursor) : Option (List Char × Cursor) := do
  let (chomp, given, c) ← blockHead c
  let c ← c.finishLine?
  let known := given.map fun n => (max parent 0).toNat + n
  let (breaks, widest, c) ← blockBreaks known (c.rest.length + 1) 0 c
  let indent := known.getD (max widest (max (parent + 1) 1).toNat)
  blockLines folded chomp indent (c.rest.length + 1) [] breaks false c

end Statechart.Yaml
