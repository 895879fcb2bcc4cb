import Statechart.Yaml.Scalar

/-!
# The tokens of YAML text

`Token.scan` cuts a text into tokens.  Indentation becomes tokens too: a block starts where a line is
indented further than its block, and ends where a line is indented less.

A key of a mapping is only recognised by the colon behind it.  The scan therefore remembers where a
key may have started, and puts the tokens that open a mapping and a key there when it meets the
colon, which must follow on the same line and within 1024 characters.
-/

namespace Statechart.Yaml

/-- A token of YAML text. -/
inductive Token
  | version (major minor : Nat)
  | tagPrefix (mark replacement : String)
  | documentStart
  | documentEnd
  | blockSequence
  | blockMapping
  | blockEnd
  | openSequence
  | closeSequence
  | openMapping
  | closeMapping
  | entry
  | comma
  | key
  | value
  | alias (name : String)
  | anchor (name : String)
  | tag (mark suffix : String)
  /-- A scalar, and whether it is plain. -/
  | scalar (isPlain : Bool) (text : String)
  deriving DecidableEq, Repr

/-- A place where a key may have started. -/
structure PossibleKey where
  /-- How many tokens stand before it. -/
  token : Nat
  line : Nat
  column : Nat
  index : Nat
  /-- Whether a key must start there, because a block continues at its column. -/
  required : Bool
  deriving Repr

/-- The state of a scan. -/
structure Scan where
  cursor : Cursor
  /-- The column of the innermost block, or `-1` outside of blocks. -/
  indent : Int
  /-- The columns of the blocks around it. -/
  outer : List Int
  /-- The possible key of every level of brackets, innermost first. -/
  keys : List (Option PossibleKey)
  /-- Whether a key may start here. -/
  allowed : Bool
  tokens : Array Token

namespace Scan

/-- The start of a scan. -/
def start (cs : List Char) : Scan := ⟨.start cs, -1, [], [none], true, #[]⟩

/-- Whether the place is inside of brackets. -/
def inFlow (s : Scan) : Bool := 1 < s.keys.length

/-- Appends a token. -/
def emit (s : Scan) (t : Token) : Scan := { s with tokens := s.tokens.push t }

/-- Puts a token before the `n`-th one. -/
def insertAt (s : Scan) (n : Nat) (t : Token) : Scan :=
  { s with tokens := ((s.tokens.toList.take n) ++ t :: (s.tokens.toList.drop n)).toArray }

/-- Moves the place. -/
def moveTo (s : Scan) (c : Cursor) : Scan := { s with cursor := c }

/-- Sets whether a key may start. -/
def allow (s : Scan) (b : Bool) : Scan := { s with allowed := b }

/-- Opens a block at a column, unless one is open there.  Its token goes before the `n`-th one. -/
def openBlock (s : Scan) (column : Nat) (n : Nat) (t : Token) : Scan :=
  if s.inFlow ∨ (column : Int) ≤ s.indent then s
  else { s.insertAt n t with indent := column, outer := s.indent :: s.outer }

/-- Closes the blocks that are indented further than a column. -/
def closeBlocks (column : Int) (s : Scan) : Scan :=
  if s.inFlow then s else go s.outer s
where
  /-- Closes blocks as long as there are any. -/
  go : List Int → Scan → Scan
    | [], s => s
    | outer :: rest, s =>
      if column < s.indent then go rest { s.emit .blockEnd with indent := outer, outer := rest }
      else s

/-- Forgets the possible key of this level.  One that is required must not be forgotten. -/
def dropKey (s : Scan) : Option Scan :=
  match s.keys with
  | some k :: rest => if k.required then none else some { s with keys := none :: rest }
  | _ => some s

/-- Remembers that a key may start here. -/
def saveKey (s : Scan) : Option Scan :=
  if ¬ s.allowed then some s
  else do
    let s ← s.dropKey
    let c := s.cursor
    let k : PossibleKey :=
      ⟨s.tokens.size, c.line, c.column, c.index, !s.inFlow && s.indent = (c.column : Int)⟩
    return { s with keys := some k :: s.keys.drop 1 }

/-- Skips blanks, comments and line breaks between tokens.  In a block a tab may not stand where a
key may start. -/
def skipGap : Nat → Scan → Scan
  | 0, s => s
  | fuel + 1, s =>
    let tabs := s.inFlow || !s.allowed
    let c := s.cursor
    let c := if c.column = 0 && c.peek = some (Char.ofNat 0xFEFF) then c.next else c
    let c := c.skipWhile fun ch => ch = ' ' || (tabs && ch = '\t')
    let c := if c.sees '#' then c.skipWhile (! isBreak ·) else c
    if c.seesBreak then
      skipGap fuel { s with cursor := c.takeBreak.2, allowed := s.allowed || !s.inFlow }
    else s.moveTo c

/-- Ends all blocks and forgets the possible key, before a mark between documents. -/
def leaveDocument (s : Scan) : Option Scan := do
  let s ← (s.closeBlocks (-1)).dropKey
  return s.allow false

/-! ### Directives, tags and names -/

/-- The name at a place. -/
def scanName (c : Cursor) : String × Cursor :=
  (String.ofList (c.rest.takeWhile isNameChar), c.skipWhile isNameChar)

/-- The mark of a tag: an exclamation mark, or a name between two of them. -/
def scanTagMark (directive : Bool) (c : Cursor) : Option (List Char × Cursor) :=
  if ¬ c.sees '!' then none
  else
    let name := c.next.rest.takeWhile isNameChar
    let c := c.next.skipWhile isNameChar
    if c.sees '!' then some ('!' :: name ++ ['!'], c.next)
    else if directive ∧ ¬ name.isEmpty then none
    else some ('!' :: name, c)

/-- Whether a character may stand in the address of a tag. -/
def isAddressChar (wide : Bool) (c : Char) : Bool :=
  isNameChar c || c ∈ ";/?:@&=+$.!~*'()".toList || (wide && c ∈ [',', '[', ']'])

/-- The bytes that percent signs with two digits stand for. -/
def scanBytes : Nat → Cursor → Option (List UInt8 × Cursor)
  | 0, c => some ([], c)
  | fuel + 1, c =>
    if c.sees '%' then do
      let digits := (c.rest.drop 1).take 2
      let byte ← Text.number? 16 digits
      if digits.length ≠ 2 then none
      let (bytes, c) ← scanBytes fuel (c.skip 3)
      return (byte.toUInt8 :: bytes, c)
    else some ([], c)

/-- The address of a tag. -/
def scanAddress (wide : Bool) : Nat → Cursor → Option (List Char × Cursor)
  | 0, c => some ([], c)
  | fuel + 1, c =>
    if c.sees '%' then do
      let (bytes, c) ← scanBytes c.rest.length c
      let text ← String.fromUTF8? (ByteArray.mk bytes.toArray)
      let (more, c) ← scanAddress wide fuel c
      return (text.toList ++ more, c)
    else match c.peek with
      | some ch =>
        if isAddressChar wide ch then
          (scanAddress wide fuel c.next).map fun (more, c) => (ch :: more, c)
        else some ([], c)
      | none => some ([], c)

/-- A tag: its mark and what follows the mark.  An address between angle brackets has no mark. -/
def scanTag (flow : Bool) (c : Cursor) : Option (Token × Cursor) := do
  let (mark, suffix, c) ←
    if c.peekAt 1 = some '<' then do
      let (address, c) ← scanAddress true c.rest.length (c.skip 2)
      if address.isEmpty ∨ ¬ c.sees '>' then none
      some ([], address, c.next)
    else do
      let (mark, c) ← scanTagMark false c
      let (address, c) ← scanAddress false c.rest.length c
      if 1 < mark.length ∧ mark.getLast? = some '!' then
        if address.isEmpty then none else some (mark, address, c)
      else
        let suffix := mark.drop 1 ++ address
        some (if suffix.isEmpty then ([], ['!'], c) else (['!'], suffix, c))
  if (flow && c.sees ',') || c.endsAt 0 then
    return (.tag (String.ofList mark) (String.ofList suffix), c)
  else none

/-- An anchor or alias, behind its mark. -/
def scanAnchor (c : Cursor) : Option (String × Cursor) :=
  let (name, c) := scanName c
  if name.isEmpty then none
  else if c.endsAt 0 || c.peek.any fun ch => ch ∈ "?:,]\x7d%@`".toList then some (name, c)
  else none

/-- A number of a version. -/
def scanVersionNumber (c : Cursor) : Option (Nat × Cursor) :=
  let digits := c.rest.takeWhile Char.isDigit
  if digits.isEmpty ∨ 9 < digits.length then none
  else some (Text.decimalValue digits, c.skip digits.length)

/-- A directive, behind its percent sign. -/
def scanDirective (c : Cursor) : Option (Token × Cursor) := do
  let (name, c) := scanName c
  if name.isEmpty ∨ ¬ c.endsAt 0 then none
  let c := c.skipWhile isBlank
  let (token, c) ←
    if name = "YAML" then do
      let (major, c) ← scanVersionNumber c
      if ¬ c.sees '.' then none
      let (minor, c) ← scanVersionNumber c.next
      some (Token.version major minor, c)
    else if name = "TAG" then do
      let (mark, c) ← scanTagMark true c
      if ¬ c.seesBlank then none
      let (address, c) ← scanAddress true c.rest.length (c.skipWhile isBlank)
      if address.isEmpty ∨ ¬ c.endsAt 0 then none
      some (Token.tagPrefix (String.ofList mark) (String.ofList address), c)
    else none
  let c ← c.finishLine?
  return (token, c)

/-! ### One token after the other -/

/-- A bracket that opens. -/
def openBracket (s : Scan) (t : Token) : Option Scan := do
  let s ← s.saveKey
  return { (s.emit t).moveTo s.cursor.next with keys := none :: s.keys, allowed := true }

/-- A bracket that closes. -/
def closeBracket (s : Scan) (t : Token) : Option Scan := do
  let s ← s.dropKey
  let keys := if s.inFlow then s.keys.drop 1 else s.keys
  return { (s.emit t).moveTo s.cursor.next with keys := keys, allowed := false }

/-- A mark that starts an entry or a key of a block. -/
def blockMark (s : Scan) (block t : Token) (allowed : Bool) : Option Scan := do
  if ¬ s.inFlow ∧ ¬ s.allowed then none
  let s := s.openBlock s.cursor.column s.tokens.size block
  let s ← s.dropKey
  return ((s.emit t).moveTo s.cursor.next).allow allowed

/-- A colon behind a key. -/
def valueMark (s : Scan) : Option Scan :=
  let c := s.cursor
  let found := match s.keys with
    | some k :: _ => if k.line < c.line ∨ k.index + 1024 < c.index then none else some k
    | _ => none
  match found with
  | some k =>
    let s := s.insertAt k.token .key
    let s := s.openBlock k.column k.token .blockMapping
    some { (s.emit .value).moveTo c.next with keys := none :: s.keys.drop 1, allowed := false }
  | none => do
    -- a possible key that has been left behind must not have been required
    let s ← s.dropKey
    if ¬ s.inFlow ∧ ¬ s.allowed then none
    let s := s.openBlock c.column s.tokens.size .blockMapping
    return ((s.emit .value).moveTo c.next).allow (!s.inFlow)

/-- A token that may be the start of a key. -/
def keyed (s : Scan) (read : Cursor → Option (Token × Cursor)) : Option Scan := do
  let s ← s.saveKey
  let (t, c) ← read s.cursor
  return ((s.emit t).moveTo c).allow false

/-- A block scalar. -/
def blockScalar (s : Scan) (folded : Bool) : Option Scan := do
  let s ← s.dropKey
  let (text, c) ← scanBlock folded s.indent s.cursor.next
  return ((s.emit (.scalar false (String.ofList text))).moveTo c).allow true

/-- A plain scalar. -/
def plainScalar (s : Scan) : Option Scan := do
  let s ← s.saveKey
  let (text, broken, c) ←
    scanPlain s.inFlow (s.indent + 1) (s.cursor.rest.length + 1) .empty s.cursor
  return ((s.emit (.scalar true (String.ofList text))).moveTo c).allow broken

/-- Whether a plain scalar may start with the character at the place. -/
def startsPlain (s : Scan) (ch : Char) : Bool :=
  !(isBlank ch || isBreak ch || ch ∈ "-?:,[]\x7b\x7d#&*!|>'\"%@`".toList) ||
    (ch = '-' && !(s.cursor.peekAt 1).any isBlank) ||
    (!s.inFlow && (ch = '?' || ch = ':') && !s.cursor.endsAt 1)

/-- Scans the token at the place, where the character `ch` stands. -/
def token (s : Scan) (ch : Char) : Option Scan :=
  let c := s.cursor
  if c.column = 0 ∧ ch = '%' then do
    let s ← s.leaveDocument
    let (t, c) ← scanDirective c.next
    return (s.emit t).moveTo c
  else if c.atDocumentMark then do
    let s ← s.leaveDocument
    return (s.emit (if ch = '-' then .documentStart else .documentEnd)).moveTo (c.skip 3)
  else if ch = '[' then s.openBracket .openSequence
  else if ch = '\x7b' then s.openBracket .openMapping
  else if ch = ']' then s.closeBracket .closeSequence
  else if ch = '\x7d' then s.closeBracket .closeMapping
  else if ch = ',' then do
    let s ← s.dropKey
    return ((s.emit .comma).moveTo c.next).allow true
  else if ch = '-' ∧ c.endsAt 1 then s.blockMark .blockSequence .entry true
  else if ch = '?' ∧ (s.inFlow ∨ c.endsAt 1) then s.blockMark .blockMapping .key (!s.inFlow)
  else if ch = ':' ∧ (s.inFlow ∨ c.endsAt 1) then s.valueMark
  else if ch = '*' then s.keyed fun c => (scanAnchor c.next).map fun (n, c) => (.alias n, c)
  else if ch = '&' then s.keyed fun c => (scanAnchor c.next).map fun (n, c) => (.anchor n, c)
  else if ch = '!' then s.keyed (scanTag s.inFlow)
  else if ch = '|' ∧ ¬ s.inFlow then s.blockScalar false
  else if ch = '>' ∧ ¬ s.inFlow then s.blockScalar true
  else if ch = '\'' ∨ ch = '"' then
    s.keyed fun c => (scanQuoted ch (c.rest.length + 1) c.next).map fun (text, c) =>
      (.scalar false (String.ofList text), c)
  else if s.startsPlain ch then s.plainScalar
  else none

/-- Scans up to the end.  Every token takes a character, so `fuel` need not exceed the length of the
text. -/
def run : Nat → Scan → Option Scan
  | 0, _ => none
  | fuel + 1, s =>
    let s := skipGap (s.cursor.rest.length + 1) s
    match s.cursor.peek with
    | none => (s.closeBlocks (-1)).dropKey
    | some ch =>
      match (s.closeBlocks s.cursor.column).token ch with
      | some s => run fuel s
      | none => none

end Scan

/-- The tokens of a text. -/
def Token.scan (text : String) : Option (List Token) :=
  let cs := text.toList
  let cs := if cs.head? = some (Char.ofNat 0xFEFF) then cs.drop 1 else cs
  if cs.all isAllowed then
    (Scan.run (cs.length + 1) (.start cs)).map fun s => s.tokens.toList
  else none

end Statechart.Yaml
