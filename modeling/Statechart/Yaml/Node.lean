import Statechart.Tree.Basic
import Statechart.Yaml.Token

/-!
# From YAML tokens to a document tree

A text holds one document: a scalar, a sequence or a mapping, in blocks or between brackets.  An
anchor names a node, and an alias stands for the node that was named last; a tag gives a node a
type.

* `Tree.ofYaml?` is the tree of a text; a text without a document is an empty plain scalar.
-/

namespace Statechart.Yaml

/-- The prefixes that the marks of tags stand for. -/
abbrev TagPrefixes := List (String × String)

/-- The prefixes of a document that declares none. -/
def defaultPrefixes : TagPrefixes := [("!", "!"), ("!!", "tag:yaml.org,2002:")]

/-- What is left of the tokens, and the nodes that have been named so far, last first. -/
structure Reading where
  tokens : List Token
  anchors : List (String × Tree)

namespace Reading

/-- The next token. -/
def peek (r : Reading) : Option Token := r.tokens.head?

/-- Goes on behind the next token. -/
def skip (r : Reading) : Reading := { r with tokens := r.tokens.drop 1 }

/-- Goes on behind the next token if it is `t`. -/
def eat (r : Reading) (t : Token) : Option Reading := if r.peek = some t then some r.skip else none

/-- Whether the next token is one of `ts`. -/
def seesAny (r : Reading) (ts : List Token) : Bool := r.peek.any fun t => decide (t ∈ ts)

/-- Names a node. -/
def name (r : Reading) (anchor : Option String) (t : Tree) : Reading :=
  match anchor with
  | some a => { r with anchors := (a, t) :: r.anchors }
  | none => r

end Reading

/-- The node that stands where nothing is written. -/
def blank : Tree := .plain ""

/-- The full tag for a mark and a suffix. -/
def fullTag? (prefixes : TagPrefixes) (mark suffix : String) : Option String :=
  if mark = "" then some suffix else (prefixes.lookup mark).map (· ++ suffix)

/-- The properties before a node: an anchor and a tag, in either order. -/
def properties (prefixes : TagPrefixes) (r : Reading) :
    Option (Option String × Option String × Reading) :=
  match r.tokens with
  | .anchor a :: .tag m s :: rest => do
    let t ← fullTag? prefixes m s
    return (some a, some t, { r with tokens := rest })
  | .anchor a :: rest => some (some a, none, { r with tokens := rest })
  | .tag m s :: .anchor a :: rest => do
    let t ← fullTag? prefixes m s
    return (some a, some t, { r with tokens := rest })
  | .tag m s :: rest => do
    let t ← fullTag? prefixes m s
    return (none, some t, { r with tokens := rest })
  | _ => some (none, none, r)

/-- A node with its tag. -/
def tagWith (tag : Option String) (t : Tree) : Tree :=
  match tag with
  | some tag => .tagged tag t
  | none => t

/-- The text that a node is as a key. -/
def keyText : Tree → Option String
  | .plain s => some s
  | .text s => some s
  | .tagged _ t => keyText t
  | _ => none

variable (prefixes : TagPrefixes)

mutual

/-- A node.  `block` tells whether blocks may start here, and `flat` whether a sequence may stand
here that is not indented.  Every four steps take a token, so `fuel` need not exceed four times
their number. -/
def node (fuel : Nat) (block flat : Bool) (r : Reading) : Option (Tree × Reading) :=
  match fuel with
  | 0 => none
  | fuel + 1 =>
    match r.peek with
    | some (.alias a) => (r.anchors.lookup a).map fun t => (t, r.skip)
    | _ =>
      match properties prefixes r with
      | none => none
      | some (anchor, tag, r) =>
        let close (t : Tree) (r : Reading) : Tree × Reading :=
          (tagWith tag t, r.name anchor (tagWith tag t))
        -- a node cannot be part of itself
        let inside := r.name anchor .unreadable
        match r.peek with
        | some (.scalar isPlain s) =>
          let tag := if tag = some "!" then none else tag
          let t := tagWith tag (if isPlain then .plain s else .text s)
          some (t, r.skip.name anchor t)
        | some .openSequence =>
          (flowItems fuel true inside.skip).map fun (ts, r) => close (.list ts) r
        | some .openMapping =>
          (flowPairs fuel true inside.skip).map fun (ps, r) => close (.record ps) r
        | next =>
          if flat && next = some .entry then
            (flatItems fuel inside).map fun (ts, r) => close (.list ts) r
          else if block && next = some .blockSequence then
            (blockItems fuel inside.skip).map fun (ts, r) => close (.list ts) r
          else if block && next = some .blockMapping then
            (blockPairs fuel inside.skip).map fun (ps, r) => close (.record ps) r
          else if anchor.isSome || tag.isSome then some (close blank r)
          else none

/-- A node, or nothing before one of `ends`. -/
def nodeOrBlank (fuel : Nat) (block flat : Bool) (ends : List Token) (r : Reading) :
    Option (Tree × Reading) :=
  match fuel with
  | 0 => none
  | fuel + 1 => if r.seesAny ends then some (blank, r) else node fuel block flat r

/-- The value behind a key, if there is one. -/
def valueOrBlank (fuel : Nat) (block : Bool) (ends : List Token) (r : Reading) :
    Option (Tree × Reading) :=
  match fuel with
  | 0 => none
  | fuel + 1 =>
    match r.eat .value with
    | some r => nodeOrBlank fuel block block ends r
    | none => some (blank, r)

/-- The items of a sequence in a block. -/
def blockItems (fuel : Nat) (r : Reading) : Option (List Tree × Reading) :=
  match fuel with
  | 0 => none
  | fuel + 1 =>
    match r.peek with
    | some .entry => do
      let (t, r) ← nodeOrBlank fuel true false [.entry, .blockEnd] r.skip
      let (ts, r) ← blockItems fuel r
      return (t :: ts, r)
    | some .blockEnd => some ([], r.skip)
    | _ => none

/-- The items of a sequence that is not indented further than the mapping it belongs to. -/
def flatItems (fuel : Nat) (r : Reading) : Option (List Tree × Reading) :=
  match fuel with
  | 0 => none
  | fuel + 1 =>
    match r.peek with
    | some .entry => do
      let (t, r) ← nodeOrBlank fuel true false [.entry, .key, .value, .blockEnd] r.skip
      let (ts, r) ← flatItems fuel r
      return (t :: ts, r)
    | _ => some ([], r)

/-- The pairs of a mapping in a block. -/
def blockPairs (fuel : Nat) (r : Reading) : Option (List (Option String × Tree) × Reading) :=
  match fuel with
  | 0 => none
  | fuel + 1 =>
    match r.peek with
    | some .key => do
      let (key, r) ← nodeOrBlank fuel true true [.key, .value, .blockEnd] r.skip
      let (v, r) ← valueOrBlank fuel true [.key, .value, .blockEnd] r
      let (ps, r) ← blockPairs fuel r
      return ((keyText key, v) :: ps, r)
    | some .blockEnd => some ([], r.skip)
    | _ => none

/-- The items of a sequence between brackets; between two of them stands a comma. -/
def flowItems (fuel : Nat) (first : Bool) (r : Reading) : Option (List Tree × Reading) :=
  match fuel with
  | 0 => none
  | fuel + 1 =>
    if r.peek = some .closeSequence then some ([], r.skip)
    else do
      let r ← if first then some r else r.eat .comma
      if r.peek = some .closeSequence then return ([], r.skip)
      let (t, r) ← match r.eat .key with
        | some r => do
          let (key, r) ← node fuel false false r
          let (v, r) ← valueOrBlank fuel false [.comma, .closeSequence] r
          some (Tree.record [(keyText key, v)], r)
        | none => node fuel false false r
      let (ts, r) ← flowItems fuel false r
      return (t :: ts, r)

/-- The pairs of a mapping between brackets; between two of them stands a comma. -/
def flowPairs (fuel : Nat) (first : Bool) (r : Reading) :
    Option (List (Option String × Tree) × Reading) :=
  match fuel with
  | 0 => none
  | fuel + 1 =>
    if r.peek = some .closeMapping then some ([], r.skip)
    else do
      let r ← if first then some r else r.eat .comma
      if r.peek = some .closeMapping then return ([], r.skip)
      let (key, v, r) ← match r.eat .key with
        | some r => do
          let (key, r) ← nodeOrBlank fuel false false [.value, .comma, .closeMapping] r
          let (v, r) ← valueOrBlank fuel false [.comma, .closeMapping] r
          some (key, v, r)
        | none => do
          let (key, r) ← node fuel false false r
          some (key, blank, r)
      let (ps, r) ← flowPairs fuel false r
      return ((keyText key, v) :: ps, r)

end

/-- The directives before a document: the prefixes of tags, and whether a version has been given. -/
def directives (prefixes : TagPrefixes) (versioned : Bool) :
    List Token → Option (TagPrefixes × List Token)
  | .version major minor :: rest =>
    if versioned ∨ major ≠ 1 ∨ (minor ≠ 1 ∧ minor ≠ 2) then none
    else directives prefixes true rest
  | .tagPrefix mark replacement :: rest =>
    if (prefixes.lookup mark).isSome then none
    else directives (prefixes ++ [(mark, replacement)]) versioned rest
  | rest => some (prefixes, rest)

/-- The document at the front of some tokens. -/
def document (tokens : List Token) : Option (Tree × List Token) := do
  let (prefixes, rest) ← directives [] false tokens
  let content (prefixes : TagPrefixes) (tokens : List Token) : Option (Tree × List Token) :=
    (node prefixes (4 * tokens.length + 4) true false ⟨tokens, []⟩).map fun (t, r) => (t, r.tokens)
  let prefixes := prefixes ++ defaultPrefixes
  match rest with
  | .documentStart :: rest =>
    match rest with
    | [] | .documentEnd :: _ => some (blank, rest)
    | rest => content prefixes rest
  | rest => if rest.length < tokens.length then none else content prefixes rest

mutual

/-- A tree in which what lies inside of more than `depth` lists and records cannot be read. -/
def limitDepth (depth : Nat) : Tree → Tree
  | .list items =>
    match depth with
    | 0 => .unreadable
    | depth + 1 => .list (limitItems depth items)
  | .record fields =>
    match depth with
    | 0 => .unreadable
    | depth + 1 => .record (limitFields depth fields)
  | .tagged tag t => .tagged tag (limitDepth depth t)
  | t => t

/-- The items of a list, with a limited depth. -/
def limitItems (depth : Nat) : List Tree → List Tree
  | [] => []
  | t :: ts => limitDepth depth t :: limitItems depth ts

/-- The fields of a record, with a limited depth. -/
def limitFields (depth : Nat) : List (Option String × Tree) → List (Option String × Tree)
  | [] => []
  | (name, t) :: rest => (name, limitDepth depth t) :: limitFields depth rest

end

/-- How deep the lists and records that are read may be nested. -/
def maxDepth : Nat := 128

end Statechart.Yaml

namespace Statechart

/-- The tree of a YAML text, which holds one document at most. -/
def Tree.ofYaml? (text : String) : Option Tree :=
  match Yaml.Token.scan text with
  | none => none
  | some [] => some Yaml.blank
  | some tokens =>
    match Yaml.document tokens with
    | some (t, rest) =>
      if rest.all (· = .documentEnd) then some (Yaml.limitDepth Yaml.maxDepth t) else none
    | none => none

end Statechart
