import Statechart.Text.Blank

/-!
# Event descriptors

An event name is a sequence of tokens with dots between them.  A transition lists descriptors, and a
descriptor matches every event whose first tokens are the descriptor's tokens, so `error` matches
`error.execution`.  A last token that is empty or a star does not count, and a lone star matches
every event.
-/

namespace Statechart

/-- An event descriptor. -/
structure Descriptor where
  text : String
  deriving DecidableEq, Repr

namespace Descriptor

/-- The tokens of a name or descriptor, without a last one that is empty or a star. -/
def tokens (s : String) : List String :=
  let all := Text.dotted s
  if all.getLast? = some "" ∨ all.getLast? = some "*" then all.dropLast else all

/-- Whether the descriptor matches an event of the given name. -/
def accepts (d : Descriptor) (event : String) : Bool :=
  d.text = "*" || (tokens d.text).isPrefixOf (tokens event)

/-- The descriptors of a text, which stand between blanks. -/
def ofText (s : String) : List Descriptor := (Text.words s).map Descriptor.mk

/-- Whether one of the descriptors matches. -/
def anyAccepts (ds : List Descriptor) (event : String) : Bool := ds.any (·.accepts event)

/-- The descriptors with a space between them. -/
def join (ds : List Descriptor) : String := " ".intercalate (ds.map text)

end Descriptor

end Statechart
