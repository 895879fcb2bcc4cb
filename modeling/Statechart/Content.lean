import Statechart.Evaluator
import Statechart.Event.Basic
import Statechart.Model.Basic

/-!
# Executable content

The actions of transitions and of `onentry` and `onexit` blocks.  A `Store` is what they can change:
the context, what the evaluator remembers, the queue of internal events, the errors reported and
what has been logged.

`Store.runBlock` runs the actions of a block up to the first one that fails.  A failure is reported
and raises the event `error.execution`; the rest of the block does not run.
-/

namespace Statechart

/-- What a `log` action writes: its label, and the value of its expression if it has one. -/
structure LogEntry where
  label : String
  value : Option Json
  deriving Repr

/-- What executable content can change. -/
structure Store (κ σ : Type) where
  context : κ
  memory : σ
  /-- The internal events that wait, oldest first. -/
  internal : List Event
  reports : Array Error
  logs : Array LogEntry

/-- The event that a failure of executable content raises. -/
def failureEvent (e : Error) : Event :=
  .platform "error.execution" (.ofFields [("message", .string e.message)])

namespace Store

variable {κ σ : Type}

/-- Appends an internal event. -/
def raise (s : Store κ σ) (e : Event) : Store κ σ := { s with internal := s.internal ++ [e] }

/-- Reports errors. -/
def report (s : Store κ σ) (es : List Error) : Store κ σ := { s with reports := s.reports ++ es }

/-- The failure of an expression in executable content. -/
def contentError (text : String) : Error → Error
  | .unordered l op r => .unordered l op r
  | .evaluation e cause => .evaluation e cause
  | e => .evaluation text e

/-- The value of an expression. -/
def evaluate (ev : Evaluator κ σ) (s : Store κ σ) (text : String) : Except Error Json × Store κ σ :=
  match ev.evaluate s.context text s.memory with
  | (.ok v, mem) => (.ok v, { s with memory := mem })
  | (.error e, mem) => (.error (contentError text e), { s with memory := mem })

/-- Runs one action.  If it fails, only what the evaluator remembers may have changed. -/
def runAction [Context κ] (ev : Evaluator κ σ) (s : Store κ σ) : Kind → Option Error × Store κ σ
  | .log label none => (none, { s with logs := s.logs.push ⟨label.getD "", none⟩ })
  | .log label (some expr) =>
    match s.evaluate ev expr with
    | (.ok v, s) => (none, { s with logs := s.logs.push ⟨label.getD "", some v⟩ })
    | (.error e, s) => (some e, s)
  | .raise event => (none, s.raise (.internal event))
  | .assign location expr =>
    match s.evaluate ev expr with
    | (.ok v, s) =>
      match assign s.context location v with
      | .ok k => (none, { s with context := k })
      | .error e => (some (.evaluation location e), s)
    | (.error e, s) => (some e, s)
  | _ => (none, s)

/-- Runs actions up to the first one that fails. -/
def runActions [Context κ] (ev : Evaluator κ σ) (s : Store κ σ) :
    List Kind → Option Error × Store κ σ
  | [] => (none, s)
  | action :: rest =>
    match s.runAction ev action with
    | (none, s) => runActions ev s rest
    | (some e, s) => (some e, s)

/-- Runs the actions of a block; a failure is reported and raises an event. -/
def runBlock [Context κ] (m : Model) (ev : Evaluator κ σ) (s : Store κ σ) (block : Nat) :
    Store κ σ :=
  match s.runActions ev ((m.children block).filterMap m.kind?) with
  | (none, s) => s
  | (some e, s) => (s.report [e]).raise (failureEvent e)

/-- Runs blocks, one after the other. -/
def runBlocks [Context κ] (m : Model) (ev : Evaluator κ σ) (s : Store κ σ) (blocks : List Nat) :
    Store κ σ :=
  blocks.foldl (runBlock m ev) s

/-- Runs what states do when they are entered. -/
def runEntries [Context κ] (m : Model) (ev : Evaluator κ σ) (s : Store κ σ) (states : List Nat) :
    Store κ σ :=
  s.runBlocks m ev (states.flatMap m.entryBlocks)

/-- Runs what states do when they are left. -/
def runExits [Context κ] (m : Model) (ev : Evaluator κ σ) (s : Store κ σ) (states : List Nat) :
    Store κ σ :=
  s.runBlocks m ev (states.flatMap m.exitBlocks)

end Store

end Statechart
