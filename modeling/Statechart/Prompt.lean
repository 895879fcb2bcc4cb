import Statechart.Event.Basic
import Statechart.Json.Reader
import Statechart.Text.Blank

/-!
# Input lines

What a user types while a chart runs: an event with an optional payload, an event after a delay, or a
command.  Words are separated by blanks; a payload is the JSON text behind the name of the event.
-/

namespace Statechart

/-- What an input line asks for. -/
inductive Line
  | empty
  | send (event : Event)
  /-- An event after a delay in milliseconds. -/
  | after (milliseconds : Nat) (event : Event)
  | config
  | help
  | quit
  deriving Repr

/-- What is wrong with an input line. -/
inductive LineFault
  | badDelay (word : String)
  | missingEvent
  | badPayload
  deriving DecidableEq, Repr

namespace LineFault

/-- The wording of a fault. -/
def message : LineFault → String
  | badDelay w => "invalid delay '" ++ w ++ "', expected milliseconds"
  | missingEvent => "usage: after <ms> <event> [json]"
  | badPayload => "invalid JSON payload"

end LineFault

namespace Line

/-- What the command `help` shows. -/
def helpText : String :=
  "\nInput, one command per line:\n" ++
    "  <event> [json]                 Queue an external event with optional payload\n" ++
    "  after <ms> <event> [json]      Queue an event after a delay\n" ++
    "  config                         Print the current configuration\n" ++
    "  help                           Show this help\n" ++
    "  quit, exit                     Stop the engine and exit\n"

/-- An external event whose payload is a JSON text, or null if there is no text. -/
def makeEvent (name payload : List Char) : Except LineFault Event :=
  let event := Event.external (String.ofList name)
  if payload.isEmpty then .ok event
  else match Json.ofText? (String.ofList payload) with
    | some data => .ok { event with data := data }
    | none => .error .badPayload

/-- What follows the word `after`: a delay, an event and an optional payload. -/
def parseAfter (cs : List Char) : Except LineFault Line :=
  let (delay, rest) := Text.firstWord cs
  match Text.unsigned? (String.ofList delay) with
  | none => .error (.badDelay (String.ofList delay))
  | some ms =>
    let (name, payload) := Text.firstWord rest
    if name.isEmpty then .error .missingEvent
    else match makeEvent name payload with
      | .error f => .error f
      | .ok e => .ok (.after ms e)

/-- What an input line asks for.  A line without words, or one that starts with a hash, asks for
nothing. -/
def parse (line : String) : Except LineFault Line :=
  let cs := Text.trimRight (Text.trimLeft line.toList)
  if cs.isEmpty ∨ cs.head? = some '#' then .ok .empty
  else
    let (head, rest) := Text.firstWord cs
    match String.ofList head with
    | "quit" | "exit" => .ok .quit
    | "help" => .ok .help
    | "config" => .ok .config
    | "after" => parseAfter rest
    | _ =>
      match makeEvent head rest with
      | .error f => .error f
      | .ok e => .ok (.send e)

end Line

end Statechart
