import Statechart.Chart.Build
import Statechart.Chart.File
import Statechart.Chart.Printer
import Statechart.Engine.Basic
import Statechart.Model.Outline

/-!
# Reports

What the commands `validate`, `show` and `run` print, with or without colours.
-/

namespace Statechart

/-- A way to set text off on a terminal. -/
structure Style where
  codes : String
  deriving DecidableEq, Repr

namespace Style

def red : Style := ⟨"31"⟩

def green : Style := ⟨"32"⟩

def yellow : Style := ⟨"33"⟩

def cyan : Style := ⟨"36"⟩

def bold : Style := ⟨"1"⟩

def boldGreen : Style := ⟨"1;32"⟩

/-- The characters that turn a style on. -/
def opening (s : Style) : List Char := '\x1b' :: '[' :: s.codes.toList ++ ['m']

/-- The characters that turn all styles off. -/
def closing : List Char := ['\x1b', '[', '0', 'm']

/-- Puts `mark` behind every end of a style inside of a text. -/
def reopen (mark : List Char) : List Char → List Char
  | '\x1b' :: '[' :: '0' :: 'm' :: rest => closing ++ mark ++ reopen mark rest
  | c :: rest => c :: reopen mark rest
  | [] => []

/-- A text in a style, if colours are on.  Where a style inside of it ends, its own starts again. -/
def apply (color : Bool) (s : Style) (text : String) : String :=
  if color then String.ofList (s.opening ++ reopen s.opening text.toList ++ closing) else text

end Style

/-- A configuration with its atomic states set off. -/
def Configuration.format (color : Bool) (m : Model) (c : Configuration) : String :=
  let labels := c.states.toList.map fun s =>
    if s ∈ c.atomicStates m then Style.boldGreen.apply color (m.label s) else m.label s
  "\x7b" ++ ", ".intercalate labels ++ "\x7d"

namespace Report

/-- The chart of a file with its model. -/
def load (file : SourceFile) : Except Error (Chart × Model) :=
  match Chart.ofFile file with
  | .error e => .error e
  | .ok c =>
    match c.build with
    | .error e => .error e
    | .ok m => .ok (c, m)

/-- A summary of a valid chart. -/
def validate (color : Bool) (file : SourceFile) : Except Error String :=
  match load file with
  | .error e => .error e
  | .ok (c, m) =>
    let states := m.nodeIds.countP m.isState
    let finals := m.nodeIds.countP m.isFinal
    .ok (Style.green.apply color "Valid" ++ " chart " ++
      Style.cyan.apply color (c.name.getD file.path) ++ " (" ++ toString states ++ " states, " ++
      toString finals ++ " final, " ++ toString m.transitions.length ++ " transitions, checksum " ++
      c.checksum ++ ")")

/-- An overview of a chart: its tree and the configuration with which it starts. -/
def overview (color : Bool) (file : SourceFile) : Except Error String :=
  match load file with
  | .error e => .error e
  | .ok (c, m) =>
    match Configuration.initial m with
    | .error e => .error e
    | .ok initial =>
      let outline := String.ofList (Text.trimRight m.outline.toList)
      .ok (Style.bold.apply color ("Chart " ++ Style.cyan.apply color (c.name.getD "-")) ++ "\n" ++
        outline ++ "\n" ++ Style.bold.apply color "Initial configuration:" ++ " " ++
        initial.format color m)

/-- The last line of a run. -/
def farewell (color : Bool) (stats : Stats) (halted : Bool) : String :=
  Style.yellow.apply color "Stopped" ++ " after " ++ toString stats.macrosteps ++ " macrosteps, " ++
    toString stats.microsteps ++ " microsteps" ++ if halted then " (final state reached)" else ""

/-- The line about a failure. -/
def failure (color : Bool) (message : String) : String :=
  Style.red.apply color "Error" ++ ": " ++ message

/-- The line about something that a chart logs. -/
def logLine (entry : LogEntry) : String :=
  let value := (entry.value.map Json.write).getD ""
  if entry.label = "" then value else entry.label ++ ": " ++ value

end Report

end Statechart
