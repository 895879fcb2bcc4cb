import Statechart.Engine.Run
import Statechart.Prompt
import Statechart.Report

/-!
# The command line

    statechart [--config FILE] validate CHART
    statechart [--config FILE] show CHART
    statechart [--config FILE] run CHART

`validate` sums a chart up, `show` prints its tree and the configuration with which it starts, and `run`
runs it: it reads one command on each line of standard input and prints every configuration that an
event leads to.

Settings come from the given file, or from the one that `STATECHART_CONFIG` names, and then from
`STATECHART_MAX_MICROSTEPS`, `STATECHART_EXPOSE_EVENT` and `STATECHART_LOG`.
-/

namespace Statechart.CommandLine

/-- What a user asks for. -/
inductive Command
  | validate
  | overview
  | run
  deriving DecidableEq, Repr

/-- The command that a word names. -/
def Command.ofName? : String → Option Command
  | "validate" => some validate
  | "show" => some overview
  | "run" => some run
  | _ => none

/-- The arguments without the option for a settings file, and the file that it names last. -/
def settingsFile : List String → Option String × List String
  | flag :: file :: rest =>
    if flag = "-c" ∨ flag = "--config" then
      let (later, others) := settingsFile rest
      (some (later.getD file), others)
    else
      let (later, others) := settingsFile (file :: rest)
      (later, flag :: others)
  | rest => (none, rest)

def usage : String := "usage: statechart [--config FILE] (validate | show | run) CHART"

/-! ### Files, settings and output -/

/-- A file with its text, or with the reason why it cannot be read. -/
def readSource (path : String) : IO SourceFile := do
  try
    let text ← IO.FS.readFile path
    return ⟨path, .ok text⟩
  catch e => return ⟨path, .error (toString e)⟩

/-- The settings of this run. -/
def loadSettings (file : Option String) : IO (Except SettingsFault Settings) := do
  let file := file <|> (← IO.getEnv "STATECHART_CONFIG")
  let source ← file.mapM readSource
  let overrides : Overrides :=
    { maxMicrosteps := ← IO.getEnv "STATECHART_MAX_MICROSTEPS"
      exposeEvent := ← IO.getEnv "STATECHART_EXPOSE_EVENT"
      filter := ← IO.getEnv "STATECHART_LOG" }
  return Settings.load source overrides

/-- Prints a failure, and gives the exit code. -/
def fail (color : Bool) (message : String) : IO UInt32 := do
  IO.eprintln (Report.failure color message)
  return 1

/-- Prints a report or the reason why there is none, and gives the exit code. -/
def finish (color : Bool) : Except Error String → IO UInt32
  | .ok text => do
    IO.println text
    return 0
  | .error e => fail color e.message

/-! ### Running a chart -/

/-- A chart that runs.  Delayed events reach the engine from threads of their own. -/
structure Session where
  color : Bool
  settings : Settings
  setup : Setup Scope Cache
  engine : IO.Ref (Engine Scope Cache)
  /-- The error that has ended the run. -/
  failure : IO.Ref (Option Error)

namespace Session

/-- Prints the configuration of an engine. -/
def printConfiguration (s : Session) (e : Engine Scope Cache) : IO Unit :=
  IO.println (e.configuration.format s.color s.setup.model)

/-- Does something with the engine, and prints what it logs and reports. -/
def perform (s : Session)
    (act : Engine Scope Cache → Except Error α × Engine Scope Cache) : IO (Except Error α) := do
  let (result, e) ← s.engine.modifyGet fun e =>
    let (result, e) := act { e with store := { e.store with reports := #[], logs := #[] } }
    ((result, e), e)
  if s.settings.shows "info" then
    for entry in e.store.logs do IO.eprintln (Report.logLine entry)
  if s.settings.shows "warn" then
    for report in e.store.reports do IO.eprintln report.message
  return result

/-- Sends an event to the engine, and prints the configuration that it leads to.  An error of a
running engine ends the run. -/
def send (s : Session) (event : Event) : IO Unit := do
  let before ← s.engine.get
  let result ← s.perform (Engine.send s.setup event)
  let after ← s.engine.get
  if after.stats.configurations ≠ before.stats.configurations then s.printConfiguration after
  match result with
  | .ok _ => return
  | .error e =>
    if before.phase = .stopped then IO.eprintln (Report.failure s.color e.message)
    else s.failure.set (some e)

/-- Does what an input line asks for, and tells whether to go on.  Gives the delayed event, if there
is one. -/
def obey (s : Session) (line : String) : IO (Bool × Option (Task (Except IO.Error Unit))) := do
  match Line.parse line with
  | .ok .empty => return (true, none)
  | .ok (.send event) =>
    s.send event
    return (true, none)
  | .ok (.after milliseconds event) =>
    let wait := (min milliseconds (Nat.pow 2 32 - 1)).toUInt32
    let delayed ← IO.asTask (do IO.sleep wait; s.send event) .dedicated
    return (true, some delayed)
  | .ok .config =>
    s.printConfiguration (← s.engine.get)
    return (true, none)
  | .ok .help =>
    IO.println Line.helpText
    return (true, none)
  | .ok .quit => return (false, none)
  | .error fault =>
    IO.eprintln (Report.failure s.color fault.message)
    return (true, none)

/-- Reads lines until the engine stops, the user quits or the input ends.  At the end of the input the
delayed events are awaited. -/
partial def converse (s : Session) (input : IO.FS.Stream)
    (delayed : List (Task (Except IO.Error Unit))) : IO Unit := do
  if (← s.engine.get).phase = .stopped then return
  let line ← input.getLine
  if line.isEmpty then
    for task in delayed do discard (IO.wait task)
  else
    let (goOn, more) ← s.obey line
    if goOn then s.converse input (more.toList ++ delayed)

/-- Starts the engine, reads commands, and stops it. -/
def run (s : Session) : IO UInt32 := do
  match ← s.perform (Engine.start s.setup) with
  | .error e => fail s.color e.message
  | .ok () =>
    s.printConfiguration (← s.engine.get)
    s.converse (← IO.getStdin) []
    if let some e ← s.failure.get then return ← fail s.color e.message
    if (← s.engine.get).phase ≠ .stopped then discard (s.perform (Engine.stop s.setup))
    let e ← s.engine.get
    IO.println (Report.farewell s.color e.stats e.halted)
    return 0

end Session

/-- Runs the chart of a file. -/
def runChart (color : Bool) (settings : Settings) (file : SourceFile) : IO UInt32 := do
  match Report.load file with
  | .error e => fail color e.message
  | .ok (_, model) =>
    let setup : Setup Scope Cache := ⟨model, settings.options, .standard Scope⟩
    match Engine.create setup settings.scope .empty with
    | .error e => fail color e.message
    | .ok e => Session.run ⟨color, settings, setup, ← IO.mkRef e, ← IO.mkRef none⟩

/-- Does what the arguments ask for, and gives the exit code. -/
def dispatch (args : List String) : IO UInt32 := do
  let color := (← (← IO.getStdout).isTty) && (← IO.getEnv "NO_COLOR").isNone
  let (settings, words) := settingsFile args
  match words with
  | [name, chart] =>
    match Command.ofName? name, ← loadSettings settings with
    | none, _ => fail color usage
    | _, .error fault => fail color fault.message
    | some .validate, .ok _ => finish color (Report.validate color (← readSource chart))
    | some .overview, .ok _ => finish color (Report.overview color (← readSource chart))
    | some .run, .ok settings => runChart color settings (← readSource chart)
  | _ => fail color usage

end Statechart.CommandLine

def main (args : List String) : IO UInt32 := Statechart.CommandLine.dispatch args
