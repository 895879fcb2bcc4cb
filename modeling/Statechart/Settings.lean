import Statechart.Engine.Basic
import Statechart.Scope
import Statechart.Text.Blank
import Statechart.Yaml.Node

/-!
# Settings

The settings of a runner: defaults, then a YAML file, then overrides from the environment.  The
result is checked at the end.
-/

namespace Statechart

/-- The settings of a runner. -/
structure Settings where
  options : Options
  /-- What is logged. -/
  filter : String
  /-- The variables with which a chart starts. -/
  context : Fields
  deriving Repr

/-- What the environment says; what it does not say is absent. -/
structure Overrides where
  maxMicrosteps : Option String
  exposeEvent : Option String
  filter : Option String
  deriving DecidableEq, Repr

/-- A file, with its text or the reason why it cannot be read. -/
structure SourceFile where
  path : String
  contents : Except String String

/-- What is wrong with settings. -/
inductive SettingsFault
  | unreadable (path reason : String)
  | malformed (path : String)
  | noMicrosteps
  | blankFilter
  deriving DecidableEq, Repr

namespace SettingsFault

/-- The wording of a fault. -/
def message : SettingsFault → String
  | unreadable p r => "failed to read config file '" ++ p ++ "': " ++ r
  | malformed p => "failed to parse config file '" ++ p ++ "'"
  | noMicrosteps =>
    "configuration validation failed: engine.max_microsteps must be greater than zero"
  | blankFilter => "configuration validation failed: logging.filter must not be empty"

end SettingsFault

namespace Settings

/-- The settings without a file. -/
def default : Settings := ⟨.default, "info", []⟩

/-- The section of the engine. -/
def readOptions? (t : Tree) : Option Options := do
  let given ← Tree.fields? ["max_microsteps", "expose_event"] t
  let max ← given.orElse "max_microsteps" Tree.size? Options.default.maxMicrosteps
  let expose ← given.orElse "expose_event" Tree.bool? Options.default.exposeEvent
  return ⟨max, expose⟩

/-- The section of logging. -/
def readFilter? (t : Tree) : Option String := do
  let given ← Tree.fields? ["filter"] t
  given.orElse "filter" Tree.string? default.filter

/-- The section of variables. -/
def readContext? (t : Tree) : Option Fields :=
  match t.untagged with
  | .record fields => (Tree.pairs? fields).map Fields.ofList
  | .plain s => if s = "" then some [] else none
  | _ => none

/-- The settings in a document. -/
def ofTree? (t : Tree) : Option Settings := do
  let given ← Tree.fields? ["engine", "logging", "context"] t
  let options ← given.orElse "engine" readOptions? .default
  let filter ← given.orElse "logging" readFilter? default.filter
  let context ← given.orElse "context" readContext? []
  return ⟨options, filter, context⟩

/-- The settings in a file. -/
def ofFile (file : SourceFile) : Except SettingsFault Settings :=
  match file.contents with
  | .error reason => .error (.unreadable file.path reason)
  | .ok text =>
    match (Tree.ofYaml? text).bind ofTree? with
    | some s => .ok s
    | none => .error (.malformed file.path)

/-- Applies the environment.  A number that cannot be read changes nothing; events are exposed by
`true` and `1` only. -/
def override (s : Settings) (o : Overrides) : Settings :=
  { s with
    options :=
      { maxMicrosteps := (o.maxMicrosteps.bind Text.unsigned?).getD s.options.maxMicrosteps
        exposeEvent :=
          match o.exposeEvent with
          | some word => word = "true" || word = "1"
          | none => s.options.exposeEvent }
    filter := o.filter.getD s.filter }

/-- What is wrong with finished settings. -/
def fault? (s : Settings) : Option SettingsFault :=
  if s.options.maxMicrosteps = 0 then some .noMicrosteps
  else if Text.isBlankText s.filter then some .blankFilter
  else none

/-- Loads settings from a file, if there is one, and from the environment. -/
def load (file : Option SourceFile) (o : Overrides) : Except SettingsFault Settings :=
  let base := match file with
    | some file => ofFile file
    | none => .ok default
  match base with
  | .error f => .error f
  | .ok s =>
    let s := s.override o
    match s.fault? with
    | some f => .error f
    | none => .ok s

/-- The levels of messages, most urgent first. -/
def levels : List String := ["off", "error", "warn", "info", "debug", "trace"]

/-- Whether messages of a level are shown.  A filter that names no level shows all of them. -/
def shows (s : Settings) (level : String) : Bool :=
  match levels.idxOf? s.filter, levels.idxOf? level with
  | some most, some k => k ≤ most
  | _, _ => true

/-- The variables with which a chart starts. -/
def scope (s : Settings) : Scope := .ofJson (.object s.context)

/-- The options as a document. -/
def optionsJson (o : Options) : Json :=
  .ofFields [("max_microsteps", .ofNat o.maxMicrosteps), ("expose_event", .bool o.exposeEvent)]

/-- The settings as a document; without variables their section is left out. -/
def toJson (s : Settings) : Json :=
  .ofFields ([("engine", optionsJson s.options),
    ("logging", .ofFields [("filter", .string s.filter)])] ++
      if s.context.isEmpty then [] else [("context", .object s.context)])

end Settings

end Statechart
