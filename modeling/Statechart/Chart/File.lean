import Statechart.Chart.Reader
import Statechart.Settings

/-!
# Chart files

A chart is read from a file as YAML if the file's name ends in `.yaml` or `.yml`, and as JSON
otherwise.
-/

namespace Statechart.Chart

/-- The chart of a YAML text. -/
def ofYamlText (s : String) : Except Error Chart :=
  match (Tree.ofYaml? s).bind (ofTree? .tags) with
  | some c => .ok c
  | none => .error .notYamlChart

/-- The last name of a path. -/
def fileName (path : String) : List Char :=
  let names := (Text.pieces (· == '/') path.toList).filter fun n => n ≠ [] ∧ n ≠ ['.']
  match names.getLast? with
  | some ['.', '.'] => []
  | some name => name
  | none => []

/-- What follows the last dot of a file's name, unless the name starts with that dot. -/
def extension? (path : String) : Option String :=
  match (Text.pieces (· == '.') (fileName path)).reverse with
  | last :: stem :: rest => if stem = [] ∧ rest = [] then none else some (String.ofList last)
  | _ => none

/-- The chart of a file. -/
def ofFile (file : SourceFile) : Except Error Chart :=
  match file.contents with
  | .error reason => .error (.unreadableFile reason)
  | .ok text =>
    if extension? file.path = some "yaml" ∨ extension? file.path = some "yml" then ofYamlText text
    else ofJsonText text

end Statechart.Chart
