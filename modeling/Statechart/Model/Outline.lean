import Statechart.Model.Tree

/-!
# Outlines

`Model.outline` shows the tree of a model, a node on each line under its parent.
-/

namespace Statechart.Model

/-- What a node shows besides its kind, its id and its number. -/
def details (m : Model) (i : Nat) : Kind → String
  | .scxml _ => defaults
  | .state _ => if m.isAtomic i then "" else defaults
  | .transition t =>
    " event=" ++ (if t.isEventless then "-" else t.descriptor) ++ " cond=" ++ t.cond.getD "-" ++
      " targets=" ++ ",".intercalate t.targets
  | .log label expr => " label=" ++ label.getD "-" ++ " expr=" ++ expr.getD "-"
  | .raise event => " event=" ++ event
  | .assign location expr => " location=" ++ location ++ " expr=" ++ expr
  | _ => ""
where
  /-- What the node enters by default. -/
  defaults : String := " initial=" ++ ",".intercalate ((m.defaultTargets i).map m.label)

/-- The line of a node. -/
def line (m : Model) (i : Nat) (depth : Nat) : String :=
  match m.node? i with
  | none => ""
  | some n =>
    String.ofList (List.replicate (4 * depth) ' ') ++ n.kind.name ++
      (match n.id with
        | some id => " id=" ++ id
        | none => "") ++
      " order=" ++ toString i ++ m.details i n.kind ++ "\n"

/-- The lines of a node and of all nodes below it. -/
def lines (m : Model) (i : Nat) (depth : Nat) : String :=
  (m.children i).foldl (fun out child =>
    if _h : i < child ∧ child < m.size then out ++ lines m child (depth + 1) else out)
    (m.line i depth)
termination_by m.size - i
decreasing_by omega

/-- The tree of a model as text. -/
def outline (m : Model) : String :=
  match m.root? with
  | some root => m.lines root 0
  | none => "<empty model>\n"

end Statechart.Model
