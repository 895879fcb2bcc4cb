import Statechart.Engine.Phase
import Statechart.Expr.Token
import Statechart.Json.Printer

/-!
# Errors

What can go wrong, as causes; `Error.message` holds the wording, `Error.code` a stable code for
hosts, and `Error.isFatal` tells whether the model or the engine can go on.
-/

namespace Statechart

/-- Why a node cannot be added to a model.  Nodes are named by kind and label. -/
inductive StructureFault
  | rootWithParent
  | secondRoot
  | missingParent (kind : String)
  | unknownParent (number : Nat)
  | misplaced (kind parentKind parent : String)
  | initialBesideAttribute (parent child : String)
  | secondInitial (parent : String)
  | secondInitialTransition
  | initialWithEvent
  | initialWithCondition
  | initialWithoutTarget
  | initialWithContent
  | reservedId (id marker : String)
  | duplicateId (id : String)
  | misplacedInitialAttribute (child : String)
  deriving DecidableEq, Repr

namespace StructureFault

/-- The wording of a fault. -/
def message : StructureFault → String
  | rootWithParent => "scxml root cannot have a parent"
  | secondRoot => "model already has an scxml root"
  | missingParent k => k ++ " node must have a parent"
  | unknownParent n => "unknown parent node #" ++ toString n
  | misplaced k pk p => k ++ " is not a valid child of " ++ pk ++ " '" ++ p ++ "'"
  | initialBesideAttribute p a =>
    "'" ++ p ++ "' cannot use an initial element together with initial attribute '" ++ a ++ "'"
  | secondInitial p => "'" ++ p ++ "' already has an initial element"
  | secondInitialTransition => "initial element holds exactly one transition"
  | initialWithEvent => "initial transition cannot have an event"
  | initialWithCondition => "initial transition cannot have a condition"
  | initialWithoutTarget => "initial transition must name a target"
  | initialWithContent => "initial transition cannot contain executable content"
  | reservedId i m => "id '" ++ i ++ "' uses the reserved prefix '" ++ m ++ "'"
  | duplicateId i => "duplicate state id '" ++ i ++ "'"
  | misplacedInitialAttribute a => "initial attribute '" ++ a ++ "' is only allowed on a state"

end StructureFault

/-- Why a finished model is not valid.  Nodes are named by their labels. -/
inductive ModelFault
  | noRoot
  | noStates
  | badInitialAttribute (child owner : String)
  | emptyParallel (parallel : String)
  | initialWithoutTransition (owner : String)
  | initialOutside (target owner : String)
  | notOrthogonal (first second event : String)
  deriving DecidableEq, Repr

namespace ModelFault

/-- The wording of a fault. -/
def message : ModelFault → String
  | noRoot => "model has no scxml root"
  | noStates => "document contains no states"
  | badInitialAttribute a o => "initial attribute '" ++ a ++ "' of '" ++ o ++ "' does not name a child state"
  | emptyParallel p => "parallel '" ++ p ++ "' has no regions"
  | initialWithoutTransition o => "initial element of '" ++ o ++ "' has no transition"
  | initialOutside t o => "initial target '" ++ t ++ "' is not a descendant of '" ++ o ++ "'"
  | notOrthogonal a b e =>
    "targets '" ++ a ++ "' and '" ++ b ++ "' of transition with event '" ++ e ++
      "' are not in orthogonal regions"

end ModelFault

/-- Why a set of states is not legal.  Nodes are named by their labels. -/
inductive ConfigurationFault
  | unknownNode (number : Nat)
  | neverActive (kind node : String)
  | noAtomicState
  | notAState (node : String)
  | inactiveAncestor (state ancestor : String)
  | inactiveRegions (parallel : String) (active total : Nat)
  | activeChildren (compound : String) (active : Nat)
  | topLevelStates (active : Nat)
  deriving DecidableEq, Repr

namespace ConfigurationFault

/-- The wording of a fault. -/
def message : ConfigurationFault → String
  | unknownNode n => "unknown node #" ++ toString n
  | neverActive k n => k ++ " '" ++ n ++ "' cannot be active"
  | noAtomicState => "no atomic state is active"
  | notAState n => "'" ++ n ++ "' is not a state"
  | inactiveAncestor s a => "'" ++ s ++ "' is active but its ancestor '" ++ a ++ "' is not"
  | inactiveRegions p a t =>
    "parallel '" ++ p ++ "' has " ++ toString a ++ " of " ++ toString t ++ " regions active"
  | activeChildren c a => "compound '" ++ c ++ "' has " ++ toString a ++ " active children"
  | topLevelStates a => toString a ++ " top-level states are active"

end ConfigurationFault

/-- An error of the library. -/
inductive Error
  /-- A node does not fit where it is added. -/
  | structural (fault : StructureFault)
  /-- A transition names a target that is no state. -/
  | unresolvedTarget (event target : String)
  /-- The finished model is not valid. -/
  | invalidModel (fault : ModelFault)
  /-- A set of states is not legal. -/
  | illegalConfiguration (fault : ConfigurationFault)
  /-- A guard failed. -/
  | guard (expr : String) (cause : Error)
  /-- Something other than two numbers is compared by order. -/
  | unordered (left : Json) (op : Comparison) (right : Json)
  /-- An expression of executable content failed. -/
  | evaluation (expr : String) (cause : Error)
  /-- A text is no expression, or no place of an assignment. -/
  | invalidExpression (fault : Expr.Fault)
  /-- An operation is not possible in the engine's phase. -/
  | refused (operation : Operation) (phase : Phase)
  /-- A stabilization took too many microsteps. -/
  | stabilizationLimit (limit : Nat)
  /-- The external queue takes no events. -/
  | queueClosed
  /-- A file cannot be read. -/
  | unreadableFile (reason : String)
  /-- A text or value is no chart in JSON. -/
  | notJsonChart
  /-- A text is no chart in YAML. -/
  | notYamlChart

namespace Error

/-- The wording of an error. -/
def message : Error → String
  | structural f => "structural model error: " ++ f.message
  | unresolvedTarget e t => "invalid target '" ++ t ++ "' for transition with event '" ++ e ++ "'"
  | invalidModel f => "model validation failed: " ++ f.message
  | illegalConfiguration f => "illegal configuration: " ++ f.message
  | guard e cause => "guard '" ++ e ++ "' failed to evaluate: " ++ cause.message
  | unordered l op r =>
    "expression '" ++ l.write ++ " " ++ op.symbol ++ " " ++ r.write ++
      "' failed to evaluate: ordering comparison requires two numbers"
  | evaluation e cause => "expression '" ++ e ++ "' failed to evaluate: " ++ cause.message
  | invalidExpression f => "invalid expression: " ++ f.message
  | refused op p => "cannot " ++ op.describe ++ " while engine is " ++ p.describe
  | stabilizationLimit n => "stabilization did not settle within " ++ toString n ++ " microsteps"
  | queueClosed => "external event queue is closed"
  | unreadableFile r => "I/O error: " ++ r
  | notJsonChart => "JSON error"
  | notYamlChart => "YAML error"

/-- A stable code. -/
def code : Error → String
  | structural _ => "STRUCTURAL_MODEL"
  | unresolvedTarget _ _ => "VALIDATION"
  | invalidModel _ => "VALIDATION"
  | illegalConfiguration _ => "ILLEGAL_CONFIGURATION"
  | guard _ _ => "GUARD_EVALUATION"
  | unordered _ _ _ => "EVALUATION"
  | evaluation _ _ => "EVALUATION"
  | invalidExpression _ => "BAD_EXPRESSION"
  | refused _ _ => "ENGINE_STATE"
  | stabilizationLimit _ => "STABILIZATION_LIMIT"
  | queueClosed => "QUEUE_CLOSED"
  | unreadableFile _ => "IO_ERROR"
  | notJsonChart => "BAD_DOCUMENT"
  | notYamlChart => "BAD_DOCUMENT"

/-- Whether an error ends the model or the engine; after the others the caller can go on. -/
def isFatal : Error → Bool
  | guard _ _ | unordered _ _ _ | evaluation _ _ | refused _ _ | queueClosed => false
  | _ => true

end Error

/-- Whether something succeeds with a given value can be decided, whatever its errors are. -/
instance decidableEqOk {ε α : Type} [DecidableEq α] (r : Except ε α) (a : α) :
    Decidable (r = .ok a) :=
  match r with
  | .ok b =>
    if h : b = a then .isTrue (congrArg Except.ok h) else .isFalse fun h' => h (Except.ok.inj h')
  | .error _ => .isFalse nofun

end Statechart
