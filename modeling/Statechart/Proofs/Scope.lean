import Statechart.Proofs.Expr.Assignment
import Statechart.Proofs.Json.Fields

/-!
# Nested scopes

A scope is edited in its innermost frame, and may be given new ones.  Looking a name up frame by
frame and merging all frames are two ways to read it, and they agree after any edits.

* `Edit`, `editAll`: what is done to a scope;
* `Tidy`: each frame is kept as an object is; edits keep it so (`Tidy.editAll`), and then both ways to
  read agree (`Tidy.get?_bindings`);
* `get?_clear`, `get?_clearAll`: a name that is removed shows what the scope around shows;
* `around?_editAll`: edits leave the scopes around as they are;
* `Layered`: how the frames of a scope work together; `layered_editAll`: they do after any edits.
-/

namespace Statechart.Scope

/-- A change of the innermost frame, or a new one. -/
inductive Edit
  | set (name : String) (value : Json)
  | clear (name : String)
  | clearAll
  | assign (location : String) (value : Json)
  | push
  deriving Repr

/-- Whether an edit adds a frame. -/
def Edit.isPush : Edit → Bool
  | push => true
  | _ => false

/-- The scope after an edit.  An assignment that is refused changes nothing. -/
def edit (s : Scope) : Edit → Scope
  | .set name value => s.set name value
  | .clear name => s.clear name
  | .clearAll => s.clearAll
  | .assign location value =>
    match Statechart.assign s location value with
    | .ok t => t
    | .error _ => s
  | .push => s.push

/-- The scope after some edits. -/
def editAll (s : Scope) (edits : List Edit) : Scope := edits.foldl edit s

/-- The scope that is some frames further out. -/
def around? (s : Scope) : Nat → Option Scope
  | 0 => some s
  | n + 1 => s.parent?.bind (·.around? n)

/-- What the scope around the innermost frame shows. -/
def inherited? (s : Scope) (name : String) : Option Json := s.parent?.bind (·.get? name)

variable {s : Scope} {e : Edit}

/-! ### Reading -/

theorem lookup_cons (frame : Fields) (rest : List Fields) (name : String) :
    lookup (frame :: rest) name = (frame.get? name).or (lookup rest name) := by
  rw [lookup]
  cases frame.get? name <;> rfl

/-- A variable is read in the innermost frame, or else around it. -/
theorem get?_eq (s : Scope) (name : String) :
    s.get? name = (s.own.get? name).or (s.inherited? name) := by
  obtain ⟨own, enclosing⟩ := s
  rw [get?, lookup_cons]
  cases enclosing <;> rfl

theorem get?_clear (s : Scope) (name other : String) :
    (s.clear name).get? other = if other = name then s.inherited? name else s.get? other := by
  rw [get?_eq, get?_eq s, clear, Fields.get?_erase]
  by_cases h : other = name
  · rw [if_pos h, if_pos h, h]
    rfl
  · rw [if_neg h, if_neg h]
    rfl

theorem get?_clearAll (s : Scope) (name : String) : s.clearAll.get? name = s.inherited? name :=
  get?_eq s.clearAll name

/-! ### Two ways to read -/

/-- The fields of all frames are in order. -/
def Tidy (s : Scope) : Prop := ∀ frame ∈ s.own :: s.enclosing, frame.Sorted

theorem sorted_visible (frames : List Fields) : (visible frames).Sorted := by
  induction frames with
  | nil => exact Fields.sorted_nil
  | cons frame rest ih => exact Fields.sorted_merge ih frame

theorem get?_visible {frames : List Fields} (h : ∀ frame ∈ frames, frame.Sorted) (name : String) :
    (visible frames).get? name = lookup frames name := by
  induction frames with
  | nil => rfl
  | cons frame rest ih =>
    obtain ⟨hframe, hrest⟩ := List.forall_mem_cons.1 h
    rw [visible, Fields.get?_merge hframe.nodup, ih hrest, lookup_cons]

/-- All visible variables together show what is read one by one. -/
theorem Tidy.get?_bindings (h : s.Tidy) (name : String) : s.bindings.get? name = s.get? name :=
  get?_visible h name

/-! ### Edits -/

/-- An edit that adds no frame changes the innermost one, and keeps its fields in order. -/
theorem edit_eq (h : e.isPush = false) (s : Scope) :
    ∃ own, s.edit e = ⟨own, s.enclosing⟩ ∧ (s.own.Sorted → own.Sorted) := by
  cases e with
  | set name value => exact ⟨_, rfl, fun hown => Fields.sorted_set hown name value⟩
  | clear name => exact ⟨_, rfl, fun hown => Fields.sorted_erase hown name⟩
  | clearAll => exact ⟨[], rfl, fun _ => Fields.sorted_nil⟩
  | assign location value =>
    by_cases hempty : "" ∈ Text.dotted (bareLocation location)
    · exact ⟨s.own, by rw [edit, assign_of_mem hempty], id⟩
    · rw [edit, assign_of_not_mem hempty]
      obtain hw | ⟨name, x, hw⟩ := writePath_cases s (Text.dotted (bareLocation location)) value
      · exact ⟨s.own, hw, id⟩
      · exact ⟨_, hw, fun hown => Fields.sorted_set hown name x⟩
  | push => cases h

theorem edit_push (h : e.isPush) (s : Scope) : s.edit e = s.push := by
  cases e with
  | push => rfl
  | _ => cases h

theorem Tidy.edit (h : s.Tidy) (e : Edit) : (s.edit e).Tidy := by
  cases he : e.isPush with
  | false =>
    obtain ⟨own, heq, hown⟩ := edit_eq he s
    rw [heq]
    exact List.forall_mem_cons.2
      ⟨hown (h s.own (List.mem_cons_self ..)), fun frame hf => h frame (List.mem_cons_of_mem _ hf)⟩
  | true =>
    rw [edit_push he]
    exact List.forall_mem_cons.2 ⟨Fields.sorted_nil, h⟩

theorem Tidy.editAll (h : s.Tidy) (edits : List Edit) : (s.editAll edits).Tidy := by
  induction edits generalizing s with
  | nil => exact h
  | cons e rest ih => exact ih (h.edit e)

/-- An object gives a scope that is tidy. -/
theorem tidy_ofFields (pairs : List (String × Json)) : (ofJson (.ofFields pairs)).Tidy :=
  List.forall_mem_singleton.2 (Fields.sorted_ofList pairs)

/-! ### The scopes around -/

/-- How many frames edits add. -/
def pushes (edits : List Edit) : Nat := edits.countP Edit.isPush

theorem parent?_edit (h : e.isPush = false) (s : Scope) : (s.edit e).parent? = s.parent? := by
  obtain ⟨own, heq, -⟩ := edit_eq h s
  rw [heq]
  rfl

theorem around?_edit (s : Scope) (e : Edit) (n : Nat) :
    (s.edit e).around? (pushes [e] + n + 1) = s.around? (n + 1) := by
  cases he : e.isPush with
  | false => simp [pushes, he, around?, parent?_edit he]
  | true =>
    rw [edit_push he]
    simp [pushes, he, Nat.add_comm 1 n, around?, push, parent?]

/-- Edits leave the scopes around as they are, each further out by the frames that are new. -/
theorem around?_editAll (s : Scope) (edits : List Edit) (n : Nat) :
    (s.editAll edits).around? (pushes edits + n + 1) = s.around? (n + 1) := by
  induction edits generalizing s n with
  | nil => rw [pushes, List.countP_nil, Nat.zero_add, editAll, List.foldl_nil]
  | cons e rest ih =>
    have hcount : pushes (e :: rest) + n + 1 = pushes rest + (pushes [e] + n) + 1 := by
      simp only [pushes, List.countP_cons, List.countP_nil]
      omega
    rw [hcount, editAll, List.foldl_cons]
    exact (ih (s.edit e) _).trans (around?_edit s e n)

/-- How the frames of a scope work together. -/
structure Layered (s : Scope) : Prop where
  /-- All visible variables are listed once, and show what is read one by one. -/
  sorted : s.bindings.Sorted
  get? {name : String} {v : Json} : s.get? name = some v ↔ (name, v) ∈ s.bindings
  /-- A variable that is set is the only one to change. -/
  set (name : String) (v : Json) (other : String) :
    (s.set name v).get? other = if other = name then some v else s.get? other
  /-- A variable that is removed shows what the scope around shows, and the others do not change. -/
  clear (name other : String) :
    (s.clear name).get? other = if other = name then s.inherited? name else s.get? other
  clearAll (name : String) : s.clearAll.get? name = s.inherited? name
  /-- A new frame shows what is inherited, and has the scope as it is around it. -/
  push : s.push.parent? = some s ∧ ∀ name, s.push.get? name = s.get? name
  /-- No other edit touches the scope around, -/
  parent (e : Edit) : e.isPush = false → (s.edit e).parent? = s.parent?
  /-- and no sequence of edits any scope further out. -/
  around (edits : List Edit) (n : Nat) :
    (s.editAll edits).around? (pushes edits + n + 1) = s.around? (n + 1)

theorem Tidy.layered (h : s.Tidy) : s.Layered where
  sorted := sorted_visible _
  get? {name v} := by
    rw [← h.get?_bindings]
    exact Fields.get?_eq_some_iff (sorted_visible _).nodup
  set := get?_set s
  clear := get?_clear s
  clearAll := get?_clearAll s
  push := ⟨rfl, fun _ => rfl⟩
  parent _ he := parent?_edit he s
  around := around?_editAll s

/-- After any edits of a scope with the fields of an object, its frames work together. -/
theorem layered_editAll (pairs : List (String × Json)) (edits : List Edit) :
    ((ofJson (.ofFields pairs)).editAll edits).Layered :=
  ((tidy_ofFields pairs).editAll edits).layered

/-- A null shadows, and a name that is removed shows what it inherits. -/
example : ((ofJson (.ofFields [("a", .ofNat 1), ("b", .ofNat 2)])).editAll
    [.push, .set "b" .null, .assign "a.x" (.ofNat 3), .clear "a"]).bindings =
      [("a", .ofNat 1), ("b", .null)] := by rfl

end Statechart.Scope
