import Statechart.Configuration.Selection
import Statechart.Content

/-!
# Two runs of the same content

Two runs go the same way as long as all that they look at is the same.  The rest may differ: what
their evaluators remember, say, or variables that nothing reads.

* `SameAnswer`: the same answer, and what is left is related;
* `Configuration.GuardsAgree`: the guards of a model hold in one run as in the other;
  `Configuration.related_select`: then the same is selected;
* `Store.Coupling`: a relation between stores that the actions of a model keep, and from which they
  end in the same way; `Store.Coupling.runBlocks`: so does all its executable content.
-/

namespace Statechart

variable {κ σ : Type}

/-- Two answers are the same, and what is left after them is related. -/
def SameAnswer {α β : Type} (T : β → β → Prop) (r s : α × β) : Prop := r.1 = s.1 ∧ T r.2 s.2

theorem SameAnswer.elim {α β : Type} {T : β → β → Prop} {r s : α × β} (h : SameAnswer T r s) :
    ∃ a x y, r = (a, x) ∧ s = (a, y) ∧ T x y :=
  ⟨r.1, r.2, s.2, rfl, Prod.ext h.1.symm rfl, h.2⟩

theorem SameAnswer.map {α β γ : Type} {T : β → β → Prop} {r s : α × β} (h : SameAnswer T r s)
    (f : α → γ) : SameAnswer T (f r.1, r.2) (f s.1, s.2) := ⟨congrArg f h.1, h.2⟩

/-! ### Selecting transitions -/

/-- Two selections with the same result and faults, which leave related memories. -/
structure Selection.Related {α : Type} (R : σ → σ → Prop) (s s' : Selection α σ) : Prop where
  result : s.result = s'.result
  faults : s.faults = s'.faults
  memory : R s.memory s'.memory

namespace Configuration

/-- The guards of a model hold in one context as in the other, and fail in the same way. -/
def GuardsAgree (m : Model) (ev : Evaluator κ σ) (R : σ → σ → Prop) (k k' : κ) : Prop :=
  ∀ t transition, m.transition? t = some transition → ∀ mem mem', R mem mem' →
    (guardHolds ev k mem transition.cond).Related R (guardHolds ev k' mem' transition.cond)

variable {m : Model} {ev : Evaluator κ σ} {R : σ → σ → Prop} {k k' : κ} {mem mem' : σ}

section GuardsAgree

variable (hguards : GuardsAgree m ev R k k') (h : R mem mem')
include hguards h

theorem related_firstEnabled (event : Option Event) (ts : List Nat) :
    (firstEnabled m ev k event mem ts).Related R (firstEnabled m ev k' event mem' ts) := by
  induction ts generalizing mem mem' with
  | nil => exact ⟨rfl, rfl, h⟩
  | cons t rest ih =>
    unfold firstEnabled
    split
    · exact ih h
    · next transition ht =>
      split
      · have hguard := hguards t transition ht mem mem' h
        dsimp only
        rw [← hguard.result]
        split
        · exact ⟨rfl, hguard.faults, hguard.memory⟩
        · have hrest := ih hguard.memory
          refine ⟨hrest.result, ?_, hrest.memory⟩
          show _ ++ _ = _ ++ _
          rw [hguard.faults, hrest.faults]
      · exact ih h

theorem related_offers (event : Option Event) (states : List Nat) :
    (offers m ev k event mem states).Related R (offers m ev k' event mem' states) := by
  induction states generalizing mem mem' with
  | nil => exact ⟨rfl, rfl, h⟩
  | cons s rest ih =>
    have hfirst := related_firstEnabled hguards h event (m.transitionsOf s)
    have hrest := ih hfirst.memory
    unfold offers
    refine ⟨?_, ?_, hrest.memory⟩
    · show _ ++ _ = _ ++ _
      rw [hfirst.result, hrest.result]
    · show _ ++ _ = _ ++ _
      rw [hfirst.faults, hrest.faults]

/-- If the guards agree, the same is selected. -/
theorem related_select (c : Configuration) (event : Option Event) :
    (c.select m ev k event mem).Related R (c.select m ev k' event mem') := by
  have hoffers := related_offers hguards h event c.states.toList
  unfold select
  exact ⟨congrArg (c.preempt m) hoffers.result, hoffers.faults, hoffers.memory⟩

end GuardsAgree

end Configuration

/-! ### Executable content -/

namespace Store

/-- A relation between stores with the same internal events, from which the actions of a model end in
the same way, and which they keep, as do reports and changes of the internal events. -/
structure Coupling [Context κ] (m : Model) (ev : Evaluator κ σ)
    (S : Store κ σ → Store κ σ → Prop) : Prop where
  internal {s t : Store κ σ} : S s t → s.internal = t.internal
  requeue {s t : Store κ σ} (events : List Event) :
    S s t → S { s with internal := events } { t with internal := events }
  report {s t : Store κ σ} (errors : List Error) : S s t → S (s.report errors) (t.report errors)
  action {s t : Store κ σ} {i : Nat} {kind : Kind} :
    m.kind? i = some kind → S s t → SameAnswer S (s.runAction ev kind) (t.runAction ev kind)

namespace Coupling

variable [Context κ] {m : Model} {ev : Evaluator κ σ} {S : Store κ σ → Store κ σ → Prop}
  {s t : Store κ σ} (hS : Coupling m ev S) (h : S s t)
include hS h

theorem append (events : List Event) :
    S { s with internal := s.internal ++ events } { t with internal := t.internal ++ events } := by
  rw [hS.internal h]
  exact hS.requeue _ h

theorem raise (event : Event) : S (s.raise event) (t.raise event) := hS.append h [event]

theorem runActions {actions : List Kind} (hmodel : ∀ kind ∈ actions, ∃ i, m.kind? i = some kind) :
    SameAnswer S (s.runActions ev actions) (t.runActions ev actions) := by
  induction actions generalizing s t with
  | nil => exact ⟨rfl, h⟩
  | cons action rest ih =>
    obtain ⟨⟨i, hi⟩, hrest⟩ := List.forall_mem_cons.1 hmodel
    obtain ⟨x, s', t', hs, ht, h'⟩ := (hS.action hi h).elim
    simp only [Store.runActions, hs, ht]
    cases x with
    | none => exact ih h' hrest
    | some e => exact ⟨rfl, h'⟩

theorem runBlock (block : Nat) : S (s.runBlock m ev block) (t.runBlock m ev block) := by
  have hmodel : ∀ kind ∈ (m.children block).filterMap m.kind?, ∃ i, m.kind? i = some kind :=
    fun kind hkind => (List.mem_filterMap.1 hkind).imp fun _ h => h.2
  obtain ⟨x, s', t', hs, ht, h'⟩ := (hS.runActions h hmodel).elim
  simp only [Store.runBlock, hs, ht]
  cases x with
  | none => exact h'
  | some e => exact hS.raise (hS.report [e] h') _

/-- All content of the model keeps the relation. -/
theorem runBlocks (blocks : List Nat) : S (s.runBlocks m ev blocks) (t.runBlocks m ev blocks) := by
  induction blocks generalizing s t with
  | nil => exact h
  | cons block rest ih => exact ih (hS.runBlock h block)

end Coupling

end Store

end Statechart
