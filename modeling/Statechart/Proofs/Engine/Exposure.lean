import Mathlib.Tactic.IntervalCases
import Statechart.Proofs.Engine.Coupling
import Statechart.Proofs.Engine.Stability
import Statechart.Proofs.Evaluation.Unread

/-!
# Exposing events to a model that does not look

An engine may make the event of a microstep visible as a variable.  To a model that does not name
this variable it makes no difference.

* `Engine.coupling_sameBut`: an engine keeps stores the same but for the variable, whether it exposes
  events or not;
* `Engine.SameBut`: two engines that are the same but for one variable;
* `Engine.exposure_unnoticed`: an engine that exposes events and one that does not give the same
  answers throughout a session, and after each step they are the same but for that variable.
-/

namespace Statechart

/-- A count of nothing. -/
def Stats.zero : Stats := ⟨0, 0, 0, 0⟩

theorem Stats.zero_add (s : Stats) : zero.add s = s := by
  simp only [zero, add, Nat.zero_add]

namespace Engine

variable {κ : Type} [Context κ] {name : String} {A : κ → κ → Prop} {m : Model}

/-- Two engines that are the same, except that one variable may have another value. -/
structure SameBut (name : String) (e x : Engine κ Cache) : Prop where
  rest : e = { x with store := { x.store with context := e.store.context } }
  context : Context.AgreeBut name e.store.context x.store.context

theorem Coupled.sameBut (hA : Context.Hides name A) {e x : Engine κ Cache}
    (h : Coupled (Store.SameBut A) Stats.zero e x) : SameBut name e x := by
  obtain ⟨_, ⟨k, hk, -, rfl⟩, rfl⟩ := h
  exact ⟨by rw [Stats.zero_add], hA.agree hk⟩

/-- Whether the event of a microstep is exposed makes a difference to the variable only, and this none
to a model that ignores it. -/
theorem coupling_sameBut (hA : Context.Hides eventVariable A) (hm : m.Ignores eventVariable)
    (limit : Nat) : Coupling (.standard m ⟨limit, true⟩) false (Store.SameBut A) where
  toCoupling := Store.coupling_sameBut hA hm
  expose {e x} event h := by
    obtain ⟨k, hk, hmem, hs⟩ := h
    cases event with
    | none => exact ⟨k, hk, hmem, hs⟩
    | some event =>
      refine ⟨_, hA.set_left event.view hk, hmem, ?_⟩
      simp only [expose, Setup.standard, Setup.exposing, if_true, Bool.false_eq_true, if_false, hs]
  select {e x} event hc h := by
    obtain ⟨k, hk, hmem, hs⟩ := h
    have hselect := Configuration.related_select
      (Configuration.guardsAgree_of_ignores hm (hA.agree hk)) ⟨rfl, hmem⟩ x.configuration event
    obtain ⟨hsame, hfaithful⟩ := hselect.memory
    unfold selectTransitions
    rw [hc, hs]
    refine ⟨hselect.result, k, hk, ?_, ?_⟩
    · rwa [hsame] at hfaithful
    · dsimp only [Setup.standard, Store.report]
      rw [hsame, hselect.faults]

/-- If a model has no expression with a path, and no location, that starts with the variable of events,
an engine that exposes events and one that does not, both new with one context, give the same answers
to all actions.  After each step they are the same, except for that variable.  The host may write to
the contexts as long as that keeps a relation which hides it. -/
theorem exposure_unnoticed (hv : m.Validated) (hm : m.Ignores eventVariable)
    (hA : Context.Hides eventVariable A) (limit : Nat) (context : κ) {memory : Cache}
    (hmemory : memory.Faithful) :
    ∃ e, create (.standard m ⟨limit, true⟩) context memory = .ok e ∧
      ∃ x, create (.standard m ⟨limit, false⟩) context memory = .ok x ∧
        ∀ actions : List (Action κ), (∀ change, .writeContext change ∈ actions →
            ∀ k k', A k k' → A (change k) (change k')) →
          sessionAnswers (.standard m ⟨limit, true⟩) e actions =
              sessionAnswers (.standard m ⟨limit, false⟩) x actions ∧
            List.Forall₂ (SameBut eventVariable)
              (sessionTrail (.standard m ⟨limit, true⟩) e actions)
              (sessionTrail (.standard m ⟨limit, false⟩) x actions) ∧
            SameBut eventVariable (performAll (.standard m ⟨limit, true⟩) e actions)
              (performAll (.standard m ⟨limit, false⟩) x actions) := by
  refine ⟨fresh context memory, create_eq hv context memory, fresh context memory,
    create_eq hv context memory, fun actions hwrites => ?_⟩
  have hactions : ∀ a ∈ actions, a.Keeps (Store.SameBut A) := by
    rintro a ha change rfl s t ⟨k, hk, hmem, rfl⟩
    exact ⟨_, hwrites change ha _ _ hk, hmem, rfl⟩
  have hfresh : Coupled (Store.SameBut A) Stats.zero (fresh context memory)
      (fresh context memory) := ⟨_, ⟨context, hA.refl context, hmemory, rfl⟩, rfl⟩
  have hstep := (coupling_sameBut hA hm limit).inStep hv hactions hfresh
  exact ⟨hstep.answers, hstep.trail.imp fun _ _ => Coupled.sameBut hA, hstep.last.sameBut hA⟩

end Engine

/-! ### A chart that does not look -/

namespace Model

/-- The state `a` gives way to `b` on `go` if `paid` holds, which is noted as `order.done`. -/
def noting : Model where
  nodes := #[
    ⟨none, .scxml none, none, [1, 4]⟩,
    ⟨some "a", .state none, some 0, [2]⟩,
    ⟨none, .transition ⟨[⟨"go"⟩], some "ctx.paid", ["b"], .external⟩, some 1, [3]⟩,
    ⟨none, .assign "order.done" "ctx.paid", some 2, []⟩,
    ⟨some "b", .state none, some 0, []⟩]
  root? := some 0
  index := [("a", 1), ("b", 4)]
  transitions := [2]

theorem addAll?_noting :
    empty.addAll? (noting.nodes.toList.map fun n => (⟨n.id, n.kind⟩, n.parent)) = some noting := by
  decide +kernel

theorem validated_noting : noting.Validated where
  built := Built.empty.addAll? addAll?_noting
  valid := by decide +kernel

theorem ignores_noting : noting.Ignores eventVariable where
  expression {i kind text e} hkind htext hparse := by
    have hi : i < 5 := lt_size_of_kind? hkind
    have htext : text = "ctx.paid" := by
      interval_cases i <;> cases hkind <;> simp_all [Kind.expressions, noting]
    have hpaid : Expr.parse "ctx.paid" = .ok (.field ["paid"]) := by with_unfolding_all rfl
    rw [htext, hpaid] at hparse
    cases hparse
    simp [Expr.Ignores, Expr.paths, eventVariable]
  location {i location expr path} hkind hpath := by
    have hi : i < 5 := lt_size_of_kind? hkind
    have hlocation : location = "order.done" := by
      interval_cases i <;> cases hkind
      rfl
    have hdone : locationPath "order.done" = .ok ["order", "done"] := by decide +kernel
    rw [hlocation, hdone] at hpath
    cases hpath
    simp [eventVariable]

end Model

namespace Engine

/-- An engine over a chart that takes no notice of events but for their names. -/
def notingSetup (exposeEvent : Bool) : Setup Scope Cache :=
  .standard Model.noting ⟨10, exposeEvent⟩

theorem validated_notingSetup (exposeEvent : Bool) : (notingSetup exposeEvent).model.Validated :=
  Model.validated_noting

/-- The host sets `paid`, and the event finds it. -/
def notingSession : List (Action Scope) :=
  [.writeContext (·.clearAll), .start, .writeContext (·.set "paid" (.bool true)),
    .inject (.external "go"), .processNext]

/-- The started engine with the event in its queue. -/
def notingQueued (exposeEvent : Bool) : Engine Scope Cache :=
  performAll (notingSetup exposeEvent)
    (started (notingSetup exposeEvent) (blank.writeContext (·.clearAll)))
    [.writeContext (·.set "paid" (.bool true)), .inject (.external "go")]

theorem startsAtOnce_noting (exposeEvent : Bool) :
    StartsAtOnce (notingSetup exposeEvent) (blank.writeContext (·.clearAll)) := by
  cases exposeEvent <;> decide +kernel

/-- The event is taken and processed, and the engine finds nothing more to do. -/
theorem performAll_notingSession (exposeEvent : Bool) :
    performAll (notingSetup exposeEvent) blank notingSession =
      (next (notingSetup exposeEvent))^[3] (notingQueued exposeEvent) := by
  have hwaiting : (notingQueued exposeEvent).phase = .waiting := by
    cases exposeEvent <;> decide +kernel
  have htaken : (step (notingSetup exposeEvent) (notingQueued exposeEvent)).1 =
      .ok (.dequeued "go") := by
    cases exposeEvent <;> decide +kernel
  have hdone : (step (notingSetup exposeEvent) (next (notingSetup exposeEvent)
      (notingQueued exposeEvent))).1 = .ok (.microstep (some "go") 1) := by
    cases exposeEvent <;> decide +kernel
  have hrest : stabilize (notingSetup exposeEvent) ((next (notingSetup exposeEvent))^[2]
      (notingQueued exposeEvent)) =
        (.ok 0, (next (notingSetup exposeEvent))^[3] (notingQueued exposeEvent)) := by
    apply stabilize_of_settled <;> cases exposeEvent <;> decide +kernel
  have hprocessed : (perform (notingSetup exposeEvent) (notingQueued exposeEvent) .processNext).2 =
      (next (notingSetup exposeEvent))^[3] (notingQueued exposeEvent) :=
    congrArg Prod.snd (processNext_of_stabilize hwaiting htaken hdone hrest)
  have hstart := (startsAtOnce_noting exposeEvent).performAll
    [.writeContext (·.set "paid" (.bool true)), .inject (.external "go"), .processNext]
  rw [← hprocessed]
  exact hstart

/-- Both engines take the transition; one of them still shows the event. -/
theorem exposure_unnoticed_noting :
    Model.noting.Ignores eventVariable ∧
      SameBut eventVariable (performAll (notingSetup true) blank notingSession)
        (performAll (notingSetup false) blank notingSession) ∧
      sessionAnswers (notingSetup true) blank notingSession =
        sessionAnswers (notingSetup false) blank notingSession ∧
      ((performAll (notingSetup true) blank notingSession).store.context.get?
        eventVariable).isSome ∧
      ((performAll (notingSetup false) blank notingSession).store.context.get?
        eventVariable).isNone := by
  obtain ⟨e, he, x, hx, h⟩ := exposure_unnoticed Model.validated_noting Model.ignores_noting
    (Scope.hides_sameBut eventVariable) 10 Scope.empty Cache.faithful_empty
  have hblank : ∀ exposed, create (notingSetup exposed) Scope.empty Cache.empty = .ok blank :=
    fun exposed => create_eq (validated_notingSetup exposed) _ _
  cases (hblank true).symm.trans he
  cases (hblank false).symm.trans hx
  have hwrites : ∀ change, .writeContext change ∈ notingSession →
      ∀ k k', Scope.SameBut eventVariable k k' →
        Scope.SameBut eventVariable (change k) (change k') := by
    intro change hchange k k' hk
    simp only [notingSession, List.mem_cons, Action.writeContext.injEq, reduceCtorEq, false_or,
      List.not_mem_nil, or_false] at hchange
    rcases hchange with rfl | rfl
    · exact hk.clearAll
    · exact (Scope.hides_sameBut eventVariable).set "paid" _ hk
  obtain ⟨hanswers, -, hlast⟩ := h notingSession hwrites
  refine ⟨Model.ignores_noting, hlast, hanswers, ?_, ?_⟩
  · rw [performAll_notingSession]
    decide +kernel
  · rw [performAll_notingSession]
    decide +kernel

end Engine

end Statechart
