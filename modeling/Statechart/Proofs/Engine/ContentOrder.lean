import Statechart.Proofs.Configuration.Domains
import Statechart.Proofs.Engine.Delivery

/-!
# The order in which content runs

A microstep runs the `onexit` blocks of the states that it leaves, the actions of the transitions, and
the `onentry` blocks of the states that it enters.

* `Configuration.Sequenced`: an order of the states left and entered in which nothing is missing,
  nothing is doubled and the tree is respected;
* `Configuration.sequenced_leaving_entering`: the walks through the states follow such an order, as a
  state has a larger number than those above it;
* `Engine.answer_microstep`, `Engine.configuration_microstep`, `Engine.store_microstep`: what a
  microstep in a legal configuration answers, publishes and runs;
* `Engine.content_in_order`: this together, and that the content has no influence on the configuration
  that is published.
-/

namespace Statechart

namespace Configuration

open Model

/-- The states that some transitions leave, each once and every one after those below it, and the
states that they enter, each once and every one before those below it.  The former are active, and the
latter are not active once the former have been left. -/
structure Sequenced (m : Model) (c : Configuration) (ts exits entries : List Nat) : Prop where
  mem_exits {s : Nat} : s ∈ exits ↔ s ∈ c.exitSet m ts
  nodup_exits : exits.Nodup
  inner_first : exits.Pairwise fun a b => ¬ m.isBelow b a
  active {s : Nat} : s ∈ exits → s ∈ c.states
  sorted : ts.Pairwise (· < ·)
  mem_entries {s : Nat} : s ∈ entries ↔ s ∈ m.entrySet ts
  nodup_entries : entries.Nodup
  outer_first : entries.Pairwise fun a b => ¬ m.isBelow a b
  inactive {s : Nat} : s ∈ entries → s ∉ (c.leave (c.exitSet m ts)).states

variable {m : Model} {c : Configuration} {s : Nat} {ts : List Nat}

theorem active_of_mem_exitSet (hs : s ∈ c.exitSet m ts) : s ∈ c.states := by
  obtain ⟨t, -, hs⟩ := mem_exitSet.1 hs
  obtain ⟨d, -, hsc, -⟩ := mem_exitsOf.1 hs
  exact hsc

/-- A state that is entered and still active lies below the domain that it is entered for, so it has
been left before. -/
theorem not_mem_leave_of_mem_entrySet (hm : m.WellFormed) (hs : s ∈ m.entrySet ts) :
    s ∉ (c.leave (c.exitSet m ts)).states := by
  obtain ⟨t, ht, hs⟩ := mem_entrySet.1 hs
  obtain ⟨d, hd, -⟩ := mem_entriesOf.1 hs
  have hbelow : m.isBelow s d := isBelow_of_mem_entriesOf hm hd hs
  intro hleft
  rw [leave, NodeSet.mem_diff] at hleft
  exact hleft.2 (mem_exitSet.2 ⟨t, ht, mem_exitsOf.2 ⟨d, hd, hleft.1, hbelow⟩⟩)

/-- No state that is left is skipped. -/
theorem leaving_exitSet : c.leaving (c.exitSet m ts) = (c.exitSet m ts).toList.reverse := by
  refine List.filter_eq_self.2 fun s hs => ?_
  rw [List.mem_reverse] at hs
  exact decide_eq_true (active_of_mem_exitSet hs)

/-- No state that is entered is skipped. -/
theorem entering_entrySet (hm : m.WellFormed) :
    (c.leave (c.exitSet m ts)).entering (m.entrySet ts) = (m.entrySet ts).toList := by
  refine List.filter_eq_self.2 fun s hs => ?_
  rw [Bool.not_eq_true', decide_eq_false_iff_not]
  exact not_mem_leave_of_mem_entrySet hm hs

theorem sequenced_leaving_entering (hm : m.WellFormed) (hts : ts.Pairwise (· < ·)) :
    Sequenced m c ts (c.leaving (c.exitSet m ts))
      ((c.leave (c.exitSet m ts)).entering (m.entrySet ts)) := by
  -- Both walks go by number, and a state has a larger number than those above it.
  have hup : (m.entrySet ts).toList.Pairwise (· < ·) := (m.entrySet ts).sorted
  have hdown : (c.exitSet m ts).toList.reverse.Pairwise (· > ·) :=
    List.pairwise_reverse.2 (c.exitSet m ts).sorted
  rw [leaving_exitSet, entering_entrySet hm]
  constructor
  case mem_exits =>
    intro s
    rw [List.mem_reverse, NodeSet.mem_def]
  case nodup_exits => exact hdown.imp fun hab => Nat.ne_of_gt hab
  case inner_first =>
    refine hdown.imp fun {a b} hab hbelow => ?_
    have := hm.isBelow_lt hbelow
    omega
  case active =>
    intro s hs
    rw [List.mem_reverse] at hs
    exact active_of_mem_exitSet hs
  case sorted => exact hts
  case mem_entries =>
    intro s
    rw [NodeSet.mem_def]
  case nodup_entries => exact hup.imp fun hab => Nat.ne_of_lt hab
  case outer_first =>
    refine hup.imp fun {a b} hab hbelow => ?_
    have := hm.isBelow_lt hbelow
    omega
  case inactive => exact fun hs => not_mem_leave_of_mem_entrySet hm hs

end Configuration

/-! ### Charts with failing content -/

namespace Model

/-- On `go` the state `s` with its child `a` gives way to `t` with its child `u`.  When `s` is left the
value of an expression is put into the context; everything else raises an event. -/
def departing (text : String) : Model where
  nodes := #[
    ⟨none, .scxml none, none, [1, 9]⟩,
    ⟨some "s", .state none, some 0, [2, 4]⟩,
    ⟨none, .onExit, some 1, [3]⟩,
    ⟨none, .assign "x" text, some 2, []⟩,
    ⟨some "a", .state none, some 1, [5, 7]⟩,
    ⟨none, .onExit, some 4, [6]⟩,
    ⟨none, .raise "a.left", some 5, []⟩,
    ⟨none, .transition ⟨[⟨"go"⟩], none, ["u"], .external⟩, some 4, [8]⟩,
    ⟨none, .raise "moved", some 7, []⟩,
    ⟨some "t", .state none, some 0, [10, 12]⟩,
    ⟨none, .onEntry, some 9, [11]⟩,
    ⟨none, .raise "t.entered", some 10, []⟩,
    ⟨some "u", .state none, some 9, [13]⟩,
    ⟨none, .onEntry, some 12, [14]⟩,
    ⟨none, .raise "u.entered", some 13, []⟩]
  root? := some 0
  index := [("s", 1), ("a", 4), ("t", 9), ("u", 12)]
  transitions := [7]

theorem addAll?_departing : ∀ text ∈ ["ctx.paid", "("],
    empty.addAll? ((departing text).nodes.toList.map fun n => (⟨n.id, n.kind⟩, n.parent)) =
      some (departing text) := by
  decide +kernel

theorem validate_departing : ∀ text ∈ ["ctx.paid", "("], (departing text).validate = .ok () := by
  simp only [List.forall_mem_cons]
  exact ⟨by decide +kernel, by decide +kernel, by simp⟩

theorem validated_departing {text : String} (h : text ∈ ["ctx.paid", "("]) :
    (departing text).Validated where
  built := Built.empty.addAll? (addAll?_departing text h)
  valid := validate_departing text h

/-- The expression makes no difference to where the transition leads. -/
theorem sameShape_departing (text text' : String) : (departing text).SameShape (departing text') where
  size := rfl
  root? := rfl
  parent? i := by
    match i with
    | 0 | 1 | 2 | 3 | 4 | 5 | 6 | 7 | 8 | 9 | 10 | 11 | 12 | 13 | 14 => rfl
    | n + 15 => rfl
  children i := by
    match i with
    | 0 | 1 | 2 | 3 | 4 | 5 | 6 | 7 | 8 | 9 | 10 | 11 | 12 | 13 | 14 => rfl
    | n + 15 => rfl
  kind {i k} hk := by
    by_cases hi : i = 3
    · subst hi
      cases hk
      exact ⟨_, rfl, .action rfl rfl⟩
    · refine ⟨k, ?_, .refl k⟩
      rw [← hk]
      match i with
      | 0 | 1 | 2 | 4 | 5 | 6 | 7 | 8 | 9 | 10 | 11 | 12 | 13 | 14 => rfl
      | 3 => exact absurd rfl hi
      | n + 15 => rfl
  index := rfl
  transitions := rfl

end Model

namespace Engine

variable {κ σ : Type} [Context κ] {su : Setup κ σ} {e : Engine κ σ} {event : Option Event}

theorem pairwise_lt_selected (hm : su.model.WellFormed) (event : Option Event) (e : Engine κ σ) :
    (selected su event e).Pairwise (· < ·) := by
  obtain ⟨candidates, hpreempt, -⟩ := exists_candidates hm event e
  rw [hpreempt]
  exact Configuration.pairwise_lt_preempt

/-! ### A microstep in a legal configuration -/

theorem answer_microstep (hv : su.model.Validated) (h : e.configuration.Legal su.model)
    (event : Option Event) :
    (microstep su event e).1 = .ok (selected su event e).length := by
  rcases microstep_cases hv h event with ⟨hnil, hstep⟩ | ⟨-, hstep⟩
  · rw [hstep, hnil]
    rfl
  · rw [hstep]

theorem configuration_microstep (hv : su.model.Validated) (h : e.configuration.Legal su.model)
    (event : Option Event) :
    (microstep su event e).2.configuration =
      e.configuration.take su.model (selected su event e) := by
  rcases microstep_cases hv h event with ⟨hnil, hstep⟩ | ⟨-, hstep⟩
  · rw [hstep, hnil, Configuration.take_nil]
    exact configuration_prepared
  · rw [hstep]
    exact configuration_acted

/-- A microstep runs its blocks, one after the other, and then raises completions. -/
theorem store_microstep (hv : su.model.Validated) (h : e.configuration.Legal su.model)
    (event : Option Event) : ∃ (ran : Store κ σ) (states : List Nat),
      ran = (prepared su event e).store.runBlocks su.model su.evaluator
        (blocks su.model e.configuration (selected su event e)) ∧
      (microstep su event e).2.store =
        { ran with internal := ran.internal ++ states.map (doneEvent su.model) } := by
  rcases microstep_cases hv h event with ⟨hnil, hstep⟩ | ⟨-, hstep⟩
  · refine ⟨_, [], rfl, ?_⟩
    rw [hstep, hnil, List.map_nil, List.append_nil]
    rfl
  · refine ⟨_, _, ?_, congrArg (·.2.store) hstep⟩
    have hran := store_runTransitions su (selected su event e) (prepared su event e)
    rw [configuration_prepared] at hran
    exact hran

/-- A microstep in a legal configuration runs the `onexit` content of the states that it leaves, each
once and every state after those below it, then the content of the selected transitions in document
order, then the `onentry` content of the states that it enters, each once and every state before those
below it, and after that only raises completions.  It publishes the configuration in which the former
states have been replaced by the latter, whatever the content does: in a chart of the same shape, with
other content, another context and another evaluator, the same transitions lead to the same
configuration. -/
theorem content_in_order (hv : su.model.Validated) (hlegal : e.configuration.isLegal su.model)
    (event : Option Event) :
    ∃ (exits entries states : List Nat) (ran : Store κ σ),
      Configuration.Sequenced su.model e.configuration (selected su event e) exits entries ∧
      (microstep su event e).1 = .ok (selected su event e).length ∧
      ran = (prepared su event e).store.runBlocks su.model su.evaluator
        (exits.flatMap su.model.exitBlocks ++ selected su event e ++
          entries.flatMap su.model.entryBlocks) ∧
      (microstep su event e).2.store =
        { ran with internal := ran.internal ++ states.map (doneEvent su.model) } ∧
      (microstep su event e).2.configuration =
        (e.configuration.leave (e.configuration.exitSet su.model (selected su event e))).enter
          (su.model.entrySet (selected su event e)) ∧
      ∀ (other : Setup κ σ) (x : Engine κ σ) (event' : Option Event),
        other.model.Validated → su.model.SameShape other.model →
        x.configuration = e.configuration → selected other event' x = selected su event e →
          (microstep other event' x).1 = (microstep su event e).1 ∧
          (microstep other event' x).2.configuration = (microstep su event e).2.configuration := by
  have hm := hv.wellFormed
  have hl := (Configuration.isLegal_iff hv).1 hlegal
  obtain ⟨ran, states, hran, hstore⟩ := store_microstep hv hl event
  have hsorted := pairwise_lt_selected hm event e
  refine ⟨_, _, states, ran, Configuration.sequenced_leaving_entering hm hsorted,
    answer_microstep hv hl event, hran, hstore, configuration_microstep hv hl event, ?_⟩
  -- What is published depends on the configuration, the transitions and the shape of the chart.
  intro other x event' hother hshape hconf hselected
  have hlx : x.configuration.Legal other.model := hconf ▸ hshape.legal hl
  constructor
  · rw [answer_microstep hother hlx, answer_microstep hv hl, hselected]
  · rw [configuration_microstep hother hlx, configuration_microstep hv hl, hselected, hconf,
      hshape.take hm]

/-- An engine over the chart with failing content, in its initial configuration. -/
def departingSetup (text : String) : Setup Scope Cache :=
  ⟨.departing text, .default, .standard Scope⟩

def departingEngine : Engine Scope Cache := { blank with configuration := ⟨.ofList [1, 4]⟩ }

def departure : Option Event := some (.external "go")

/-- Leaving `s` fails if the expression cannot be parsed.  The chart arrives where it does
otherwise. -/
theorem content_in_order_departing :
    (departingSetup "ctx.paid").model.Validated ∧
      departingEngine.configuration.isLegal (departingSetup "ctx.paid").model ∧
      (microstep (departingSetup "ctx.paid") departure departingEngine).2.store.internal.map (·.name) =
        ["a.left", "moved", "t.entered", "u.entered"] ∧
      (∃ fault, Expr.parse "(" = .error fault) ∧
      (microstep (departingSetup "(") departure departingEngine).2.configuration =
        ⟨.ofList [9, 12]⟩ := by
  have hv : (departingSetup "ctx.paid").model.Validated := Model.validated_departing (by decide)
  have hlegal : departingEngine.configuration.isLegal (departingSetup "ctx.paid").model := by
    decide +kernel
  have hselected : selected (departingSetup "(") departure departingEngine =
      selected (departingSetup "ctx.paid") departure departingEngine := by
    decide +kernel
  have harrived :
      (microstep (departingSetup "ctx.paid") departure departingEngine).2.configuration =
        ⟨.ofList [9, 12]⟩ := by
    decide +kernel
  have hopen : Expr.parse "(" = .error .endOfExpression := by with_unfolding_all rfl
  obtain ⟨_, _, _, _, -, -, -, -, -, hother⟩ := content_in_order hv hlegal departure
  obtain ⟨-, hsame⟩ := hother (departingSetup "(") departingEngine departure
    (Model.validated_departing (by decide)) (Model.sameShape_departing "ctx.paid" "(") rfl hselected
  exact ⟨hv, hlegal, by decide +kernel, ⟨_, hopen⟩, hsame.trans harrived⟩

end Engine

end Statechart
