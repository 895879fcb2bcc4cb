import Statechart.Proofs.Chart.Flat
import Statechart.Proofs.Engine.Coherence

/-!
# Chains

In a chain every state but the last leads to the next one, by a transition without event and guard.
An engine over a chain goes from state to state, one microstep each, until it comes to the last
state or exceeds its limit.

* `Chart.chain`: the chain with the states `s0` to `sn`, which is flat (`flat_chain`);
* `Configuration.only`: the configuration of one state; `exists_transition_chain` leads from there
  to that of the next one;
* `Engine.Stands`, `Engine.passed`: an engine that stands at a state of a chain, and the same engine
  some states further on; `step_chain` and `step_chain_last` say what a step does to it;
* `Engine.stabilizeFrom_passed`, `Engine.published_passed`: what some steps do;
* `Engine.start_chain`: how a start ends within the limit and beyond it.
-/

namespace Statechart

/-! ### Chains are flat -/

namespace Chart

/-- The name of a state of a chain. -/
def chainState (i : Nat) : String := "s" ++ toString i

/-- What leads out of the `i`-th state of a chain whose last state is the `n`-th. -/
def chainTransitions (n i : Nat) : List TransitionEntry :=
  if i < n then [⟨[], none, [chainState (i + 1)], .external, []⟩] else []

/-- The states of a chain with their transitions. -/
def chainStates (n : Nat) : List (String × List TransitionEntry) :=
  (List.range (n + 1)).map fun i => (chainState i, chainTransitions n i)

/-- A chain: the states `s0` to `sn`, each but the last with a transition without event and guard to
the next. -/
def chain (n : Nat) : Chart := flat (chainStates n)

variable {n i : Nat}

theorem chainState_injective : Function.Injective chainState := fun _ _ h =>
  Text.toString_injective ((String.append_right_inj "s").1 h)

theorem mem_chainStates (hi : i ≤ n) : (chainState i, chainTransitions n i) ∈ chainStates n :=
  List.mem_map.2 ⟨i, List.mem_range.2 (Nat.lt_succ_of_le hi), rfl⟩

/-- The first state of a chain is written first. -/
theorem exists_chainStates_eq_cons (n : Nat) :
    ∃ rest, chainStates n = (chainState 0, chainTransitions n 0) :: rest := by
  rw [chainStates, List.range_succ_eq_map, List.map_cons]
  exact ⟨_, rfl⟩

theorem ids_chainStates (n : Nat) :
    (chainStates n).map Prod.fst = (List.range (n + 1)).map chainState := by
  rw [chainStates, List.map_map]
  rfl

theorem flat_chain (n : Nat) : Flat (chainStates n) where
  ne_nil := List.ne_nil_of_mem (mem_chainStates (Nat.zero_le n))
  nodup := by
    rw [ids_chainStates]
    exact List.nodup_range.map chainState_injective
  unmarked s hs := by
    obtain ⟨i, -, rfl⟩ := List.mem_map.1 hs
    simp [chainState, Model.anonymousMark, String.toList_append]
  named s hs := by
    obtain ⟨i, -, rfl⟩ := List.mem_map.1 hs
    simp [chainState]
  leads s hs t ht := by
    obtain ⟨i, -, rfl⟩ := List.mem_map.1 hs
    simp only [chainTransitions, List.mem_ite_nil_right, List.mem_singleton] at ht
    obtain ⟨hi, rfl⟩ := ht
    refine ⟨rfl, chainState (i + 1), ?_, rfl⟩
    rw [ids_chainStates]
    exact List.mem_map_of_mem (List.mem_range.2 (by omega))

example : chain 1 = ⟨none, none, [],
    [⟨some "s0", .state, none, [], [], [], [⟨[], none, ["s1"], .external, []⟩], []⟩,
      ⟨some "s1", .state, none, [], [], [], [], []⟩]⟩ := rfl

end Chart

/-! ### The configurations of a chain -/

namespace Configuration

open Model
open Chart (chainState chainStates chainTransitions exists_chainStates_eq_cons mem_chainStates
  plainBranch)

/-- The configuration in which the state with an id is active, and nothing else. -/
def only (m : Model) (id : String) : Configuration := ⟨.ofList (m.getTarget? id).toList⟩

variable {m : Model} {n i : Nat}

/-- The one transition of the one active state is selected if it has neither event nor guard. -/
theorem select_singleton {κ σ : Type} {s t : Nat} {tr : Transition} (ht : m.transitionsOf s = [t])
    (htr : m.transition? t = some tr) (hevent : tr.isEventless) (hcond : tr.cond = none)
    (ev : Evaluator κ σ) (k : κ) (mem : σ) :
    select m ⟨.ofList [s]⟩ ev k none mem = ⟨[t], mem, []⟩ := by
  have hlist : (NodeSet.ofList [s]).toList = [s] := rfl
  have hkept : preempt m ⟨.ofList [s]⟩ [t] = [t] := rfl
  simp [select, hlist, offers, firstEnabled, ht, htr, Transition.reactsTo, hevent, guardHolds,
    hcond, hkept]

/-- Of a state without transitions, none is selected. -/
theorem select_eq_nil {κ σ : Type} {s : Nat} (ht : m.transitionsOf s = []) (ev : Evaluator κ σ)
    (k : κ) (event : Option Event) (mem : σ) :
    select m ⟨.ofList [s]⟩ ev k event mem = ⟨[], mem, []⟩ := by
  have hlist : (NodeSet.ofList [s]).toList = [s] := rfl
  simp [select, hlist, offers, firstEnabled, ht, preempt_eq_nil_iff]

variable (h : m.OfFlat (chainStates n))
include h

/-- The configuration of a state of a chain is legal. -/
theorem exists_chainState (hi : i ≤ n) :
    ∃ s, m.Holds (some 0) s (plainBranch (chainState i) (chainTransitions n i)) ∧
      only m (chainState i) = ⟨.ofList [s]⟩ ∧ Legal m (only m (chainState i)) := by
  obtain ⟨s, hholds⟩ := h.exists_holds (mem_chainStates hi)
  have honly : only m (chainState i) = ⟨.ofList [s]⟩ := by
    rw [only, getTarget?_of_holds_plain hholds h.validated.built]
    rfl
  have hm := h.validated.wellFormed
  refine ⟨s, hholds, honly, ?_⟩
  rw [honly]
  exact legal_singleton hm (mem_childStates_of_holds_plain hholds hm)
    (childStates_of_holds_plain hholds)

theorem ids_only (hi : i ≤ n) : (only m (chainState i)).ids m = [chainState i] := by
  obtain ⟨s, hholds, honly, -⟩ := exists_chainState h hi
  rw [honly, ← label_of_holds_plain hholds]
  rfl

/-- A legal configuration in which a state of a chain is active is that of this state. -/
theorem eq_only (hi : i ≤ n) {c : Configuration} (hc : Legal m c) {s : Nat}
    (hs : m.getTarget? (chainState i) = some s) (hsc : s ∈ c.states) :
    c = only m (chainState i) := by
  obtain ⟨s', hholds, honly, -⟩ := exists_chainState h hi
  rw [getTarget?_of_holds_plain hholds h.validated.built] at hs
  cases hs
  rw [honly, ← hc.eq_singleton h.validated
    (mem_childStates_of_holds_plain hholds h.validated.wellFormed) hsc
    (childStates_of_holds_plain hholds)]

/-- A chain is entered at its first state. -/
theorem initialDescendants_chain :
    ⟨m.initialDescendants 0⟩ = only m (chainState 0) := by
  have hv := h.validated
  obtain ⟨rest, hrest⟩ := exists_chainStates_eq_cons n
  obtain ⟨hdefault, hholds⟩ := (hrest ▸ h).defaultTargets_zero
  have hwanted : (1 : Nat) ∈ m.wanted 0 [] := by
    rw [wanted, if_neg (by simp [hv.wellFormed.not_isParallel_zero]), hdefault]
    exact List.mem_singleton_self 1
  have hchild := mem_childStates_of_holds_plain hholds hv.wellFormed
  exact eq_only h (Nat.zero_le n) (legal_initialDescendants hv)
    (getTarget?_of_holds_plain hholds hv.built)
    ((hv.wellFormed.childState_mem_enterClosure hchild).2 (.inr ⟨1, hwanted, .refl 1⟩))

/-- The transition out of a state of a chain leads to the next one. -/
theorem exists_transition_chain (hi : i < n) :
    ∃ s t tr, only m (chainState i) = ⟨.ofList [s]⟩ ∧ m.transitionsOf s = [t] ∧
      m.transition? t = some tr ∧ tr.isEventless ∧ tr.cond = none ∧ m.children t = [] ∧
      (only m (chainState i)).take m [t] = only m (chainState (i + 1)) := by
  have hv := h.validated
  obtain ⟨s, hholds, honly, hlegal⟩ := exists_chainState h (Nat.le_of_lt hi)
  obtain ⟨s', hholds', -, -⟩ := exists_chainState h hi
  have hs' := getTarget?_of_holds_plain hholds' hv.built
  rw [chainTransitions, if_pos hi] at hholds
  obtain ⟨t, ht, hleaf⟩ := exists_transition_of_holds_plain hholds
  have hsource : m.source? t = some s := by
    rw [source?, parent?, hleaf.node?]
    rfl
  have htr : m.transition? t = some ⟨[], none, [chainState (i + 1)], .external⟩ := by
    rw [transition?, kind?, hleaf.node?]
    rfl
  have hmem : s ∈ (only m (chainState i)).states := by
    rw [honly]
    exact NodeSet.mem_ofList.2 (List.mem_singleton_self s)
  have htarget : s' ∈ m.resolvedTargets t := by
    simp [resolvedTargets, htr, hs']
  refine ⟨s, t, _, honly, ht, htr, rfl, rfl, hleaf.children_eq, ?_⟩
  exact eq_only h hi
    (hlegal.take_singleton hv fun d hd => hlegal.active_domain hv hsource hmem hd) hs'
    (target_mem_take hv (List.mem_singleton_self t) hsource (hlegal.isState hmem) htarget)

end Configuration

/-! ### Steps along a chain -/

namespace Engine

open Statechart.Configuration
open Chart (chain chainState chainStates chainTransitions)

variable {κ σ : Type} {su : Setup κ σ} {e e' : Engine κ σ} {n i j k : Nat}

/-- An engine that stabilizes at a state of a chain. -/
structure Stands (su : Setup κ σ) (i : Nat) (e : Engine κ σ) : Prop where
  phase : e.phase = .stabilizing
  configuration : e.configuration = .only su.model (chainState i)
  internal : e.store.internal = []
  halted : e.halted = false

/-- An engine that has stood at the `i`-th state of a chain, some states further on. -/
def passed (su : Setup κ σ) (i k : Nat) (e : Engine κ σ) : Engine κ σ :=
  { e with
    configuration := .only su.model (chainState (i + k))
    stats :=
      { e.stats with
        microsteps := e.stats.microsteps + k
        configurations := e.stats.configurations + k }
    settling := e.settling + k }

theorem Stands.passed (hs : Stands su i e) (k : Nat) : Stands su (i + k) (passed su i k e) where
  phase := hs.phase
  configuration := rfl
  internal := hs.internal
  halted := hs.halted

theorem passed_zero (hs : Stands su i e) : passed su i 0 e = e := by
  rw [Engine.passed, Nat.add_zero, ← hs.configuration]
  rfl

theorem passed_passed : passed su (i + j) k (passed su i j e) = passed su i (j + k) e := by
  simp only [Engine.passed, Nat.add_assoc]

/-- A microstep that takes transitions counts against the limit. -/
theorem afterMicrostep_of_pos {name : Option String} (hh : e.halted = false) (hn : 0 < n) :
    afterMicrostep su name n e =
      if e.settling < su.options.maxMicrosteps then
        (.ok (.microstep name n), { e with settling := e.settling + 1 })
      else (.error (.stabilizationLimit su.options.maxMicrosteps),
        { e with settling := e.settling + 1 }.shutdown) := by
  rw [afterMicrostep, if_neg (ne_true_of_eq_false hh), if_pos hn]
  by_cases hl : e.settling < su.options.maxMicrosteps
  · rw [if_pos hl]
    exact if_neg (Nat.not_lt.2 hl)
  · rw [if_neg hl]
    exact if_pos (Nat.lt_succ_of_le (Nat.not_lt.1 hl))

variable [Context κ]

/-- Where a selection finds no guards, it changes nothing. -/
theorem selected_of_select {ts : List Nat} (hs : e.configuration.select su.model su.evaluator
    e.store.context none e.store.memory = ⟨ts, e.store.memory, []⟩) :
    selected su none e = ts ∧ prepared su none e = e := by
  simp [selected, prepared, expose, selectTransitions, hs, Store.report]

section

variable {states : List (String × List Chart.TransitionEntry)} (h : su.model.OfFlat states)
include h

/-- In a flat chart, states run nothing when they are entered. -/
theorem runEntries_of_flat (s : Store κ σ) (l : List Nat) :
    s.runEntries su.model su.evaluator l = s := by
  have hnil : l.flatMap su.model.entryBlocks = [] := List.flatMap_eq_nil_iff.2 fun i _ =>
    h.childrenOfKind_eq_nil rfl rfl (fun _ => rfl) i
  rw [Store.runEntries, hnil]
  rfl

/-- In a flat chart, states run nothing when they are left. -/
theorem runExits_of_flat (s : Store κ σ) (l : List Nat) :
    s.runExits su.model su.evaluator l = s := by
  have hnil : l.flatMap su.model.exitBlocks = [] := List.flatMap_eq_nil_iff.2 fun i _ =>
    h.childrenOfKind_eq_nil rfl rfl (fun _ => rfl) i
  rw [Store.runExits, hnil]
  rfl

/-- In a flat chart, a transition without actions runs nothing. -/
theorem runTransitions_snd_of_flat {t : Nat} (ht : su.model.children t = []) :
    (runTransitions su [t] e).2 = e.store := by
  simp only [runTransitions, runEntries_of_flat h, runExits_of_flat h, Store.runBlocks,
    List.foldl_cons, List.foldl_nil, Store.runBlock, ht, List.filterMap_nil, Store.runActions]

omit [Context κ] in
/-- In a flat chart, nothing is completed. -/
theorem raiseDone_of_flat (entered : List Nat) : e.raiseDone su.model entered = e := by
  have hfinal : su.model.isFinal = fun _ => false :=
    funext (h.hasKind_eq_false rfl rfl fun _ => rfl)
  have hempty : (NodeSet.ofList []).toList = [] := rfl
  simp [raiseDone, completions, reachesEnd, finalsEntered, hfinal, hempty]

end

section

variable (h : su.model.OfFlat (chainStates n))
include h

/-- Before its last state, a microstep takes an engine to the next state of a chain. -/
theorem guardedMicrostep_chain (hs : Stands su i e) (hi : i < n) :
    guardedMicrostep su none e = (.ok 1, { passed su i 1 e with settling := e.settling }) := by
  obtain ⟨s, t, tr, honly, ht, htr, hevent, hcond, hchildren, htake⟩ := exists_transition_chain h hi
  have hselect : e.configuration.select su.model su.evaluator e.store.context none e.store.memory =
      ⟨[t], e.store.memory, []⟩ := by
    rw [hs.configuration, honly]
    exact select_singleton ht htr hevent hcond ..
  obtain ⟨hselected, hprepared⟩ := selected_of_select hselect
  obtain ⟨-, -, -, hlegal⟩ := exists_chainState h (Nat.le_of_lt hi)
  have hacted : acted su none e = { passed su i 1 e with settling := e.settling } := by
    simp only [acted, advance, executed, hselected, hprepared,
      runTransitions_snd_of_flat h hchildren, raiseDone_of_flat h, publish, hs.configuration, htake]
    rfl
  rw [← hs.configuration] at hlegal
  rcases guardedMicrostep_cases h.validated hlegal none with ⟨hnil, -⟩ | ⟨-, hm⟩
  · rw [hselected] at hnil
    cases hnil
  · rw [hm, hselected, hacted]
    rfl

/-- A step goes on to the next state; it is the last one if that exceeds the limit. -/
theorem step_chain (hs : Stands su i e) (hi : i < n) : step su e =
    if e.settling < su.options.maxMicrosteps then (.ok (.microstep none 1), passed su i 1 e)
    else (.error (.stabilizationLimit su.options.maxMicrosteps), (passed su i 1 e).shutdown) := by
  rw [step, hs.phase]
  simp only [stabilizeOnce, guardedMicrostep_chain h hs hi, Nat.one_pos, if_true]
  exact afterMicrostep_of_pos hs.halted Nat.one_pos

theorem step_passed (hs : Stands su i e) (hi : i + k < n) : step su (passed su i k e) =
    if e.settling + k < su.options.maxMicrosteps then
      (.ok (.microstep none 1), passed su i (k + 1) e)
    else (.error (.stabilizationLimit su.options.maxMicrosteps),
      (passed su i (k + 1) e).shutdown) := by
  rw [step_chain h (hs.passed k) hi, passed_passed]
  rfl

/-- At the last state, the engine has nothing more to do. -/
theorem step_chain_last (hs : Stands su n e) :
    step su e = (.ok .settled, { e with phase := .waiting }) := by
  obtain ⟨s, hholds, honly, hlegal⟩ := exists_chainState h (Nat.le_refl n)
  have ht : su.model.transitionsOf s = [] := by
    rw [Model.transitionsOf_of_holds_plain hholds, hholds.children_eq, chainTransitions,
      if_neg (Nat.lt_irrefl n)]
    rfl
  have hselect : e.configuration.select su.model su.evaluator e.store.context none e.store.memory =
      ⟨[], e.store.memory, []⟩ := by
    rw [hs.configuration, honly]
    exact select_eq_nil ht ..
  obtain ⟨hselected, hprepared⟩ := selected_of_select hselect
  rw [← hs.configuration] at hlegal
  rw [step, hs.phase]
  rcases guardedMicrostep_cases h.validated hlegal none with ⟨-, hm⟩ | ⟨hne, -⟩
  · simp only [stabilizeOnce, hm, hprepared, Nat.lt_irrefl, if_false, consume, hs.internal]
  · exact absurd hselected hne

/-! ### Runs along a chain -/

/-- Within the limit, a stabilization passes states one by one. -/
theorem stabilizeFrom_passed (hs : Stands su i e) (hi : i + k ≤ n)
    (hl : e.settling + k ≤ su.options.maxMicrosteps) :
    stabilizeFrom su e j = stabilizeFrom su (passed su i k e) (j + k) := by
  induction k with
  | zero => rw [passed_zero hs, Nat.add_zero]
  | succ k ih =>
    have hstep := step_passed h hs (k := k) (by omega)
    rw [if_pos (by omega)] at hstep
    rw [ih (by omega) (by omega), stabilizeFrom_of_ok (hs.passed k).phase (congrArg Prod.fst hstep),
      hstep]
    rfl

/-- The configurations of the states passed are published one by one. -/
theorem published_passed (hs : Stands su i e) (hi : i + k ≤ n)
    (hl : e.settling + k ≤ su.options.maxMicrosteps) :
    published e (stabilizeTrail su e) =
      ((List.range k).map fun j => .only su.model (chainState (i + (j + 1)))) ++
        published (passed su i k e) (stabilizeTrail su (passed su i k e)) := by
  induction k with
  | zero =>
    rw [passed_zero hs]
    rfl
  | succ k ih =>
    have hstep := step_passed h hs (k := k) (by omega)
    rw [if_pos (by omega)] at hstep
    have hcount : (passed su i (k + 1) e).stats.configurations ≠
        (passed su i k e).stats.configurations := Nat.succ_ne_self _
    rw [ih (by omega) (by omega), stabilizeTrail_of_stabilizing (hs.passed k).phase, hstep,
      published, if_neg hcount, List.range_succ, List.map_append, List.append_assoc]
    rfl

end

/-! ### Starts on a chain -/

/-- An engine that has been started on a chain and has not taken a microstep yet. -/
def begun (su : Setup κ σ) (e : Engine κ σ) : Engine κ σ :=
  { e.reset with
    phase := .stabilizing
    configuration := .only su.model (chainState 0)
    stats := { e.stats with configurations := e.stats.configurations + 1 } }

omit [Context κ] in
theorem stands_begun (su : Setup κ σ) (e : Engine κ σ) : Stands su 0 (begun su e) where
  phase := rfl
  configuration := rfl
  internal := rfl
  halted := rfl

/-- A start on a chain has led to its `i`-th state, and only there.  It has taken a microstep for
each state before, and has published one configuration for each state, in their order; nothing else
has been counted. -/
structure Walked (su : Setup κ σ) (e e' : Engine κ σ) (i : Nat) : Prop where
  configuration : e'.configuration.ids su.model = [chainState i]
  stats : e'.stats =
    { e.stats with
      microsteps := e.stats.microsteps + i
      configurations := e.stats.configurations + (i + 1) }
  published : (published e (trail su e .start)).map (·.ids su.model) =
    (List.range (i + 1)).map fun j => [chainState j]

section

variable (h : su.model.OfFlat (chainStates n))
include h

theorem enterInitial_chain (e : Engine κ σ) : enterInitial su e.reset = (.ok (), begun su e) := by
  have hentered : entered su e.reset = { begun su e with phase := e.phase } := by
    simp only [entered, runEntries_of_flat h, raiseDone_of_flat h, publish,
      initialDescendants_chain h]
    rfl
  rw [enterInitial_eq h.validated, hentered]
  rfl

/-- A start on a chain goes as far as its limit and the chain allow. -/
theorem start_eq_stabilizeFrom (hp : e.phase = .stopped) (hk : k ≤ n)
    (hl : k ≤ su.options.maxMicrosteps) {r : Except Error Nat × Engine κ σ}
    (hr : stabilizeFrom su (passed su 0 k (begun su e)) k = r) :
    start su e = (r.1.map fun _ => (), r.2) := by
  have hpassed := stabilizeFrom_passed h (j := 0) (k := k) (stands_begun su e) (by omega)
    (show 0 + k ≤ _ by omega)
  rw [Nat.zero_add, hr] at hpassed
  rw [start, if_neg (not_not.2 hp), enterInitial_chain h]
  simp only [stabilize, hpassed]
  obtain ⟨x, e'⟩ := r
  cases x <;> rfl

/-- Until then, it publishes the configurations of the states one by one. -/
theorem published_trail (hp : e.phase = .stopped) (hk : k ≤ n) (hl : k ≤ su.options.maxMicrosteps) :
    published e (trail su e .start) =
      ((List.range (k + 1)).map fun j => only su.model (chainState j)) ++
        published (passed su 0 k (begun su e))
          (stabilizeTrail su (passed su 0 k (begun su e))) := by
  have hpassed := published_passed h (k := k) (stands_begun su e) (by omega)
    (show 0 + k ≤ _ by omega)
  have hcount : (begun su e).stats.configurations ≠ e.stats.configurations := Nat.succ_ne_self _
  rw [trail, if_neg (not_not.2 hp), enterInitial_chain h, published, if_neg hcount, hpassed,
    List.range_succ_eq_map, List.map_cons, List.map_map]
  simp [begun, Function.comp_def]

theorem walked_of_passed (hi : i ≤ n)
    (hc : e'.configuration = (passed su 0 i (begun su e)).configuration)
    (hstats : e'.stats = (passed su 0 i (begun su e)).stats)
    (hpublished : published e (trail su e .start) =
      (List.range (i + 1)).map fun j => only su.model (chainState j)) : Walked su e e' i where
  configuration := by
    rw [hc, passed, Nat.zero_add]
    exact ids_only h hi
  stats := by
    rw [hstats, Nat.add_comm i 1, ← Nat.add_assoc]
    rfl
  published := by
    rw [hpublished, List.map_map]
    exact List.map_congr_left fun j hj => ids_only h (by have := List.mem_range.1 hj; omega)

/-- Within its limit, a start leads to the end of a chain, where the engine waits. -/
theorem start_within_limit (hp : e.phase = .stopped) (hl : n ≤ su.options.maxMicrosteps) :
    ∃ e', start su e = (.ok (), e') ∧ e'.phase = .waiting ∧ Walked su e e' n := by
  have hs : Stands su n (passed su 0 n (begun su e)) := by
    have hs := (stands_begun su e).passed n
    rwa [Nat.zero_add] at hs
  have hstep := step_chain_last h hs
  have hrun : stabilizeFrom su (passed su 0 n (begun su e)) n =
      (.ok n, { passed su 0 n (begun su e) with phase := .waiting }) := by
    rw [stabilizeFrom_of_ok hs.phase (congrArg Prod.fst hstep), hstep,
      stabilizeFrom_of_ne (by simp)]
    rfl
  refine ⟨_, start_eq_stabilizeFrom h hp (Nat.le_refl n) hl hrun, rfl,
    walked_of_passed h (Nat.le_refl n) rfl rfl ?_⟩
  rw [published_trail h hp (Nat.le_refl n) hl, stabilizeTrail_of_stabilizing hs.phase, hstep,
    stabilizeTrail_of_ne (by simp), published, if_pos rfl]
  exact List.append_nil _

/-- Beyond its limit, a start fails at the state to which the last microstep has led. -/
theorem start_beyond_limit (hp : e.phase = .stopped) (hl : su.options.maxMicrosteps < n) :
    ∃ e', start su e = (.error (.stabilizationLimit su.options.maxMicrosteps), e') ∧
      e'.phase = .stopped ∧ Walked su e e' (su.options.maxMicrosteps + 1) := by
  generalize hlimit : su.options.maxMicrosteps = l at hl ⊢
  have hs := (stands_begun su e).passed l
  have hstep := step_passed h (stands_begun su e) (k := l) (by omega)
  rw [if_neg (by simp [begun, reset, hlimit]), hlimit] at hstep
  have hrun : stabilizeFrom su (passed su 0 l (begun su e)) l =
      (.error (.stabilizationLimit l), (passed su 0 (l + 1) (begun su e)).shutdown) := by
    rw [stabilizeFrom_of_error hs.phase (congrArg Prod.fst hstep), hstep]
  have hcount : (passed su 0 (l + 1) (begun su e)).shutdown.stats.configurations ≠
      (passed su 0 l (begun su e)).stats.configurations := Nat.succ_ne_self _
  refine ⟨_, start_eq_stabilizeFrom h hp (Nat.le_of_lt hl) (by omega) hrun, rfl,
    walked_of_passed h hl rfl rfl ?_⟩
  rw [published_trail h hp (Nat.le_of_lt hl) (by omega), stabilizeTrail_of_stabilizing hs.phase,
    hstep, stabilizeTrail_of_ne (by simp), published, if_neg hcount, List.range_succ (n := l + 1),
    List.map_append]
  simp [published, passed, shutdown]

end

/-- A chain builds, and an engine over it can be created.  A start within the limit takes one
microstep for each state but the last and waits there; a start beyond the limit fails, and stops the
engine one state further than the limit allows. -/
theorem start_chain (n : Nat) : ∃ m, (chain n).build = .ok m ∧
    ∀ (options : Options) (ev : Evaluator κ σ),
      (∀ context memory, create ⟨m, options, ev⟩ context memory = .ok (fresh context memory)) ∧
      ∀ e : Engine κ σ, e.phase = .stopped →
        (n ≤ options.maxMicrosteps → ∃ e', start ⟨m, options, ev⟩ e = (.ok (), e') ∧
          e'.phase = .waiting ∧ Walked ⟨m, options, ev⟩ e e' n) ∧
        (options.maxMicrosteps < n → ∃ e',
          start ⟨m, options, ev⟩ e =
            (.error (.stabilizationLimit options.maxMicrosteps), e') ∧
          e'.phase = .stopped ∧ Walked ⟨m, options, ev⟩ e e' (options.maxMicrosteps + 1)) := by
  obtain ⟨m, hbuild, hflat⟩ := Chart.exists_build_flat (Chart.flat_chain n)
  refine ⟨m, hbuild, fun options ev => ?_⟩
  have h : (Setup.mk m options ev).model.OfFlat (chainStates n) := hflat
  exact ⟨create_eq h.validated, fun e hp => ⟨start_within_limit h hp, start_beyond_limit h hp⟩⟩

/-- Along a chain with four states, a limit of three microsteps suffices; with a limit of one, the
engine stops in the third state. -/
theorem start_chain_three : ∃ m, (chain 3).build = .ok m ∧
    (∃ e', start ⟨m, ⟨3, true⟩, .standard Scope⟩ blank = (.ok (), e') ∧ e'.phase = .waiting ∧
      e'.configuration.ids m = ["s3"] ∧ e'.stats = ⟨3, 0, 0, 4⟩) ∧
    ∃ e', start ⟨m, ⟨1, true⟩, .standard Scope⟩ blank = (.error (.stabilizationLimit 1), e') ∧
      e'.phase = .stopped ∧ e'.configuration.ids m = ["s2"] ∧ e'.stats = ⟨2, 0, 0, 3⟩ := by
  obtain ⟨m, hbuild, h⟩ := @start_chain Scope Cache _ 3
  refine ⟨m, hbuild, ?_, ?_⟩
  · obtain ⟨e', hstart, hphase, hwalked⟩ :=
      ((h ⟨3, true⟩ (.standard Scope)).2 blank rfl).1 (Nat.le_refl 3)
    exact ⟨e', hstart, hphase, hwalked.configuration, hwalked.stats⟩
  · obtain ⟨e', hstart, hphase, hwalked⟩ :=
      ((h ⟨1, true⟩ (.standard Scope)).2 blank rfl).2 (by decide)
    exact ⟨e', hstart, hphase, hwalked.configuration, hwalked.stats⟩

end Engine

end Statechart
