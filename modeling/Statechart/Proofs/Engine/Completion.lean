import Statechart.Engine.Run
import Statechart.Proofs.Engine.Microstep

/-!
# Announced completions

`Configuration.Completed` says what it means that a state is in a final state, at any depth of
parallel states.  The engine announces it for compound states whose final child is entered, and for
parallel states one of whose regions has just been completed.

* `Configuration.isCompleted_iff`: the check decides `Completed`;
* `Configuration.mem_completions`, `nodup_completions`: what is announced, and that it is once;
* `Configuration.Due`: what should be announced; `announced_iff_due`: a completed parallel state is
  missed if its regions that have just been completed are all parallel;
* `Engine.announces_enterInitial`, `announces_microstep`: what a start and a microstep append to the
  internal queue.
-/

namespace Statechart

/-! ### Final states -/

namespace Model

variable {m : Model} {f p : Nat}

theorem isState_of_isFinal (h : m.isFinal f) : m.isState f := by
  obtain ⟨k, hk, hf⟩ := hasKind_iff.1 h
  refine hasKind_iff.2 ⟨k, hk, ?_⟩
  cases k <;> simp_all [Kind.isFinal, Kind.isState]

/-- A final state has no child states. -/
theorem WellFormed.childStates_of_isFinal (hm : m.WellFormed) (h : m.isFinal f) :
    m.childStates f = [] := by
  by_contra hne
  obtain ⟨d, hd⟩ := List.exists_mem_of_ne_nil _ hne
  obtain ⟨k, hk, hkind⟩ := hm.kind_of_childStates hd
  obtain ⟨k', hk', hf⟩ := hasKind_iff.1 h
  rw [hk] at hk'
  cases hk'
  cases k <;> simp_all [Kind.isFinal, Kind.isRoot, Kind.isSequential, Kind.isParallel]

/-- The parent of a final state is the root or compound. -/
theorem WellFormed.isCompound_of_isFinal (hm : m.WellFormed) (h : m.isFinal f)
    (hp : m.parent? f = some p) (h0 : p ≠ 0) : m.isCompound p := by
  have hs := isState_of_isFinal h
  have hps : m.isState p := (hm.isState_of_parent hs hp).resolve_left h0
  have hpar : ¬ m.isParallel p := fun hpar => by
    obtain ⟨k, hk, hf⟩ := hasKind_iff.1 h
    obtain ⟨k', hk', hp'⟩ := hasKind_iff.1 hpar
    have haccepts := (hm.fits hp hk hk').1
    cases k <;> cases k' <;> simp_all [Kind.isFinal, Kind.isParallel, Kind.accepts, Kind.isSequential,
      Kind.isTransition, Kind.isOnEntry, Kind.isOnExit]
  exact (hm.isCompound_iff hps hpar).2 (List.ne_nil_of_mem (hm.mem_childStates.2 ⟨hp, hs⟩))

end Model

/-! ### Completed states -/

namespace Configuration

open Model

/-- A state is in a final state: a final child is active, or all regions are in a final state. -/
inductive Completed (m : Model) (c : Configuration) : Nat → Prop
  | final {i f : Nat} (hi : ¬ m.isParallel i) (hp : m.parent? f = some i) (hf : m.isFinal f)
      (hc : f ∈ c.states) : Completed m c i
  | regions {i : Nat} (hi : m.isParallel i) (hr : ∀ r ∈ m.childStates i, Completed m c r) :
      Completed m c i

/-- One of the states entered is a final state in a region that is not parallel itself. -/
def Reaches (m : Model) (entered : NodeSet) (i : Nat) : Prop :=
  ∃ f ∈ entered, m.isFinal f ∧ ∃ r, m.parent? r = some i ∧ ¬ m.isParallel r ∧ m.isBelow f r

/-- The completion of a state is announced when some states have been entered. -/
def Announced (m : Model) (c : Configuration) (entered : NodeSet) (i : Nat) : Prop :=
  (m.isCompound i ∧ ∃ f ∈ entered, m.isFinal f ∧ m.parent? f = some i) ∨
    (m.isParallel i ∧ Completed m c i ∧ Reaches m entered i)

/-- The completion of a state should be announced when some states have been entered. -/
def Due (m : Model) (c : Configuration) (entered : NodeSet) (i : Nat) : Prop :=
  (m.isCompound i ∧ ∃ f ∈ entered, m.isFinal f ∧ m.parent? f = some i) ∨
    (m.isParallel i ∧ Completed m c i ∧ ∃ f ∈ entered, m.isFinal f ∧ m.isBelow f i)

variable {m : Model} {c : Configuration} {entered : NodeSet} {i f p r : Nat}

theorem completed_iff_of_isParallel (h : m.isParallel i) :
    Completed m c i ↔ ∀ r ∈ m.childStates i, Completed m c r := by
  constructor
  · intro hc
    cases hc with
    | final hi => exact absurd h hi
    | regions _ hr => exact hr
  · exact .regions h

theorem completed_iff_of_not_isParallel (h : ¬ m.isParallel i) :
    Completed m c i ↔ ∃ f, m.parent? f = some i ∧ m.isFinal f ∧ f ∈ c.states := by
  constructor
  · intro hc
    cases hc with
    | final _ hp hf hfc => exact ⟨_, hp, hf, hfc⟩
    | regions hi => exact absurd hi h
  · rintro ⟨f, hp, hf, hfc⟩
    exact .final h hp hf hfc

/-- The check decides whether a state is in a final state. -/
theorem isCompleted_iff (hm : m.WellFormed) : c.isCompleted m i ↔ Completed m c i := by
  -- Induction on the distance to the last node: regions have larger numbers.
  induction hn : m.size - i using Nat.strongRecOn generalizing i with
  | ind n ih =>
    rw [isCompleted]
    by_cases hi : m.isParallel i
    · rw [if_pos hi, completed_iff_of_isParallel hi, List.all_eq_true]
      refine forall₂_congr fun r hr => ?_
      have hrange := hm.childState_range hr
      rw [dif_pos hrange]
      exact ih (m.size - r) (by omega) rfl
    · rw [if_neg hi, completed_iff_of_not_isParallel hi]
      simp only [List.any_eq_true, Bool.and_eq_true, decide_eq_true_eq, hm.mem_childStates]
      constructor
      · rintro ⟨f, ⟨hp, -⟩, hfc, hf⟩
        exact ⟨f, hp, hf, hfc⟩
      · rintro ⟨f, hp, hf, hfc⟩
        exact ⟨f, ⟨hp, isState_of_isFinal hf⟩, hfc, hf⟩

/-! ### What is announced -/

theorem mem_finalsEntered (hsub : ∀ s ∈ entered, s ∈ c.states) :
    f ∈ c.finalsEntered m entered.toList ↔ f ∈ entered ∧ m.isFinal f := by
  rw [finalsEntered, List.mem_filter, Bool.and_eq_true, decide_eq_true_eq, ← NodeSet.mem_def]
  exact ⟨fun h => ⟨h.1, h.2.1⟩, fun h => ⟨h.1, h.2, hsub f h.1⟩⟩

/-- The compound states whose completion is announced. -/
def completedParents (m : Model) (c : Configuration) (entered : NodeSet) : List Nat :=
  ((c.finalsEntered m entered.toList).filterMap m.parent?).filter fun p => !m.isRoot p

theorem mem_completedParents (hv : m.Validated) (hsub : ∀ s ∈ entered, s ∈ c.states) :
    p ∈ c.completedParents m entered ↔
      m.isCompound p ∧ ∃ f ∈ entered, m.isFinal f ∧ m.parent? f = some p := by
  have hm := hv.wellFormed
  simp only [completedParents, List.mem_filter, List.mem_filterMap, mem_finalsEntered hsub,
    Bool.not_eq_true', Bool.eq_false_iff, ne_eq, hv.isRoot_iff]
  constructor
  · rintro ⟨⟨f, ⟨hfE, hf⟩, hp⟩, h0⟩
    exact ⟨hm.isCompound_of_isFinal hf hp h0, f, hfE, hf, hp⟩
  · rintro ⟨hcomp, f, hfE, hf, hp⟩
    exact ⟨⟨f, ⟨hfE, hf⟩, hp⟩, hm.ne_zero_of_isState (isState_of_isCompound hcomp)⟩

theorem completedParallel?_eq_some (hm : m.WellFormed) :
    c.completedParallel? m p = some i ↔
      m.parent? p = some i ∧ m.isParallel i ∧ Completed m c i := by
  unfold completedParallel?
  cases hp : m.parent? p with
  | none => simp
  | some g =>
    have hall : (m.childStates g).all (c.isCompleted m) ↔ ∀ r ∈ m.childStates g, Completed m c r := by
      simp only [List.all_eq_true, isCompleted_iff hm]
    by_cases hg : m.isParallel g
    · simp only [hg, Bool.true_and, hall, ← completed_iff_of_isParallel hg, Option.some.injEq,
        Option.ite_none_right_eq_some]
      constructor
      · rintro ⟨hc, rfl⟩
        exact ⟨rfl, hg, hc⟩
      · rintro ⟨rfl, -, hc⟩
        exact ⟨hc, rfl⟩
    · simp only [hg, Bool.false_and, Bool.false_eq_true, if_false, Option.some.injEq, reduceCtorEq,
        false_iff]
      rintro ⟨rfl, hi, -⟩
      exact hg hi

/-- What is announced: compound states with an entered final child, and completed parallel states
with one two levels below. -/
theorem mem_completions (hv : m.Validated) (hsub : ∀ s ∈ entered, s ∈ c.states) :
    i ∈ c.completions m entered.toList ↔
      (m.isCompound i ∧ ∃ f ∈ entered, m.isFinal f ∧ m.parent? f = some i) ∨
        (m.isParallel i ∧ Completed m c i ∧
          ∃ f ∈ entered, m.isFinal f ∧ ∃ r, m.parent? f = some r ∧ m.parent? r = some i) := by
  have hm := hv.wellFormed
  have hparallel : i ∈ (NodeSet.ofList
      ((c.completedParents m entered).filterMap (c.completedParallel? m))).toList ↔
      ∃ r ∈ c.completedParents m entered,
        m.parent? r = some i ∧ m.isParallel i ∧ Completed m c i := by
    rw [← NodeSet.mem_def, NodeSet.mem_ofList, List.mem_filterMap]
    simp only [completedParallel?_eq_some hm]
  refine List.mem_append.trans (or_congr (mem_completedParents hv hsub) (hparallel.trans ?_))
  simp only [mem_completedParents hv hsub]
  constructor
  · rintro ⟨r, ⟨-, f, hfE, hf, hfr⟩, hri, hpar, hc⟩
    exact ⟨hpar, hc, f, hfE, hf, r, hfr, hri⟩
  · rintro ⟨hpar, hc, f, hfE, hf, r, hfr, hri⟩
    have hr0 : r ≠ 0 := Nat.ne_of_gt (Nat.lt_of_le_of_lt (Nat.zero_le i) (hm.parent_lt hri))
    exact ⟨r, ⟨hm.isCompound_of_isFinal hf hfr hr0, f, hfE, hf, hfr⟩, hri, hpar, hc⟩

/-- Of two active final children of a node, one is the other. -/
theorem eq_of_active_finals (hv : m.Validated) (h : Legal m c) {g : Nat} (hf : m.isFinal f)
    (hg : m.isFinal g) (hfc : f ∈ c.states) (hgc : g ∈ c.states) (hfp : m.parent? f = some p)
    (hgp : m.parent? g = some p) : f = g := by
  have hm := hv.wellFormed
  have hpar : ¬ m.isParallel p := fun hpar => by
    by_cases h0 : p = 0
    · exact hm.not_isParallel_zero (h0 ▸ hpar)
    · exact not_isParallel_of_isCompound (hm.isCompound_of_isFinal hf hfp h0) hpar
  exact h.eq_of_active hpar (h.active_parent hfc hfp)
    (hm.mem_childStates.2 ⟨hfp, isState_of_isFinal hf⟩) hfc
    (hm.mem_childStates.2 ⟨hgp, isState_of_isFinal hg⟩) hgc

/-- No completion is announced twice: a compound state has one active child. -/
theorem nodup_completions (hv : m.Validated) (h : Legal m c) (hsub : ∀ s ∈ entered, s ∈ c.states) :
    (c.completions m entered.toList).Nodup := by
  have hparents : (c.completedParents m entered).Nodup := by
    refine List.Pairwise.filter _ (List.pairwise_filterMap.2 ?_)
    refine List.Pairwise.imp_of_mem (fun {f g} hf hg hlt p hfp q hgq hpq => ?_)
      (entered.sorted.filter _)
    obtain ⟨hfE, hf⟩ := (mem_finalsEntered hsub).1 hf
    obtain ⟨hgE, hg⟩ := (mem_finalsEntered hsub).1 hg
    subst hpq
    have := eq_of_active_finals hv h hf hg (hsub f hfE) (hsub g hgE) hfp hgq
    omega
  refine List.nodup_append.2 ⟨hparents, (NodeSet.sorted _).imp Nat.ne_of_lt, fun p hp q hq hpq => ?_⟩
  -- A node of both parts would be compound and parallel.
  subst hpq
  rw [← NodeSet.mem_def, NodeSet.mem_ofList, List.mem_filterMap] at hq
  obtain ⟨r, -, hr⟩ := hq
  exact not_isParallel_of_isCompound ((mem_completedParents hv hsub).1 hp).1
    ((completedParallel?_eq_some hv.wellFormed).1 hr).2.1

/-! ### What should be announced -/

/-- In a legal configuration, an entered final state that completes a region of a completed parallel
state is a child of that region. -/
theorem parent_of_completed (hv : m.Validated) (h : Legal m c) (hr : Completed m c r)
    (hpar : ¬ m.isParallel r) (hf : m.isFinal f) (hfc : f ∈ c.states) (hfr : m.isBelow f r) :
    m.parent? f = some r := by
  have hm := hv.wellFormed
  obtain ⟨g, hgr, hg, hgc⟩ := (completed_iff_of_not_isParallel hpar).1 hr
  -- The way from the region down to `f` goes through its active child, which is final.
  obtain ⟨d, hd, hfd⟩ := hm.exists_childState_within (isState_of_isFinal hf) hfr
  have hdc : d ∈ c.states := (h.active_of_within hv (.inr hfc) hfd).resolve_left
    (hm.ne_zero_of_isState (hm.mem_childStates.1 hd).2)
  have hrc : c.Active r := h.active_of_isBelow hv hfc hfr
  obtain rfl : g = d := h.eq_of_active hpar hrc
    (hm.mem_childStates.2 ⟨hgr, isState_of_isFinal hg⟩) hgc hd hdc
  rcases hfd with rfl | hfg
  · exact hgr
  · obtain ⟨x, hx, -⟩ := hm.exists_childState_within (isState_of_isFinal hf) hfg
    rw [hm.childStates_of_isFinal hg] at hx
    cases hx

/-- What is announced, in terms of the regions of parallel states. -/
theorem mem_completions_iff_announced (hv : m.Validated) (h : Legal m c)
    (hsub : ∀ s ∈ entered, s ∈ c.states) :
    i ∈ c.completions m entered.toList ↔ Announced m c entered i := by
  have hm := hv.wellFormed
  rw [mem_completions hv hsub]
  refine or_congr Iff.rfl (and_congr_right fun hpar => and_congr_right fun hc => ?_)
  constructor
  · rintro ⟨f, hfE, hf, r, hfr, hri⟩
    have hr0 : r ≠ 0 := Nat.ne_of_gt (Nat.lt_of_le_of_lt (Nat.zero_le i) (hm.parent_lt hri))
    exact ⟨f, hfE, hf, r, hri, not_isParallel_of_isCompound (hm.isCompound_of_isFinal hf hfr hr0),
      hm.isBelow_of_parent hfr⟩
  · rintro ⟨f, hfE, hf, r, hri, hr, hfr⟩
    have hrs : r ∈ m.childStates i := hm.mem_childStates.2 ⟨hri,
      (hm.isState_of_isBelow (isState_of_isFinal hf) hfr).resolve_left
        (Nat.ne_of_gt (Nat.lt_of_le_of_lt (Nat.zero_le i) (hm.parent_lt hri)))⟩
    have hrc := (completed_iff_of_isParallel hpar).1 hc r hrs
    exact ⟨f, hfE, hf, r, parent_of_completed hv h hrc hr hf (hsub f hfE) hfr, hri⟩

/-- What is announced should be. -/
theorem Announced.due (hm : m.WellFormed) (h : Announced m c entered i) : Due m c entered i := by
  rcases h with h | ⟨hpar, hc, f, hfE, hf, r, hri, -, hfr⟩
  · exact .inl h
  · exact .inr ⟨hpar, hc, f, hfE, hf, hm.isBelow_of_child hri (.inr hfr)⟩

/-- What should be announced is announced exactly if no completed parallel state has been reached
through parallel regions only. -/
theorem announced_iff_due (hm : m.WellFormed) :
    (∀ i, Announced m c entered i ↔ Due m c entered i) ↔
      ∀ i, m.isParallel i → Completed m c i → (∃ f ∈ entered, m.isFinal f ∧ m.isBelow f i) →
        Reaches m entered i := by
  constructor
  · intro h i hpar hc hf
    rcases (h i).2 (.inr ⟨hpar, hc, hf⟩) with ⟨hcomp, -⟩ | ⟨-, -, hreach⟩
    · exact absurd hpar (not_isParallel_of_isCompound hcomp)
    · exact hreach
  · refine fun h i => ⟨Announced.due hm, ?_⟩
    rintro (hi | ⟨hpar, hc, hf⟩)
    · exact .inl hi
    · exact .inr ⟨hpar, hc, h i hpar hc hf⟩

end Configuration

namespace Engine

open Statechart.Configuration

/-- When states have been entered, completions are appended to the internal queue: each once, those
that are announced, and all that should be unless a completed parallel state has been reached through
parallel regions only. -/
def Announces (m : Model) (c : Configuration) (entered : NodeSet) (before after : List Event) : Prop :=
  ∃ done : List Nat, after = before ++ done.map (doneEvent m) ∧ done.Nodup ∧
    (∀ i, i ∈ done ↔ Announced m c entered i) ∧
      ((∀ i, i ∈ done ↔ Due m c entered i) ↔
        ∀ i, m.isParallel i → Completed m c i → (∃ f ∈ entered, m.isFinal f ∧ m.isBelow f i) →
          Reaches m entered i)

theorem announces_completions {m : Model} {c : Configuration} {entered : NodeSet}
    (hv : m.Validated) (h : Legal m c) (hsub : ∀ s ∈ entered, s ∈ c.states) (before : List Event) :
    Announces m c entered before
      (before ++ (c.completions m entered.toList).map (doneEvent m)) := by
  have hmem : ∀ i, i ∈ c.completions m entered.toList ↔ Announced m c entered i :=
    fun i => mem_completions_iff_announced hv h hsub
  refine ⟨_, rfl, nodup_completions hv h hsub, hmem, ?_⟩
  simp only [hmem]
  exact announced_iff_due hv.wellFormed

variable {κ σ : Type} [Context κ] {su : Setup κ σ}

theorem announces_enterInitial (hv : su.model.Validated) {e e' : Engine κ σ}
    (h : enterInitial su e = (.ok (), e')) (hrun : e'.halted = false) :
    Announces su.model e'.configuration e'.configuration.states
      (e.store.runEntries su.model su.evaluator e'.configuration.states.toList).internal
      e'.store.internal := by
  rw [enterInitial_eq hv] at h
  split at h
  · next hhalt =>
    cases h
    have hhalted : (entered su e).shutdown.halted = true := hhalt
    rw [hhalted] at hrun
    cases hrun
  · cases h
    exact announces_completions hv (legal_initialDescendants hv) (fun _ hs => hs) _

theorem announces_microstep (hv : su.model.Validated) {e e' : Engine κ σ} {event : Option Event}
    {n : Nat} (h : microstep su event e = (.ok n, e')) (hn : 0 < n) :
    Announces su.model e'.configuration (su.model.entrySet (selected su event e))
      (runTransitions su (selected su event e) (prepared su event e)).2.internal
      e'.store.internal := by
  obtain ⟨-, hlegal, rfl⟩ := microstep_ok h hn
  have hsub : ∀ s ∈ su.model.entrySet (selected su event e),
      s ∈ (e.configuration.take su.model (selected su event e)).states := fun s hs =>
    NodeSet.mem_union.2 (.inr hs)
  rw [internal_advance, configuration_advance, configuration_prepared]
  exact announces_completions hv ((isLegal_iff hv).1 hlegal) hsub _

/-- Every start that does not halt, and every microstep that takes transitions, appends the
completions that are announced to the internal queue, after what the content has raised. -/
theorem announces (hv : su.model.Validated) (e e' : Engine κ σ) :
    (enterInitial su e = (.ok (), e') → e'.halted = false →
      Announces su.model e'.configuration e'.configuration.states
        (e.store.runEntries su.model su.evaluator e'.configuration.states.toList).internal
        e'.store.internal) ∧
      ∀ event n, microstep su event e = (.ok n, e') → 0 < n →
        Announces su.model e'.configuration (su.model.entrySet (selected su event e))
          (runTransitions su (selected su event e) (prepared su event e)).2.internal
          e'.store.internal :=
  ⟨announces_enterInitial hv, fun _ _ => announces_microstep hv⟩

/-- The engine in which both inner regions are about to be completed. -/
def nestedEngine : Engine Scope Cache where
  phase := .waiting
  configuration := nestedStart
  store := ⟨.empty, .empty, [], #[], #[]⟩
  external := .empty
  current := none
  stats := ⟨0, 0, 0, 1⟩
  settling := 0
  halted := false

def nestedEvent : Option Event := some (.external "go")

/-- Both inner regions and the inner parallel state are announced.  The outer parallel state `p` is
completed with them and should be announced too, but its only region is parallel. -/
theorem announces_nestedEngine :
    (∃ e', enterInitial nestedSetup nestedEngine.reset = (.ok (), e') ∧
      Announces nestedSetup.model e'.configuration e'.configuration.states
        (nestedEngine.reset.store.runEntries nestedSetup.model nestedSetup.evaluator
          e'.configuration.states.toList).internal
        e'.store.internal) ∧
      ∃ e', microstep nestedSetup nestedEvent nestedEngine = (.ok 2, e') ∧
        Announces nestedSetup.model e'.configuration
          (nestedSetup.model.entrySet (selected nestedSetup nestedEvent nestedEngine))
          (runTransitions nestedSetup (selected nestedSetup nestedEvent nestedEngine)
            (prepared nestedSetup nestedEvent nestedEngine)).2.internal
          e'.store.internal ∧
        e'.store.internal.map (·.name) = ["done.state.r", "done.state.s", "done.state.q"] ∧
        Due nestedSetup.model e'.configuration
          (nestedSetup.model.entrySet (selected nestedSetup nestedEvent nestedEngine)) 1 := by
  constructor
  · have hok : (enterInitial nestedSetup nestedEngine.reset).1 = .ok () := by decide +kernel
    have hrun : (enterInitial nestedSetup nestedEngine.reset).2.halted = false := by decide +kernel
    have henter : enterInitial nestedSetup nestedEngine.reset =
        (.ok (), (enterInitial nestedSetup nestedEngine.reset).2) := Prod.ext hok rfl
    exact ⟨_, henter, (announces validated_nestedSetup _ _).1 henter hrun⟩
  · have hok : (microstep nestedSetup nestedEvent nestedEngine).1 = .ok 2 := by decide +kernel
    have hconf : (microstep nestedSetup nestedEvent nestedEngine).2.configuration =
        ⟨.ofList [1, 2, 3, 6, 7, 10]⟩ := by
      decide +kernel
    have hnames : (microstep nestedSetup nestedEvent nestedEngine).2.store.internal.map (·.name) =
        ["done.state.r", "done.state.s", "done.state.q"] := by
      decide +kernel
    have hstep : microstep nestedSetup nestedEvent nestedEngine =
        (.ok 2, (microstep nestedSetup nestedEvent nestedEngine).2) := Prod.ext hok rfl
    have hentered : nestedSetup.model.entrySet (selected nestedSetup nestedEvent nestedEngine) =
        .ofList [6, 10] := by decide +kernel
    refine ⟨_, hstep, (announces validated_nestedSetup _ _).2 _ _ hstep (by decide), hnames, ?_⟩
    rw [hconf, hentered]
    have hcompleted : Completed nestedSetup.model ⟨.ofList [1, 2, 3, 6, 7, 10]⟩ 1 :=
      (isCompleted_iff validated_nestedSetup.wellFormed).1 (by decide +kernel)
    exact .inr ⟨by decide, hcompleted, 6, by decide, by decide, by decide +kernel⟩

end Engine

end Statechart
