import Statechart.Configuration.Basic
import Statechart.Proofs.Model.Domain

/-!
# Legal configurations

`Configuration.Legal` says what `Configuration.validate` checks: active nodes are states, what lies
above an active state is active, and the root and every active state have the active children that
they need.

* `Configuration.isLegal_iff`: over a validated model the check accepts exactly these
  configurations;
* `Legal.active_of_isBelow`: everything above an active state is active;
* `Legal.exists_active_child`: an active node with child states has an active one;
* `Legal.eq_singleton`: if a child of the root without child states is active, nothing else is;
* `Configuration.initial_eq`: a validated model has an initial configuration, what the root enters
  by default, and `legal_initialDescendants` says that it is legal.
-/

namespace Statechart.Configuration

open Model

/-- A node is active, where the root counts as such. -/
def Active (c : Configuration) (i : Nat) : Prop := i = 0 ∨ i ∈ c.states

/-- The active states fit together. -/
structure Legal (m : Model) (c : Configuration) : Prop where
  isState {s : Nat} : s ∈ c.states → m.isState s
  active_parent {s p : Nat} : s ∈ c.states → m.parent? s = some p → c.Active p
  filledAt {i : Nat} : c.Active i → m.FilledAt c.states i

variable {m : Model} {c : Configuration} {i s : Nat}

theorem countP_eq_one_iff {p : Nat → Bool} {l : List Nat} (h : l.Nodup) :
    l.countP p = 1 ↔ ∃ a ∈ l, p a ∧ ∀ b ∈ l, p b → b = a := by
  constructor
  · rw [List.countP_eq_length_filter, List.length_eq_one_iff]
    rintro ⟨a, ha⟩
    have hmem : ∀ b, b ∈ l ∧ p b ↔ b = a := fun b => by
      rw [← List.mem_filter, ha, List.mem_singleton]
    obtain ⟨hal, hpa⟩ := (hmem a).2 rfl
    exact ⟨a, hal, hpa, fun b hb hpb => (hmem b).1 ⟨hb, hpb⟩⟩
  · rintro ⟨a, ha, hpa, huniq⟩
    rw [List.countP_congr (q := (· == a)) fun b hb => by
      rw [beq_iff_eq]
      exact ⟨huniq b hb, fun h => h ▸ hpa⟩]
    exact h.count.trans (if_pos ha)

theorem activeChildren_eq_one_iff (hm : m.WellFormed) : c.activeChildren m i = 1 ↔
    ∃ a ∈ m.childStates i, a ∈ c.states ∧ ∀ b ∈ m.childStates i, b ∈ c.states → b = a := by
  rw [activeChildren, countP_eq_one_iff (hm.nodup_childStates i)]
  simp only [decide_eq_true_eq]

theorem activeChildren_eq_length_iff :
    c.activeChildren m i = (m.childStates i).length ↔ ∀ a ∈ m.childStates i, a ∈ c.states := by
  rw [activeChildren, List.countP_eq_length]
  simp only [decide_eq_true_eq]

theorem find_inactive_eq_none_iff (hv : m.Validated) :
    ((m.ancestors s).find? fun a => !m.isRoot a && !decide (a ∈ c.states)) = none ↔
      ∀ a, m.isBelow s a → c.Active a := by
  simp only [List.find?_eq_none, Bool.and_eq_true, Bool.not_eq_true', Bool.eq_false_iff, ne_eq,
    hv.isRoot_iff, decide_eq_true_eq, Model.isBelow, List.contains_iff_mem, Active, not_and, not_not]
  exact forall₂_congr fun a _ => or_iff_not_imp_left.symm

/-- The check of one active state. -/
theorem stateFault?_eq_none_iff (hv : m.Validated) :
    c.stateFault? m s = none ↔
      m.isState s ∧ (∀ a, m.isBelow s a → c.Active a) ∧ m.FilledAt c.states s := by
  have hm := hv.wellFormed
  unfold stateFault?
  by_cases hs : m.isState s
  · rw [if_neg (not_not.2 hs), ← find_inactive_eq_none_iff hv]
    cases (m.ancestors s).find? fun a => !m.isRoot a && !decide (a ∈ c.states) with
    | some a => simp
    | none =>
      by_cases hpar : m.isParallel s
      · simp [hs, hpar, FilledAt, activeChildren_eq_length_iff]
      · simp only [hs, hpar, hm.isCompound_iff hs hpar, FilledAt, if_false, true_and, ne_eq,
          Bool.false_eq_true, ite_eq_right_iff, reduceCtorEq, imp_false, not_and, not_not,
          activeChildren_eq_one_iff hm]
  · simp [hs]

theorem fault?_eq_none_iff (hv : m.Validated) :
    c.fault? m = none ↔ (∃ a ∈ c.states, m.isAtomic a) ∧
      (∀ s ∈ c.states, c.stateFault? m s = none) ∧ c.activeChildren m 0 = 1 := by
  have hatomic : (c.atomicStates m).isEmpty = false ↔ ∃ a ∈ c.states, m.isAtomic a := by
    simp [NodeSet.isEmpty, atomicStates, NodeSet.filter, List.filter_eq_nil_iff, NodeSet.mem_def]
  unfold fault?
  cases he : (c.atomicStates m).isEmpty with
  | true => simp [← hatomic, he]
  | false =>
    rw [if_neg Bool.false_ne_true]
    cases hf : c.states.toList.findSome? (c.stateFault? m) with
    | some f =>
      obtain ⟨s, hs, hsf⟩ := List.exists_of_findSome?_eq_some hf
      simp only [reduceCtorEq, false_iff]
      rintro ⟨-, h, -⟩
      rw [h s hs] at hsf
      cases hsf
    | none =>
      have hnone : ∀ s ∈ c.states, c.stateFault? m s = none := List.findSome?_eq_none_iff.1 hf
      simp only [hv.checks.1, ← hatomic, he, true_and, ne_eq, ite_eq_right_iff, reduceCtorEq,
        imp_false, not_not]
      exact ⟨fun h => ⟨hnone, h⟩, And.right⟩

namespace Legal

/-- Everything above an active state is active. -/
theorem active_of_isBelow (hv : m.Validated) (h : Legal m c) {a : Nat} (hs : s ∈ c.states)
    (ha : m.isBelow s a) : c.Active a := by
  induction s using Nat.strongRecOn with
  | ind s ih =>
    obtain ⟨p, hp, hpa⟩ := hv.wellFormed.isBelow_iff.1 ha
    have hactive := h.active_parent hs hp
    rcases hpa with rfl | hpa
    · exact hactive
    · rcases hactive with rfl | hactive
      · exact absurd (hv.wellFormed.isBelow_lt hpa) (Nat.not_lt_zero a)
      · exact ih p (hv.wellFormed.parent_lt hp) hactive hpa

theorem active_of_within (hv : m.Validated) (h : Legal m c) {a : Nat} (hs : c.Active s)
    (ha : m.Within s a) : c.Active a := by
  rcases ha with rfl | ha
  · exact hs
  · rcases hs with rfl | hs
    · exact absurd (hv.wellFormed.isBelow_lt ha) (Nat.not_lt_zero a)
    · exact h.active_of_isBelow hv hs ha

/-- An active node with child states has an active one. -/
theorem exists_active_child (h : Legal m c) (hi : c.Active i) (hne : m.childStates i ≠ []) :
    ∃ a ∈ m.childStates i, a ∈ c.states := by
  have hf := h.filledAt hi
  unfold FilledAt at hf
  split at hf
  · obtain ⟨a, ha⟩ := List.exists_mem_of_ne_nil _ hne
    exact ⟨a, ha, hf a ha⟩
  · obtain ⟨a, ha, hac, -⟩ := hf hne
    exact ⟨a, ha, hac⟩

/-- An active node that is not parallel has at most one active child state. -/
theorem eq_of_active (h : Legal m c) (hpar : ¬ m.isParallel i) (hi : c.Active i) {a b : Nat}
    (ha : a ∈ m.childStates i) (hac : a ∈ c.states) (hb : b ∈ m.childStates i)
    (hbc : b ∈ c.states) : a = b := by
  have hf := h.filledAt hi
  rw [FilledAt, if_neg hpar] at hf
  obtain ⟨d, -, -, huniq⟩ := hf (List.ne_nil_of_mem ha)
  rw [huniq a ha hac, huniq b hb hbc]

/-- An active atomic state lies in the subtree of every active state. -/
theorem exists_atomic_within (hv : m.Validated) (h : Legal m c) (hs : s ∈ c.states) :
    ∃ a ∈ c.states, m.isAtomic a ∧ m.Within a s := by
  have hm := hv.wellFormed
  induction hn : m.size - s using Nat.strongRecOn generalizing s with
  | ind n ih =>
    by_cases hne : m.childStates s = []
    · exact ⟨s, hs, by simp [isAtomic, h.isState hs, hne], .refl s⟩
    · obtain ⟨d, hd, hdc⟩ := h.exists_active_child (.inr hs) hne
      have := hm.childState_range hd
      obtain ⟨a, ha, hat, hwithin⟩ := ih (m.size - d) (by omega) hdc rfl
      exact ⟨a, ha, hat, .inr (hm.isBelow_of_child (hm.mem_childStates.1 hd).1 hwithin)⟩

/-- If a child of the root without child states is active, nothing else is. -/
theorem eq_singleton (hv : m.Validated) (h : Legal m c) (hs : s ∈ m.childStates 0)
    (hsc : s ∈ c.states) (hnone : m.childStates s = []) : c.states = .ofList [s] := by
  have hm := hv.wellFormed
  refine NodeSet.ext fun x => ?_
  rw [NodeSet.mem_ofList, List.mem_singleton]
  refine ⟨fun hx => ?_, fun hx => hx ▸ hsc⟩
  -- Every active state lies within the one active child of the root.
  have hstate := h.isState hx
  obtain ⟨d, hd, hxd⟩ := hm.exists_childState_within hstate (hm.state_isBelow_zero hstate)
  have hdc : d ∈ c.states := (h.active_of_within hv (.inr hx) hxd).resolve_left
    (hm.ne_zero_of_isState (hm.mem_childStates.1 hd).2)
  obtain rfl : d = s := h.eq_of_active hm.not_isParallel_zero (.inl rfl) hd hdc hs hsc
  rcases hxd with rfl | hxd
  · rfl
  · obtain ⟨y, hy, -⟩ := hm.exists_childState_within hstate hxd
    rw [hnone] at hy
    cases hy

end Legal

/-- A child of the root without child states is legal on its own. -/
theorem legal_singleton (hm : m.WellFormed) (hs : s ∈ m.childStates 0)
    (hnone : m.childStates s = []) : Legal m ⟨.ofList [s]⟩ where
  isState hx := by
    rw [NodeSet.mem_ofList, List.mem_singleton] at hx
    exact hx ▸ (hm.mem_childStates.1 hs).2
  active_parent hx hp := by
    rw [NodeSet.mem_ofList, List.mem_singleton] at hx
    rw [hx, (hm.mem_childStates.1 hs).1] at hp
    exact .inl (Option.some.inj hp).symm
  filledAt hi := by
    simp only [Active, NodeSet.mem_ofList, List.mem_singleton] at hi
    unfold FilledAt
    rcases hi with rfl | rfl
    · rw [if_neg hm.not_isParallel_zero]
      exact fun _ => ⟨s, hs, by simp, by simp⟩
    · simp [hnone]

/-- The check accepts exactly the legal configurations. -/
theorem isLegal_iff (hv : m.Validated) : c.isLegal m ↔ Legal m c := by
  have hm := hv.wellFormed
  rw [isLegal, Option.isNone_iff_eq_none, fault?_eq_none_iff hv, activeChildren_eq_one_iff hm]
  simp only [stateFault?_eq_none_iff hv]
  constructor
  · rintro ⟨-, hstates, htop⟩
    refine ⟨fun hs => (hstates _ hs).1,
      fun hs hp => (hstates _ hs).2.1 _ (hm.isBelow_of_parent hp), fun {i} hi => ?_⟩
    rcases hi with rfl | hi
    · rw [FilledAt, if_neg hm.not_isParallel_zero]
      exact fun _ => htop
    · exact (hstates i hi).2.2
  · intro h
    have htop := h.filledAt (.inl rfl)
    rw [FilledAt, if_neg hm.not_isParallel_zero] at htop
    obtain ⟨d, hd, hdc, huniq⟩ := htop hv.checks.2.2.1
    obtain ⟨a, ha, hat, -⟩ := h.exists_atomic_within hv hdc
    exact ⟨⟨a, ha, hat⟩, fun s hs => ⟨h.isState hs, fun a => h.active_of_isBelow hv hs,
      h.filledAt (.inr hs)⟩, d, hd, hdc, huniq⟩

theorem validate_eq_ok_iff : c.validate m = .ok () ↔ c.isLegal m := by
  unfold validate isLegal
  cases c.fault? m <;> simp

/-! ### The initial configuration -/

/-- A set with which the root is complete is a legal configuration. -/
theorem legal_of_completes {k : NodeSet} (hk : m.Completes 0 k) : Legal m ⟨k⟩ where
  isState hs := hk.isState hs
  active_parent hs hp := hk.parent_mem hs hp
  filledAt hi := hk.filledAt hi

theorem legal_initialDescendants (hv : m.Validated) : Legal m ⟨m.initialDescendants 0⟩ :=
  legal_of_completes (hv.completes_enterClosure (.nil m 0))

/-- Adding the root adds what it enters by default. -/
theorem add_zero (hv : m.Validated) : empty.add m 0 = .ok ⟨m.initialDescendants 0⟩ := by
  have hroot : m.isRoot 0 := hv.isRoot_iff.2 rfl
  have hnone : m.ancestors 0 = [] := by
    rw [hv.wellFormed.ancestors_eq]
    cases hp : m.parent? 0 with
    | none => rfl
    | some p => exact absurd (hv.wellFormed.parent_lt hp) (Nat.not_lt_zero p)
  obtain ⟨k, hk⟩ := exists_kind? hv.size_pos
  have hstates : (NodeSet.empty.insertAll []).union (m.initialDescendants 0) =
      m.initialDescendants 0 := NodeSet.ext fun s => by simp
  simp [add, hk, hroot, hnone, empty, hstates]

/-- A validated model has an initial configuration. -/
theorem initial_eq (hv : m.Validated) : initial m = .ok ⟨m.initialDescendants 0⟩ := by
  have hvalid : validate m ⟨m.initialDescendants 0⟩ = .ok () :=
    validate_eq_ok_iff.2 ((isLegal_iff hv).2 (legal_initialDescendants hv))
  simp only [initial, hv.checks.1, add_zero hv, hvalid]

end Statechart.Configuration
