import Statechart.Proofs.Configuration.Taking

/-!
# Legal configurations are maximal

Two states can be active together if one is the other or lies below it, or if they lie in different
regions of a parallel state.  The legal configurations are the largest sets of states of which any
two can be active together: what the check asks of each active state by itself says no more and no
less.

* `Model.NearestAbove`, `Model.Compatible`, `Model.Maximal`: the nearest node above two nodes,
  states that can be active together, and the largest sets of them;
* `WellFormed.exists_diverge`: the ways down to two unrelated states part at some node;
* `Compatible.parent`, `Compatible.child`: compatibility goes one link up, and one link down on a
  way that the other state is not on;
* `Configuration.Legal.maximal`, `Model.Maximal.legal`: the two directions;
* `Configuration.validate_eq_ok_iff_maximal`: the check accepts exactly the maximal sets.
-/

namespace Statechart

namespace Model

/-- The node `p` is above both nodes, and below every other node that is. -/
structure NearestAbove (m : Model) (a b p : Nat) : Prop where
  left : m.isBelow a p
  right : m.isBelow b p
  nearest {q : Nat} : m.isBelow a q → m.isBelow b q → m.Within p q

/-- Two states can be active together. -/
inductive Compatible (m : Model) (a b : Nat) : Prop
  | same : a = b → Compatible m a b
  | below : m.isBelow a b → Compatible m a b
  | above : m.isBelow b a → Compatible m a b
  | apart {p : Nat} : m.NearestAbove a b p → m.isParallel p → Compatible m a b

/-- A set of states, any two of them compatible, to which no other state can be added. -/
structure Maximal (m : Model) (s : NodeSet) : Prop where
  isState {a : Nat} : a ∈ s → m.isState a
  compatible {a b : Nat} : a ∈ s → b ∈ s → m.Compatible a b
  mem_of_compatible {x : Nat} : m.isState x → (∀ a ∈ s, m.Compatible a x) → x ∈ s

variable {m : Model} {a b c d p i : Nat}

/-! ### Where the ways down to two states part -/

namespace WellFormed

/-- The ways down from the root to two unrelated states part at some node. -/
theorem exists_diverge (hm : m.WellFormed) (ha : m.isState a) (hb : m.isState b)
    (h : m.Unrelated a b) : ∃ p, ∃ c ∈ m.childStates p, ∃ d ∈ m.childStates p,
      c ≠ d ∧ m.Within a c ∧ m.Within b d := by
  -- Up from `a`, one link at a time, until the node reached is above `b`.
  induction a using Nat.strongRecOn with
  | ind a ih =>
    obtain ⟨p, hp⟩ := hm.exists_parent (isState_lt_size ha) (hm.ne_zero_of_isState ha)
    by_cases hbp : m.isBelow b p
    · obtain ⟨d, hd, hbd⟩ := hm.exists_childState_within hb hbp
      exact ⟨p, a, hm.mem_childStates.2 ⟨hp, ha⟩, d, hd, fun had => h.2 (had ▸ hbd), .refl a, hbd⟩
    · have hps : m.isState p := by
        refine (hm.isState_of_parent ha hp).resolve_left fun h0 => hbp ?_
        exact h0 ▸ hm.state_isBelow_zero hb
      have hu : m.Unrelated p b := by
        refine ⟨fun hpb => h.1 (.inr (hm.isBelow_of_parent_within hp hpb)), ?_⟩
        rintro (rfl | hbp')
        · exact h.1 (.inr (hm.isBelow_of_parent hp))
        · exact hbp hbp'
      obtain ⟨q, c, hc, d, hd, hne, hpc, hbd⟩ := ih p (hm.parent_lt hp) hps hu
      exact ⟨q, c, hc, d, hd, hne, .inr (hm.isBelow_of_parent_within hp hpc), hbd⟩

/-- Where the ways down part is the nearest node above both. -/
theorem nearestAbove_of_diverge (hm : m.WellFormed) (hc : m.parent? c = some p)
    (hd : m.parent? d = some p) (hne : c ≠ d) (hac : m.Within a c) (hbd : m.Within b d) :
    m.NearestAbove a b p where
  left := hm.isBelow_of_child hc hac
  right := hm.isBelow_of_child hd hbd
  nearest {q} haq hbq := by
    rcases hm.isBelow_comparable (hm.isBelow_of_child hc hac) haq with hpq | rfl | hqp
    · exact hpq
    · exact .refl q
    · exact absurd hqp (hm.not_isBelow_of_diverge hc hd hne hac hbd (.inr haq) (.inr hbq))

theorem compatible_of_diverge (hm : m.WellFormed) (hpar : m.isParallel p)
    (hc : c ∈ m.childStates p) (hd : d ∈ m.childStates p) (hac : m.Within a c)
    (hbd : m.Within b d) (hne : c ≠ d) : m.Compatible a b :=
  .apart (hm.nearestAbove_of_diverge (hm.mem_childStates.1 hc).1 (hm.mem_childStates.1 hd).1 hne
    hac hbd) hpar

/-- Two children of a node that is not parallel are not active together. -/
theorem eq_of_compatible (hm : m.WellFormed) (hpar : ¬ m.isParallel p) (hc : c ∈ m.childStates p)
    (hd : d ∈ m.childStates p) (h : m.Compatible c d) : c = d := by
  have hcp := (hm.mem_childStates.1 hc).1
  have hdp := (hm.mem_childStates.1 hd).1
  cases h with
  | same h => exact h
  | below h => exact absurd h (hm.not_isBelow_sibling hcp hdp)
  | above h => exact absurd h (hm.not_isBelow_sibling hdp hcp)
  | @apart q hq hqpar =>
    by_contra hne
    have hp := hm.nearestAbove_of_diverge hcp hdp hne (.refl c) (.refl d)
    -- Each of the two nearest nodes is within the other, so they are one.
    rcases hq.nearest hp.left hp.right with rfl | hqp
    · exact hpar hqpar
    · rcases hp.nearest hq.left hq.right with rfl | hpq
      · exact hpar hqpar
      · exact hm.not_isBelow_self (hm.isBelow_trans hpq hqp)

end WellFormed

/-! ### Compatibility along a link -/

namespace Compatible

theorem of_within (h : m.Within a b) : m.Compatible a b := h.elim .same .below

theorem parent (hm : m.WellFormed) (h : m.Compatible a b) (hp : m.parent? b = some p) :
    m.Compatible a p := by
  cases h with
  | same h => exact .below (h ▸ hm.isBelow_of_parent hp)
  | below h => exact .below (hm.isBelow_trans h (hm.isBelow_of_parent hp))
  | above h => exact (hm.within_parent h hp).elim (.same ∘ Eq.symm) .above
  | apart hq hpar =>
    rcases hm.within_parent hq.right hp with rfl | hpq
    · exact .below hq.left
    · exact .apart ⟨hq.left, hpq, fun har hpr =>
        hq.nearest har (hm.isBelow_trans (hm.isBelow_of_parent hp) hpr)⟩ hpar

theorem child (hm : m.WellFormed) (h : m.Compatible a p) (hap : ¬ m.isBelow a p)
    (hd : m.parent? d = some p) : m.Compatible a d := by
  cases h with
  | same h => exact .above (h ▸ hm.isBelow_of_parent hd)
  | below h => exact absurd h hap
  | above h => exact .above (hm.isBelow_trans (hm.isBelow_of_parent hd) h)
  | apart hq hpar =>
    refine .apart ⟨hq.left, hm.isBelow_trans (hm.isBelow_of_parent hd) hq.right,
      fun har hdr => ?_⟩ hpar
    rcases hm.within_parent hdr hd with rfl | hpr
    · exact absurd har hap
    · exact hq.nearest har hpr

end Compatible

end Model

namespace Configuration

open Model

variable {m : Model} {c : Configuration} {a b i : Nat}

/-! ### Legal configurations are maximal -/

namespace Legal

theorem mem_of_active (hm : m.WellFormed) (ha : m.isState a) (h : c.Active a) : a ∈ c.states :=
  h.resolve_left (hm.ne_zero_of_isState ha)

theorem compatible (hv : m.Validated) (h : Legal m c) (ha : a ∈ c.states) (hb : b ∈ c.states) :
    m.Compatible a b := by
  have hm := hv.wellFormed
  by_cases hu : m.Unrelated a b
  · obtain ⟨p, x, hx, y, hy, hne, hax, hby⟩ := hm.exists_diverge (h.isState ha) (h.isState hb) hu
    obtain ⟨hxp, hxs⟩ := hm.mem_childStates.1 hx
    obtain ⟨-, hys⟩ := hm.mem_childStates.1 hy
    have hxc := mem_of_active hm hxs (h.active_of_within hv (.inr ha) hax)
    have hyc := mem_of_active hm hys (h.active_of_within hv (.inr hb) hby)
    by_cases hpar : m.isParallel p
    · exact hm.compatible_of_diverge hpar hx hy hax hby hne
    · exact absurd (h.eq_of_active hpar (h.active_parent hxc hxp) hx hxc hy hyc) hne
  · rw [Unrelated, not_and_or, not_not, not_not] at hu
    rcases hu with hab | rfl | hba
    · exact .of_within hab
    · exact .same rfl
    · exact .above hba

/-- Nothing can be added to a legal configuration. -/
theorem mem_of_compatible (hv : m.Validated) (h : Legal m c) (hs : m.isState i)
    (hi : ∀ a ∈ c.states, m.Compatible a i) : i ∈ c.states := by
  have hm := hv.wellFormed
  induction i using Nat.strongRecOn with
  | ind i ih =>
    obtain ⟨p, hp⟩ := hm.exists_parent (isState_lt_size hs) (hm.ne_zero_of_isState hs)
    have hic := hm.mem_childStates.2 ⟨hp, hs⟩
    have hactive : c.Active p := (hm.isState_of_parent hs hp).imp_right fun hps =>
      ih p (hm.parent_lt hp) hps fun a ha => (hi a ha).parent hm hp
    by_cases hpar : m.isParallel p
    · have hf := h.filledAt hactive
      rw [FilledAt, if_pos hpar] at hf
      exact hf i hic
    · obtain ⟨d, hd, hdc⟩ := h.exists_active_child hactive (List.ne_nil_of_mem hic)
      exact hm.eq_of_compatible hpar hd hic (hi d hdc) ▸ hdc

theorem maximal (hv : m.Validated) (h : Legal m c) : m.Maximal c.states :=
  ⟨h.isState, h.compatible hv, h.mem_of_compatible hv⟩

end Legal

end Configuration

/-! ### Maximal sets are legal -/

namespace Model.Maximal

open Statechart.Configuration

variable {m : Model} {s : NodeSet} {a c d i p : Nat}

theorem active_parent (hm : m.WellFormed) (h : m.Maximal s) (ha : a ∈ s)
    (hp : m.parent? a = some p) : p = 0 ∨ p ∈ s :=
  (hm.isState_of_parent (h.isState ha) hp).imp_right fun hs =>
    h.mem_of_compatible hs fun _ hb => (h.compatible hb ha).parent hm hp

/-- Below an active node, the child on the way down to an active state is active. -/
theorem exists_active_child (hm : m.WellFormed) (h : m.Maximal s) (ha : a ∈ s)
    (hai : m.isBelow a i) : ∃ c ∈ m.childStates i, c ∈ s ∧ m.Within a c := by
  induction a using Nat.strongRecOn with
  | ind a ih =>
    obtain ⟨p, hp, rfl | hpi⟩ := hm.isBelow_iff.1 hai
    · exact ⟨a, hm.mem_childStates.2 ⟨hp, h.isState ha⟩, ha, .refl a⟩
    · rcases h.active_parent hm ha hp with rfl | hps
      · exact absurd (hm.isBelow_lt hpi) (Nat.not_lt_zero i)
      · obtain ⟨c, hc, hcs, hpc⟩ := ih p (hm.parent_lt hp) hps hpi
        exact ⟨c, hc, hcs, .inr (hm.isBelow_of_parent_within hp hpc)⟩

/-- An active state that does not lie below an active node is compatible with its children. -/
theorem compatible_child (hm : m.WellFormed) (h : m.Maximal s) (hi : i = 0 ∨ i ∈ s) (ha : a ∈ s)
    (hai : ¬ m.isBelow a i) (hd : d ∈ m.childStates i) : m.Compatible a d := by
  rcases hi with rfl | hi
  · exact absurd (hm.state_isBelow_zero (h.isState ha)) hai
  · exact (h.compatible ha hi).child hm hai (hm.mem_childStates.1 hd).1

theorem filledAt (hm : m.WellFormed) (h : m.Maximal s) (hi : i = 0 ∨ i ∈ s) : m.FilledAt s i := by
  unfold FilledAt
  split
  · next hpar =>
    intro d hd
    refine h.mem_of_compatible (hm.mem_childStates.1 hd).2 fun a ha => ?_
    by_cases hai : m.isBelow a i
    · obtain ⟨c, hc, -, hac⟩ := h.exists_active_child hm ha hai
      by_cases hcd : c = d
      · exact .of_within (hcd ▸ hac)
      · exact hm.compatible_of_diverge hpar hc hd hac (.refl d) hcd
    · exact h.compatible_child hm hi ha hai hd
  · next hpar =>
    intro hne
    obtain ⟨d, hd⟩ := List.exists_mem_of_ne_nil _ hne
    -- If nothing is active below `i`, any child can be added.
    obtain ⟨c, hc, hcs⟩ : ∃ c ∈ m.childStates i, c ∈ s := by
      by_contra hnone
      refine hnone ⟨d, hd, h.mem_of_compatible (hm.mem_childStates.1 hd).2 fun a ha => ?_⟩
      refine h.compatible_child hm hi ha (fun hai => ?_) hd
      obtain ⟨c, hc, hcs, -⟩ := h.exists_active_child hm ha hai
      exact hnone ⟨c, hc, hcs⟩
    exact ⟨c, hc, hcs, fun b hb hbs => hm.eq_of_compatible hpar hb hc (h.compatible hbs hcs)⟩

theorem legal (hm : m.WellFormed) (h : m.Maximal s) : Legal m ⟨s⟩ :=
  ⟨h.isState, h.active_parent hm, h.filledAt hm⟩

end Model.Maximal

namespace Configuration

/-- The check accepts exactly the maximal sets of states that can be active together. -/
theorem validate_eq_ok_iff_maximal {m : Model} (hv : m.Validated) (c : Configuration) :
    c.validate m = .ok () ↔ m.Maximal c.states := by
  rw [validate_eq_ok_iff, isLegal_iff hv]
  exact ⟨fun h => h.maximal hv, fun h => h.legal hv.wellFormed⟩

/-- With both regions of the inner parallel state, and without one of them. -/
theorem validate_eq_ok_iff_maximal_nestedStart :
    Model.nestedParallel.Maximal nestedStart.states ∧
      ¬ Model.nestedParallel.Maximal (.ofList [1, 2, 3, 4]) := by
  have hok : validate Model.nestedParallel nestedStart = .ok () := by decide +kernel
  have hfault : validate Model.nestedParallel ⟨.ofList [1, 2, 3, 4]⟩ ≠ .ok () := by decide +kernel
  exact ⟨(validate_eq_ok_iff_maximal Model.validated_nestedParallel nestedStart).1 hok,
    fun h => hfault ((validate_eq_ok_iff_maximal Model.validated_nestedParallel _).2 h)⟩

end Configuration

end Statechart
