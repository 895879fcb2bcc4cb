import Statechart.Configuration.Move
import Statechart.Proofs.Configuration.Legality

/-!
# What preemption leaves

* `mem_exitsOf`, `mem_exitSet`, `mem_entriesOf`, `mem_entrySet`: the states that transitions leave
  and enter;
* `preempt_sublist`, `pairwise_not_conflicts`: preemption keeps some of the candidates, in document
  order, and no two that conflict;
* `Model.Apart`: transitions whose domains are unrelated;
* `apart_of_not_conflicts`: in a legal configuration, transitions of active states that do not
  conflict are apart.
-/

namespace Statechart

namespace Model

/-- The domains of two transitions, if both have one, are unrelated. -/
def Apart (m : Model) (t u : Nat) : Prop :=
  ∀ d, m.domain? t = some d → ∀ d', m.domain? u = some d' → m.Unrelated d d'

theorem Apart.symm {m : Model} {t u : Nat} (h : m.Apart t u) : m.Apart u t :=
  fun d hd d' hd' => (h d' hd' d hd).symm

end Model

namespace Configuration

open Model

variable {m : Model} {c : Configuration} {s t u : Nat} {ts candidates : List Nat}

/-! ### The states left and entered -/

theorem mem_exitsOf :
    s ∈ c.exitsOf m t ↔ ∃ d, m.domain? t = some d ∧ s ∈ c.states ∧ m.isBelow s d := by
  unfold exitsOf
  cases m.domain? t <;> simp

theorem mem_exitSet : s ∈ c.exitSet m ts ↔ ∃ t ∈ ts, s ∈ c.exitsOf m t := by
  rw [exitSet, NodeSet.mem_foldl (g := fun t s => s ∈ c.exitsOf m t) fun _ _ _ => NodeSet.mem_union]
  simp

theorem mem_entriesOf : s ∈ m.entriesOf t ↔
    ∃ d, m.domain? t = some d ∧ s ∈ m.enterClosure d (m.resolvedTargets t) := by
  unfold entriesOf
  cases m.domain? t <;> simp

theorem mem_entrySet : s ∈ m.entrySet ts ↔ ∃ t ∈ ts, s ∈ m.entriesOf t := by
  rw [entrySet, NodeSet.mem_foldl (g := fun t s => s ∈ m.entriesOf t) fun _ _ _ => NodeSet.mem_union]
  simp

/-! ### What is kept -/

theorem conflicts_iff : c.conflicts m t u ↔ (∃ s, s ∈ c.exitsOf m t ∧ s ∈ c.exitsOf m u) ∨
    (∃ s, m.source? t = some s ∧ s ∈ c.exitsOf m u) ∨
    ∃ s, m.source? u = some s ∧ s ∈ c.exitsOf m t := by
  have hdisjoint : (c.exitsOf m t).disjoint (c.exitsOf m u) = false ↔
      ∃ s, s ∈ c.exitsOf m t ∧ s ∈ c.exitsOf m u := by
    rw [Bool.eq_false_iff, ne_eq, NodeSet.disjoint_iff]
    simp
  simp [conflicts, hdisjoint, or_assoc, Option.any_eq_true]

theorem conflicts_comm : c.conflicts m t u ↔ c.conflicts m u t := by
  rw [conflicts_iff, conflicts_iff]
  exact or_congr (exists_congr fun s => and_comm) or_comm

theorem foldl_keep_sublist (kept l : List Nat) :
    (l.foldl (c.keep m) kept).Sublist (kept ++ l) := by
  induction l generalizing kept with
  | nil => simp
  | cons t l ih =>
    refine (ih _).trans ?_
    unfold keep
    split
    · exact List.Sublist.append_left (List.sublist_cons_self t l) kept
    · simp

theorem pairwise_foldl_keep {kept : List Nat} (l : List Nat)
    (h : kept.Pairwise fun t u => ¬ c.conflicts m t u) :
    (l.foldl (c.keep m) kept).Pairwise fun t u => ¬ c.conflicts m t u := by
  induction l generalizing kept with
  | nil => exact h
  | cons t l ih =>
    refine ih ?_
    unfold keep
    split
    · exact h
    · next hany =>
      refine List.pairwise_append.2 ⟨h, by simp, fun u hu t' ht' hconflict => hany ?_⟩
      rw [List.mem_singleton.1 ht', conflicts_comm] at hconflict
      exact List.any_eq_true.2 ⟨u, hu, hconflict⟩

theorem preempt_sublist : (c.preempt m candidates).Sublist (NodeSet.ofList candidates).toList :=
  foldl_keep_sublist [] _

theorem mem_of_mem_preempt (h : t ∈ c.preempt m candidates) : t ∈ candidates :=
  NodeSet.mem_ofList.1 (preempt_sublist.subset h)

theorem pairwise_lt_preempt : (c.preempt m candidates).Pairwise (· < ·) :=
  (NodeSet.ofList candidates).sorted.sublist preempt_sublist

/-- No two transitions that are kept conflict. -/
theorem pairwise_not_conflicts :
    (c.preempt m candidates).Pairwise fun t u => ¬ c.conflicts m t u :=
  pairwise_foldl_keep _ .nil

/-! ### Domains -/

/-- The domain of a transition of an active state is active. -/
theorem Legal.active_domain (hv : m.Validated) (h : Legal m c) {d : Nat}
    (hs : m.source? t = some s) (hsc : s ∈ c.states) (hd : m.domain? t = some d) : c.Active d :=
  h.active_of_within hv (.inr hsc) (hv.within_domain hd hs)

/-- A domain has child states: the targets lie below it. -/
theorem childStates_domain (hv : m.Validated) {d : Nat} (hd : m.domain? t = some d) :
    m.childStates d ≠ [] := by
  obtain ⟨-, -, hne, hfit⟩ := hv.domain?_spec hd
  obtain ⟨r, hr⟩ := List.exists_mem_of_ne_nil _ hne
  obtain ⟨child, hchild, -⟩ :=
    hv.wellFormed.exists_childState_within (hfit.isState hr) (hfit.isBelow hr)
  exact List.ne_nil_of_mem hchild

/-- If one domain is active and within another, a common state is left. -/
theorem Legal.exists_common_exit (hv : m.Validated) (h : Legal m c) {d d' : Nat}
    (hactive : c.Active d) (hd : m.domain? t = some d) (hd' : m.domain? u = some d')
    (hwithin : m.Within d d') : ∃ s, s ∈ c.exitsOf m t ∧ s ∈ c.exitsOf m u := by
  have hm := hv.wellFormed
  -- An active child of the inner domain lies below both.
  obtain ⟨a, ha, hac⟩ := h.exists_active_child hactive (childStates_domain hv hd)
  have hparent := (hm.mem_childStates.1 ha).1
  exact ⟨a, mem_exitsOf.2 ⟨d, hd, hac, hm.isBelow_of_parent hparent⟩,
    mem_exitsOf.2 ⟨d', hd', hac, hm.isBelow_of_parent_within hparent hwithin⟩⟩

/-- Transitions of active states that do not conflict are apart. -/
theorem apart_of_not_conflicts (hv : m.Validated) (h : Legal m c) {s' : Nat}
    (hs : m.source? t = some s) (hsc : s ∈ c.states) (hs' : m.source? u = some s')
    (hsc' : s' ∈ c.states) (hconflict : ¬ c.conflicts m t u) : m.Apart t u := by
  intro d hd d' hd'
  rw [conflicts_iff] at hconflict
  have hactive := h.active_domain hv hs hsc hd
  have hactive' := h.active_domain hv hs' hsc' hd'
  constructor
  · intro hwithin
    exact hconflict (.inl (h.exists_common_exit hv hactive hd hd' hwithin))
  · intro hwithin
    obtain ⟨a, ha, ha'⟩ := h.exists_common_exit hv hactive' hd' hd hwithin
    exact hconflict (.inl ⟨a, ha', ha⟩)

end Configuration

end Statechart
