import Statechart.Proofs.Configuration.Taking

/-!
# What the active atomic states say

Below every active state lies an active atomic one, and everything above an active state is active.
So a legal configuration can be kept as its atomic states alone.

* `Configuration.ofAtomic`: some states, and everything above them but the root;
* `Legal.mem_iff_atomic`, `Legal.ofAtomic_atomicStates`: a legal configuration is made in this way
  of its atomic states;
* `Configuration.determined_by_atomicStates`: no other legal configuration has the same ones.
-/

namespace Statechart.Configuration

open Model

/-- The configuration of some states and of everything above them but the root. -/
def ofAtomic (m : Model) (atoms : NodeSet) : Configuration :=
  ⟨atoms.insertAll (atoms.toList.flatMap fun a => (m.ancestors a).filter fun s => !m.isRoot s)⟩

variable {m : Model} {c d : Configuration} {s : Nat}

theorem mem_ofAtomic {atoms : NodeSet} : s ∈ (ofAtomic m atoms).states ↔
    s ∈ atoms ∨ (¬ m.isRoot s ∧ ∃ a ∈ atoms, m.isBelow a s) := by
  rw [ofAtomic, NodeSet.mem_insertAll]
  refine or_congr Iff.rfl ?_
  simp only [List.mem_flatMap, List.mem_filter, Model.isBelow, List.contains_iff_mem,
    Bool.not_eq_true', Bool.not_eq_true]
  constructor
  · rintro ⟨a, ha, hs, hroot⟩
    exact ⟨hroot, a, ha, hs⟩
  · rintro ⟨hroot, a, ha, hs⟩
    exact ⟨a, ha, hs, hroot⟩

theorem mem_atomicStates : s ∈ c.atomicStates m ↔ s ∈ c.states ∧ m.isAtomic s :=
  NodeSet.mem_filter

namespace Legal

/-- The active states are the active atomic ones and everything above them but the root. -/
theorem mem_iff_atomic (hv : m.Validated) (h : Legal m c) : s ∈ c.states ↔
    s ∈ c.atomicStates m ∨ (¬ m.isRoot s ∧ ∃ a ∈ c.atomicStates m, m.isBelow a s) := by
  constructor
  · intro hs
    obtain ⟨a, ha, hatomic, rfl | hbelow⟩ := h.exists_atomic_within hv hs
    · exact .inl (mem_atomicStates.2 ⟨ha, hatomic⟩)
    · refine .inr ⟨fun hroot => ?_, a, mem_atomicStates.2 ⟨ha, hatomic⟩, hbelow⟩
      exact hv.wellFormed.ne_zero_of_isState (h.isState hs) (hv.isRoot_iff.1 hroot)
  · rintro (hs | ⟨hroot, a, ha, hbelow⟩)
    · exact (mem_atomicStates.1 hs).1
    · refine (h.active_of_isBelow hv (mem_atomicStates.1 ha).1 hbelow).resolve_left fun h0 => ?_
      exact hroot (hv.isRoot_iff.2 h0)

/-- A legal configuration is read back from its atomic states. -/
theorem ofAtomic_atomicStates (hv : m.Validated) (h : Legal m c) :
    ofAtomic m (c.atomicStates m) = c :=
  ext_states fun _ => mem_ofAtomic.trans (h.mem_iff_atomic hv).symm

end Legal

/-- In a legal configuration exactly the active atomic states and everything above them, but the
root, are active.  So two legal configurations with the same atomic states are the same. -/
theorem determined_by_atomicStates (hv : m.Validated) (hc : c.isLegal m) :
    (∀ s, s ∈ c.states ↔
      s ∈ c.atomicStates m ∨ (¬ m.isRoot s ∧ ∃ a ∈ c.atomicStates m, m.isBelow a s)) ∧
    ∀ d : Configuration, d.isLegal m → d.atomicStates m = c.atomicStates m → d = c := by
  have hl := (isLegal_iff hv).1 hc
  refine ⟨fun s => hl.mem_iff_atomic hv, fun d hd heq => ?_⟩
  rw [← ((isLegal_iff hv).1 hd).ofAtomic_atomicStates hv, heq, hl.ofAtomic_atomicStates hv]

/-- The states `a` and `b` in the two regions of the inner parallel state say that both parallel
states are active, and with them the states around `a` and `b`. -/
theorem determined_by_atomicStates_nestedStart :
    nestedStart.atomicStates nestedParallel = .ofList [4, 8] ∧
      (∀ d : Configuration, d.isLegal nestedParallel →
        d.atomicStates nestedParallel = .ofList [4, 8] → d = nestedStart) ∧
      ofAtomic nestedParallel (.ofList [4, 8]) = nestedStart := by
  have hatomic : nestedStart.atomicStates nestedParallel = .ofList [4, 8] := by decide +kernel
  have hdetermined :=
    determined_by_atomicStates validated_nestedParallel (c := nestedStart) (by decide +kernel)
  rw [hatomic] at hdetermined
  exact ⟨hatomic, hdetermined.2, by decide +kernel⟩

end Statechart.Configuration
