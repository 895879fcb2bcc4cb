import Statechart.Proofs.Configuration.Taking
import Statechart.Proofs.Model.Shape

/-!
# Below which node a transition acts

* `Model.StaysInside`: a transition that does not leave its source, as it is internal, its source is
  compound and all its targets lie below the source;
* `domain?_of_staysInside`, `domain?_of_not_staysInside`: the domain of such a transition is its
  source, and that of another the least common compound ancestor of its source and its targets;
* `SameShape.exitSet`, `SameShape.entrySet`, `SameShape.take`, `SameShape.legal`: in models of one
  shape, transitions leave and enter the same states, and the same configurations are legal;
* `Configuration.domains_decided`: least common compound ancestors and domains told without the search
  for them, with what follows for the states that are left and entered.
-/

namespace Statechart

namespace Model

/-- An internal transition of a compound state all of whose targets lie below that state. -/
structure StaysInside (m : Model) (t s : Nat) : Prop where
  internal : ∃ tr, m.transition? t = some tr ∧ tr.type = .internal
  isCompound : m.isCompound s
  isBelow {r : Nat} : r ∈ m.resolvedTargets t → m.isBelow r s

variable {m m' : Model} {t s d : Nat} {tr : Transition}

theorem domain?_of_staysInside (hs : m.source? t = some s) (hne : m.resolvedTargets t ≠ [])
    (h : m.StaysInside t s) : m.domain? t = some s := by
  obtain ⟨tr, htr, hinternal⟩ := h.internal
  rw [domain?_eq, htr, hs]
  dsimp only
  rw [if_neg hne, if_pos ⟨hinternal, h.isCompound, fun _ => h.isBelow⟩]

theorem domain?_of_not_staysInside (htr : m.transition? t = some tr) (hs : m.source? t = some s)
    (hne : m.resolvedTargets t ≠ []) (h : ¬ m.StaysInside t s) :
    m.domain? t = m.lcca (s :: m.resolvedTargets t) := by
  rw [domain?_eq, htr, hs]
  dsimp only
  rw [if_neg hne, if_neg]
  rintro ⟨hinternal, hcompound, hbelow⟩
  exact h ⟨⟨tr, htr, hinternal⟩, hcompound, hbelow _⟩

/-- The source lies below the domain of a transition that does not stay inside of it. -/
theorem WellFormed.isBelow_domain_iff (hm : m.WellFormed) (htr : m.transition? t = some tr)
    (hs : m.source? t = some s) (hne : m.resolvedTargets t ≠ []) (hd : m.domain? t = some d) :
    m.isBelow s d ↔ ¬ m.StaysInside t s := by
  constructor
  · intro hbelow hinside
    rw [domain?_of_staysInside hs hne hinside] at hd
    cases hd
    exact hm.not_isBelow_self hbelow
  · intro houtside
    rw [domain?_of_not_staysInside htr hs hne houtside] at hd
    exact (hm.lcca_eq_some_iff.1 hd).1

/-- The source itself is the domain of a transition exactly if the transition stays inside of it. -/
theorem WellFormed.domain_eq_source_iff (hm : m.WellFormed) (htr : m.transition? t = some tr)
    (hs : m.source? t = some s) (hne : m.resolvedTargets t ≠ []) (hd : m.domain? t = some d) :
    d = s ↔ m.StaysInside t s := by
  constructor
  · rintro rfl
    by_contra houtside
    exact hm.not_isBelow_self ((hm.isBelow_domain_iff htr hs hne hd).2 houtside)
  · intro hinside
    rw [domain?_of_staysInside hs hne hinside] at hd
    cases hd
    rfl

/-- Every target that a transition names is a state below its domain. -/
theorem Validated.isBelow_domain_of_target (hv : m.Validated) (htr : m.transition? t = some tr)
    (hd : m.domain? t = some d) {id : String} (hid : id ∈ tr.targets) :
    ∃ r, m.getTarget? id = some r ∧ m.isBelow r d := by
  obtain ⟨r, hr⟩ := hv.exists_target htr hid
  obtain ⟨-, -, -, hfitting⟩ := hv.domain?_spec hd
  refine ⟨r, hr, hfitting.isBelow ?_⟩
  rw [resolvedTargets, htr]
  exact List.mem_filterMap.2 ⟨id, hid, hr⟩

namespace SameShape

theorem exitsOf (h : m.SameShape m') (hm : m.WellFormed) (c : Configuration) (t : Nat) :
    c.exitsOf m' t = c.exitsOf m t := by
  simp only [Configuration.exitsOf, h.domain? hm, h.isBelow]

/-- Transitions leave the same states in both models. -/
theorem exitSet (h : m.SameShape m') (hm : m.WellFormed) (c : Configuration) (ts : List Nat) :
    c.exitSet m' ts = c.exitSet m ts := by
  simp only [Configuration.exitSet, h.exitsOf hm]

theorem entriesOf (h : m.SameShape m') (hm : m.WellFormed) (t : Nat) :
    m'.entriesOf t = m.entriesOf t := by
  have hsame : ∀ r, r ∈ m'.resolvedTargets t ↔ r ∈ m.resolvedTargets t :=
    fun _ => (h.resolvedTargets_perm t).mem_iff
  simp only [Model.entriesOf, h.domain? hm, h.enterClosure hm hsame]

/-- Transitions enter the same states in both models. -/
theorem entrySet (h : m.SameShape m') (hm : m.WellFormed) (ts : List Nat) :
    m'.entrySet ts = m.entrySet ts := by
  simp only [Model.entrySet, h.entriesOf hm]

theorem take (h : m.SameShape m') (hm : m.WellFormed) (c : Configuration) (ts : List Nat) :
    c.take m' ts = c.take m ts := by
  rw [Configuration.take, Configuration.take, h.exitSet hm, h.entrySet hm]

theorem legal (h : m.SameShape m') {c : Configuration} (hc : c.Legal m) : c.Legal m' where
  isState hs := by
    rw [h.isState]
    exact hc.isState hs
  active_parent hs hp := by
    rw [h.parent?] at hp
    exact hc.active_parent hs hp
  filledAt hi := by
    rw [FilledAt, h.childStates, h.isParallel]
    exact hc.filledAt hi

end SameShape

/-! ### A chart with a fork -/

/-- On `fork` the state `off` gives way to the parallel state `p`, in whose regions `a` and `b` the
second states become active.  On `on` the region `a` goes on without being left. -/
def forking : Model where
  nodes := #[
    ⟨none, .scxml none, none, [1, 3]⟩,
    ⟨some "off", .state none, some 0, [2]⟩,
    ⟨none, .transition ⟨[⟨"fork"⟩], none, ["a2", "b2"], .external⟩, some 1, []⟩,
    ⟨some "p", .parallel, some 0, [4, 8]⟩,
    ⟨some "a", .state none, some 3, [5, 6, 7]⟩,
    ⟨none, .transition ⟨[⟨"on"⟩], none, ["a2"], .internal⟩, some 4, []⟩,
    ⟨some "a1", .state none, some 4, []⟩,
    ⟨some "a2", .state none, some 4, []⟩,
    ⟨some "b", .state none, some 3, [9, 10]⟩,
    ⟨some "b1", .state none, some 8, []⟩,
    ⟨some "b2", .state none, some 8, []⟩]
  root? := some 0
  index := [("off", 1), ("p", 3), ("a", 4), ("a1", 6), ("a2", 7), ("b", 8), ("b1", 9), ("b2", 10)]
  transitions := [2, 5]

theorem addAll?_forking :
    empty.addAll? (forking.nodes.toList.map fun n => (⟨n.id, n.kind⟩, n.parent)) =
      some forking := by decide +kernel

theorem validated_forking : forking.Validated where
  built := Built.empty.addAll? addAll?_forking
  valid := by decide +kernel

end Model

namespace Configuration

open Model

/-- The least common compound ancestor of some states is the deepest node that is compound or the root
and lies above all of them; any states have one, and neither their order nor repetitions matter to it.
A transition of a state that has targets has a domain, which is not parallel and lies above all
targets: the source exactly if the transition stays inside of it, and otherwise the least common
compound ancestor of the source and the targets.  So an active source is left unless the transition
stays inside of it, and domains and the states that are left and entered do not depend on the order in
which targets are written. -/
theorem domains_decided {m : Model} (hv : m.Validated) :
    (∀ states d, m.lcca states = some d ↔
      states ≠ [] ∧ m.Encloses d states ∧ ∀ b, m.Encloses b states → m.Within d b) ∧
    (∀ states, states ≠ [] → (∀ s ∈ states, m.isState s) → ∃ d, m.lcca states = some d) ∧
    (∀ states other, (∀ s, s ∈ other ↔ s ∈ states) → m.lcca other = m.lcca states) ∧
    (∀ t tr s, m.transition? t = some tr → tr.targets ≠ [] → m.source? t = some s → m.isState s →
      ∃ d, m.domain? t = some d ∧ ¬ m.isParallel d ∧
        (∀ id ∈ tr.targets, ∃ r, m.getTarget? id = some r ∧ m.isBelow r d) ∧
        (d = s ↔ m.StaysInside t s) ∧
        (¬ m.StaysInside t s → m.lcca (s :: m.resolvedTargets t) = some d) ∧
        ∀ c : Configuration, s ∈ c.states → (s ∈ c.exitSet m [t] ↔ ¬ m.StaysInside t s)) ∧
    (∀ t tr targets, m.transition? t = some tr → targets.Perm tr.targets →
      (∀ u, (m.withTargets t targets).domain? u = m.domain? u) ∧
      (∀ (c : Configuration) ts, c.exitSet (m.withTargets t targets) ts = c.exitSet m ts) ∧
      ∀ ts, (m.withTargets t targets).entrySet ts = m.entrySet ts) := by
  have hm := hv.wellFormed
  refine ⟨fun _ _ => hm.lcca_eq_some_iff_encloses, ?_, fun _ _ => hm.lcca_congr, ?_, ?_⟩
  · intro states hne hstates
    obtain ⟨first, rest, rfl⟩ := List.exists_cons_of_ne_nil hne
    exact hv.exists_lcca (hstates first (by simp)) fun s hs => hstates s (by simp [hs])
  · intro t tr s htr htargets hs hstate
    have hne := hv.resolvedTargets_ne_nil htr htargets
    obtain ⟨d, hd⟩ := hv.exists_domain hs hstate hne
    obtain ⟨-, hparallel, -⟩ := hv.domain?_spec hd
    refine ⟨d, hd, hparallel, fun id => hv.isBelow_domain_of_target htr hd,
      hm.domain_eq_source_iff htr hs hne hd, ?_, ?_⟩
    · intro houtside
      rw [← domain?_of_not_staysInside htr hs hne houtside, hd]
    · -- An active source is left exactly if it lies below the domain.
      intro c hsc
      simp only [mem_exitSet, List.mem_singleton, exists_eq_left, mem_exitsOf, hd,
        Option.some.injEq, exists_eq_left', hsc, true_and]
      exact hm.isBelow_domain_iff htr hs hne hd
  · intro t tr targets htr hperm
    have hshape := sameShape_withTargets htr hperm
    exact ⟨hshape.domain? hm, hshape.exitSet hm, hshape.entrySet hm⟩

/-- In the chart with a fork, the region `a` is not left on `on`, the state `off` is left on `fork`,
and it makes no difference in which order `fork` names its targets. -/
theorem domains_decided_forking :
    forking.Validated ∧
      (4 : Nat) ∉ (⟨.ofList [3, 4, 6, 8, 9]⟩ : Configuration).exitSet forking [5] ∧
      (1 : Nat) ∈ (⟨.ofList [1]⟩ : Configuration).exitSet forking [2] ∧
      (forking.withTargets 2 ["b2", "a2"]).entrySet [2] = forking.entrySet [2] := by
  obtain ⟨-, -, -, htransition, horder⟩ := domains_decided validated_forking
  have h2 : forking.transition? 2 = some ⟨[⟨"fork"⟩], none, ["a2", "b2"], .external⟩ := rfl
  have h5 : forking.transition? 5 = some ⟨[⟨"on"⟩], none, ["a2"], .internal⟩ := rfl
  refine ⟨validated_forking, ?_, ?_, (horder 2 _ ["b2", "a2"] h2 (by decide)).2.2 [2]⟩
  · obtain ⟨d, -, -, -, -, -, hleft⟩ := htransition 5 _ 4 h5 (by decide) rfl (by decide +kernel)
    rw [hleft _ (by decide), not_not]
    refine ⟨⟨_, h5, rfl⟩, by decide +kernel, fun {r} hr => ?_⟩
    have htargets : forking.resolvedTargets 5 = [7] := by decide +kernel
    rw [htargets, List.mem_singleton] at hr
    exact hr ▸ by decide +kernel
  · obtain ⟨d, -, -, -, -, -, hleft⟩ := htransition 2 _ 1 h2 (by decide) rfl (by decide +kernel)
    rw [hleft _ (by decide)]
    rintro ⟨⟨tr, htr, hinternal⟩, -, -⟩
    cases h2.symm.trans htr
    cases hinternal

end Configuration

end Statechart
