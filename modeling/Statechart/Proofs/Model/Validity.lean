import Statechart.Proofs.Model.Ancestry

/-!
# Validated models

`Model.Validated` are the models that additions make and `Model.validate` accepts: the models an
engine takes.  The checks are turned into facts about the tree.

* `WellFormed.areOrthogonal_iff`: orthogonal states lie in different regions of a parallel state;
* `Model.Fitting`: states that can be active together below a node;
* `Validated.fitting_resolvedTargets`: the targets of a transition are of this kind;
* `Validated.defaultTargets_spec`: so is what a node with child states enters by default, and it is
  not nothing.
-/

namespace Statechart.Model

/-- A model that additions make and that is valid. -/
structure Validated (m : Model) : Prop where
  built : m.Built
  valid : m.validate = .ok ()

/-- States below a node that can be active together: two of them lie in different regions of a
parallel state. -/
structure Fitting (m : Model) (i : Nat) (required : List Nat) : Prop where
  isState {r : Nat} : r ∈ required → m.isState r
  isBelow {r : Nat} : r ∈ required → m.isBelow r i
  orthogonal : required.Pairwise fun a b => m.areOrthogonal a b

variable {m : Model} {i a b p : Nat}

theorem Fitting.nil (m : Model) (i : Nat) : m.Fitting i [] where
  isState h := by cases h
  isBelow h := by cases h
  orthogonal := .nil

namespace WellFormed

/-- Orthogonal states lie in different regions of a parallel state. -/
theorem areOrthogonal_iff (hm : m.WellFormed) :
    m.areOrthogonal a b ↔ ∃ p c d, m.isParallel p ∧ m.parent? c = some p ∧
      m.parent? d = some p ∧ c ≠ d ∧ m.Within a c ∧ m.Within b d := by
  simp only [areOrthogonal, Bool.and_eq_true, Bool.not_eq_true', decide_eq_true_eq,
    Option.any_eq_true, hm.find?_ancestors_eq_some_iff]
  constructor
  · rintro ⟨⟨⟨hne, hab⟩, hba⟩, p, ⟨hap, hbp, hnear⟩, hp⟩
    obtain ⟨c, hc, hac⟩ := hm.exists_child_within hap
    obtain ⟨d, hd, hbd⟩ := hm.exists_child_within hbp
    refine ⟨p, c, d, hp, hc, hd, ?_, hac, hbd⟩
    rintro rfl
    -- If both went down through one child, that child would be a nearer node above both.
    rcases hac with rfl | hac
    · rcases hbd with rfl | hbd
      · exact hne rfl
      · rw [hba] at hbd
        cases hbd
    · rcases hbd with rfl | hbd
      · rw [hab] at hac
        cases hac
      · exact hnear c hac (hm.isBelow_of_parent hc) hbd
  · rintro ⟨p, c, d, hp, hc, hd, hcd, hac, hbd⟩
    have apart : ∀ {x}, m.Within a x → m.Within b x → ¬ m.isBelow x p :=
      hm.not_isBelow_of_diverge hc hd hcd hac hbd
    have hap := hm.isBelow_of_child hc hac
    have hbp := hm.isBelow_of_child hd hbd
    refine ⟨⟨⟨?_, ?_⟩, ?_⟩, p, ⟨hap, hbp, fun x hax hxp hbx => ?_⟩, hp⟩
    · rintro rfl
      exact apart (.refl a) (.refl a) hap
    · exact Bool.eq_false_iff.2 fun hab => apart (.inr hab) (.refl b) hbp
    · exact Bool.eq_false_iff.2 fun hba => apart (.refl a) (.inr hba) hap
    · exact apart (.inr hax) (.inr hbx) hxp

theorem areOrthogonal_symm (hm : m.WellFormed) (h : m.areOrthogonal a b) :
    m.areOrthogonal b a := by
  obtain ⟨p, c, d, hp, hc, hd, hcd, hac, hbd⟩ := hm.areOrthogonal_iff.1 h
  exact hm.areOrthogonal_iff.2 ⟨p, d, c, hp, hd, hc, hcd.symm, hbd, hac⟩

theorem isState_of_getTarget? (hm : m.WellFormed) {id : String} (h : m.getTarget? id = some i) :
    m.isState i := by
  rw [getTarget?, List.lookup_eq_some_iff] at h
  obtain ⟨l₁, l₂, hl, -⟩ := h
  exact hm.isState_of_mem (hl ▸ List.mem_append_right l₁ (List.mem_cons_self ..))

theorem isState_of_resolved (hm : m.WellFormed) {t s : Nat} (h : s ∈ m.resolvedTargets t) :
    m.isState s := by
  unfold resolvedTargets at h
  split at h
  · obtain ⟨id, -, hid⟩ := List.mem_filterMap.1 h
    exact hm.isState_of_getTarget? hid
  · cases h

end WellFormed

theorem hasKind_isTransition_of {t : Nat} {tr : Transition} (h : m.transition? t = some tr) :
    m.hasKind Kind.isTransition t := by
  obtain ⟨k, hk, ht⟩ := Option.bind_eq_some_iff.1 h
  refine hasKind_iff.2 ⟨k, hk, ?_⟩
  cases k <;> simp_all [Kind.transition?, Kind.isTransition]

theorem notOrthogonal?_eq_none {l : List Nat} (h : m.notOrthogonal? l = none) :
    l.Pairwise fun a b => m.areOrthogonal a b := by
  induction l with
  | nil => exact .nil
  | cons a rest ih =>
    rw [notOrthogonal?] at h
    split at h
    · cases h
    · next hf =>
      rw [List.find?_eq_none] at hf
      exact List.pairwise_cons.2 ⟨fun b hb => by simpa using hf b hb, ih h⟩

namespace Validated

theorem wellFormed (hv : m.Validated) : m.WellFormed := hv.built.wellFormed

/-! ### The checks, one by one -/

theorem checks (hv : m.Validated) : m.root? = some 0 ∧ m.checkTargets = .ok () ∧
    m.childStates 0 ≠ [] ∧ m.firstFault? = none := by
  have h := hv.valid
  unfold validate at h
  split at h
  · cases h
  · next root hr =>
    obtain rfl : root = 0 := (hv.wellFormed.root?_eq_some_iff.1 hr).1
    split at h
    · cases h
    · next ht =>
      split at h
      · cases h
      · next hc =>
        split at h
        · cases h
        · next hf => exact ⟨hr, ht, by simpa using hc, hf⟩

theorem size_pos (hv : m.Validated) : 0 < m.size :=
  (hv.wellFormed.root?_eq_some_iff.1 hv.checks.1).2

theorem isRoot_iff (hv : m.Validated) : m.isRoot i ↔ i = 0 := by
  rw [Model.isRoot_iff hv.wellFormed]
  exact ⟨And.left, fun h => ⟨h, hv.size_pos⟩⟩

theorem nodeFault?_eq_none (hv : m.Validated) {k : Kind} (hk : m.kind? i = some k) :
    m.nodeFault? i k = none := by
  have h := hv.checks.2.2.2
  rw [firstFault?, List.findSome?_eq_none_iff] at h
  simpa [hk] using h i (List.mem_range.2 (lt_size_of_kind? hk))

/-- A transition leads to each target that it names. -/
theorem exists_target (hv : m.Validated) {t : Nat} {tr : Transition}
    (ht : m.transition? t = some tr) {id : String} (hid : id ∈ tr.targets) :
    ∃ s, m.getTarget? id = some s := by
  have h := hv.checks.2.1
  unfold checkTargets at h
  split at h
  · cases h
  · next hf =>
    have hmem := hv.wellFormed.mem_transitions (hasKind_isTransition_of ht)
    have hnone := List.findSome?_eq_none_iff.1 hf t hmem
    simp only [Option.map_eq_none_iff, unresolvedTarget?, ht, List.find?_eq_none] at hnone
    exact Option.ne_none_iff_exists'.1 (by simpa using hnone id hid)

theorem resolvedTargets_ne_nil (hv : m.Validated) {t : Nat} {tr : Transition}
    (ht : m.transition? t = some tr) (hne : tr.targets ≠ []) : m.resolvedTargets t ≠ [] := by
  obtain ⟨id, hid⟩ := List.exists_mem_of_ne_nil _ hne
  obtain ⟨s, hs⟩ := hv.exists_target ht hid
  have hmem : s ∈ m.resolvedTargets t := by
    simp only [resolvedTargets, ht]
    exact List.mem_filterMap.2 ⟨id, hid, hs⟩
  exact List.ne_nil_of_mem hmem

/-- Two targets of a transition are orthogonal. -/
theorem orthogonal_resolvedTargets (hv : m.Validated) (t : Nat) :
    (m.resolvedTargets t).Pairwise fun a b => m.areOrthogonal a b := by
  cases ht : m.transition? t with
  | none => simp [resolvedTargets, ht]
  | some tr =>
    by_cases hlen : 1 < tr.targets.length
    · obtain ⟨k, hk, hkt⟩ := Option.bind_eq_some_iff.1 ht
      have hkind : k = .transition tr := by
        cases k <;> simp_all [Kind.transition?]
      subst hkind
      have h := hv.nodeFault?_eq_none hk
      simp only [nodeFault?, attributeFault?, Kind.initialAttribute?, if_pos hlen,
        Option.map_eq_none_iff] at h
      exact notOrthogonal?_eq_none h
    · -- At most one target is named, so at most one is resolved.
      have hle : (m.resolvedTargets t).length ≤ 1 := by
        simp only [resolvedTargets, ht]
        exact Nat.le_trans (List.length_filterMap_le ..) (by omega)
      obtain hr | ⟨s, hr⟩ := Nat.le_one_iff_eq_zero_or_eq_one.1 hle |>.imp
        List.length_eq_zero_iff.1 List.length_eq_one_iff.1
      · exact hr ▸ .nil
      · exact hr ▸ List.pairwise_singleton ..

/-- An `initial` attribute names a child. -/
theorem exists_child_of_attribute (hv : m.Validated) {k : Kind} (hk : m.kind? i = some k)
    {id : String} (hid : k.initialAttribute? = some id) :
    ∃ c, m.getTarget? id = some c ∧ m.parent? c = some i := by
  have hf := hv.nodeFault?_eq_none hk
  unfold nodeFault? at hf
  split at hf
  · cases hf
  · next ha =>
    simp only [attributeFault?, hid] at ha
    split at ha
    · next h => simpa [Option.any_eq_true] using h
    · cases ha

/-- An initial element has a transition, whose targets lie below the element's owner. -/
theorem exists_initial_transition (hv : m.Validated) {e owner : Nat}
    (he : m.hasKind Kind.isInitial e) (ho : m.parent? e = some owner) :
    ∃ t, (m.transitionsOf e).head? = some t ∧
      ∀ s ∈ m.resolvedTargets t, m.isBelow s owner := by
  obtain ⟨k, hk, hi⟩ := hasKind_iff.1 he
  have hf := hv.nodeFault?_eq_none hk
  cases k <;> simp_all [Kind.isInitial]
  simp only [nodeFault?, attributeFault?, Kind.initialAttribute?, initialFault?, ho,
    Option.getD_some] at hf
  split at hf
  · cases hf
  · next t ht =>
    simp only [Option.map_eq_none_iff, List.find?_eq_none] at hf
    exact ⟨t, ht, fun s hs => by simpa using hf s hs⟩

/-! ### What is entered together -/

/-- The targets of a transition can be active together below any node that is above them all. -/
theorem fitting_resolvedTargets (hv : m.Validated) {t : Nat}
    (h : ∀ s ∈ m.resolvedTargets t, m.isBelow s i) : m.Fitting i (m.resolvedTargets t) where
  isState := hv.wellFormed.isState_of_resolved
  isBelow := h _
  orthogonal := hv.orthogonal_resolvedTargets t

theorem fitting_singleton {s : Nat} (hs : m.isState s) (h : m.isBelow s i) : m.Fitting i [s] where
  isState hr := by rwa [List.mem_singleton.1 hr]
  isBelow hr := by rwa [List.mem_singleton.1 hr]
  orthogonal := List.pairwise_singleton ..

/-- What a node with child states enters by default can be active together, and is not nothing. -/
theorem defaultTargets_spec (hv : m.Validated) (hc : m.childStates i ≠ []) :
    m.Fitting i (m.defaultTargets i) ∧ m.defaultTargets i ≠ [] := by
  have hm := hv.wellFormed
  unfold defaultTargets
  split
  · next t ht =>
    obtain ⟨e, he, hte⟩ := Option.bind_eq_some_iff.1 ht
    obtain ⟨hpe, hie⟩ := hm.mem_childrenOfKind.1 (List.mem_of_mem_head? he)
    obtain ⟨t', ht', hbelow⟩ := hv.exists_initial_transition hie hpe
    rw [hte] at ht'
    cases ht'
    obtain ⟨hpt, hkt⟩ := hm.mem_childrenOfKind.1 (List.mem_of_mem_head? hte)
    obtain ⟨k, hk, htr⟩ := hasKind_iff.1 hkt
    obtain ⟨tr, rfl⟩ : ∃ tr, k = .transition tr := by
      cases k <;> simp_all [Kind.isTransition]
    have htr : m.transition? t = some tr := by simp [transition?, hk, Kind.transition?]
    exact ⟨hv.fitting_resolvedTargets hbelow,
      hv.resolvedTargets_ne_nil htr (hm.initial_target hpt hie htr)⟩
  · split
    · next child hchild =>
      obtain ⟨id, hid, htarget⟩ := Option.bind_eq_some_iff.1 hchild
      obtain ⟨k, hk, hattr⟩ := Option.bind_eq_some_iff.1 hid
      obtain ⟨c, hc', hpc⟩ := hv.exists_child_of_attribute hk hattr
      rw [htarget] at hc'
      cases hc'
      exact ⟨fitting_singleton (hm.isState_of_getTarget? htarget) (hm.isBelow_of_parent hpc),
        by simp⟩
    · cases hl : m.childStates i with
      | nil => exact absurd hl hc
      | cons c rest =>
        obtain ⟨hpc, hsc⟩ := hm.mem_childStates.1 (hl ▸ List.mem_cons_self ..)
        exact ⟨fitting_singleton hsc (hm.isBelow_of_parent hpc), by simp⟩

end Validated

/-! ### A nested parallel state -/

/-- The parallel state `p` with one region `q`, which is parallel itself, with the regions `r` and
`s`.  On `go` the states `a` and `b` give way to the final states `f` and `g`; so would `p`. -/
def nestedParallel : Model where
  nodes := #[
    ⟨none, .scxml none, none, [1]⟩,
    ⟨some "p", .parallel, some 0, [2, 11]⟩,
    ⟨some "q", .parallel, some 1, [3, 7]⟩,
    ⟨some "r", .state none, some 2, [4, 6]⟩,
    ⟨some "a", .state none, some 3, [5]⟩,
    ⟨none, .transition ⟨[⟨"go"⟩], none, ["f"], .external⟩, some 4, []⟩,
    ⟨some "f", .final, some 3, []⟩,
    ⟨some "s", .state none, some 2, [8, 10]⟩,
    ⟨some "b", .state none, some 7, [9]⟩,
    ⟨none, .transition ⟨[⟨"go"⟩], none, ["g"], .external⟩, some 8, []⟩,
    ⟨some "g", .final, some 7, []⟩,
    ⟨none, .transition ⟨[⟨"go"⟩], none, ["f"], .external⟩, some 1, []⟩]
  root? := some 0
  index := [("p", 1), ("q", 2), ("r", 3), ("a", 4), ("f", 6), ("s", 7), ("b", 8), ("g", 10)]
  transitions := [5, 9, 11]

/-- It is what adding its nodes one by one makes. -/
theorem addAll?_nestedParallel :
    empty.addAll? (nestedParallel.nodes.toList.map fun n => (⟨n.id, n.kind⟩, n.parent)) =
      some nestedParallel := by decide +kernel

theorem validated_nestedParallel : nestedParallel.Validated where
  built := Built.empty.addAll? addAll?_nestedParallel
  valid := by decide +kernel

end Statechart.Model
