import Statechart.Proofs.Model.Closure

/-!
# Domains of transitions

* `Encloses`: a node that is compound or the root lies above all given states;
* `WellFormed.lcca_eq_some_iff`, `WellFormed.lcca_eq_some_iff_encloses`: the least common compound
  ancestor is the nearest node above the first state that encloses all of them, and so the deepest
  node that does; `WellFormed.lcca_congr`: the order of the states and repetitions do not matter;
* `domain?_eq`: the domain of a transition is its source, or the least common compound ancestor of its
  source and its targets;
* `Validated.domain?_spec`: the domain of a transition is its source or above it, above all targets,
  and not parallel;
* `Validated.exists_domain`: every transition of a state that has targets has a domain.
-/

namespace Statechart.Model

/-- A node that is compound or the root and lies properly above all given states. -/
def Encloses (m : Model) (d : Nat) (states : List Nat) : Prop :=
  (m.isCompound d ∨ m.isRoot d) ∧ ∀ s ∈ states, m.isBelow s d

variable {m : Model} {t d source : Nat} {states other : List Nat}

theorem isState_of_isCompound {i : Nat} (h : m.isCompound i) : m.isState i := by
  rw [isCompound, Bool.and_eq_true] at h
  obtain ⟨k, hk, hs⟩ := hasKind_iff.1 h.1
  refine hasKind_iff.2 ⟨k, hk, ?_⟩
  cases k <;> simp_all [Kind.isSequential, Kind.isState]

theorem not_isParallel_of_isCompound {i : Nat} (h : m.isCompound i) : ¬ m.isParallel i := by
  rw [isCompound, Bool.and_eq_true] at h
  obtain ⟨k, hk, hs⟩ := hasKind_iff.1 h.1
  rw [isParallel, hasKind_iff]
  rintro ⟨k', hk', hp⟩
  rw [hk] at hk'
  cases hk'
  cases k <;> simp_all [Kind.isSequential, Kind.isParallel]

/-- Neither the root nor a compound state is parallel. -/
theorem WellFormed.not_isParallel_zero (hm : m.WellFormed) : ¬ m.isParallel 0 := fun h => by
  obtain ⟨k, hk, hp⟩ := hasKind_iff.1 h
  have hr := (hm.isRoot_iff hk).2 rfl
  cases k <;> simp_all [Kind.isParallel, Kind.isRoot]

theorem WellFormed.lcca_eq_some_iff (hm : m.WellFormed) {first : Nat} {rest : List Nat} :
    m.lcca (first :: rest) = some d ↔
      m.isBelow first d ∧ ((m.isCompound d ∨ m.isRoot d) ∧ ∀ s ∈ rest, m.isBelow s d) ∧
        ∀ b, m.isBelow first b → m.isBelow b d →
          ¬ ((m.isCompound b ∨ m.isRoot b) ∧ ∀ s ∈ rest, m.isBelow s b) := by
  simp only [lcca, hm.find?_ancestors_eq_some_iff, Bool.and_eq_true, Bool.or_eq_true,
    List.all_eq_true]

/-- The least common compound ancestor of some states is the deepest node that encloses them: all
others that do are above it. -/
theorem WellFormed.lcca_eq_some_iff_encloses (hm : m.WellFormed) :
    m.lcca states = some d ↔
      states ≠ [] ∧ m.Encloses d states ∧ ∀ b, m.Encloses b states → m.Within d b := by
  cases states with
  | nil => simp [lcca]
  | cons first rest =>
    rw [hm.lcca_eq_some_iff]
    constructor
    · rintro ⟨hfirst, ⟨hkind, hrest⟩, hdeepest⟩
      refine ⟨by simp, ⟨hkind, by simpa using ⟨hfirst, hrest⟩⟩, ?_⟩
      rintro b ⟨hbkind, hb⟩
      have hbfirst : m.isBelow first b := hb first (by simp)
      -- Both are above the first state, and the one found is not above the other.
      rcases hm.isBelow_comparable hfirst hbfirst with hwithin | rfl | hbelow
      · exact hwithin
      · exact .refl b
      · exact absurd ⟨hbkind, fun s hs => hb s (List.mem_cons_of_mem first hs)⟩
          (hdeepest b hbfirst hbelow)
    · rintro ⟨-, ⟨hkind, habove⟩, hdeepest⟩
      refine ⟨habove first (by simp), ⟨hkind, fun s hs => habove s (by simp [hs])⟩, ?_⟩
      rintro b hbfirst hbelow ⟨hbkind, hb⟩
      have hwithin : m.Within d b := by
        refine hdeepest b ⟨hbkind, fun s hs => ?_⟩
        rcases List.mem_cons.1 hs with rfl | hs
        · exact hbfirst
        · exact hb s hs
      exact hm.not_isBelow_self (hm.isBelow_of_within hwithin hbelow)

/-- Which states there are decides their least common compound ancestor. -/
theorem WellFormed.lcca_congr (hm : m.WellFormed) (hsame : ∀ s, s ∈ other ↔ s ∈ states) :
    m.lcca other = m.lcca states := by
  have hencloses : ∀ b, m.Encloses b other ↔ m.Encloses b states := by
    simp only [Encloses, hsame, implies_true]
  have hnil : other = [] ↔ states = [] := by
    simp only [List.eq_nil_iff_forall_not_mem, hsame]
  refine Option.ext fun d => ?_
  simp only [hm.lcca_eq_some_iff_encloses, hencloses, ne_eq, hnil]

/-- The domain of a transition with targets is its source if the transition stays inside of it, and
otherwise the least common compound ancestor of its source and its targets. -/
theorem domain?_eq (m : Model) (t : Nat) :
    m.domain? t = match m.transition? t, m.source? t with
      | some tr, some s =>
        if m.resolvedTargets t = [] then none
        else if tr.type = .internal ∧ m.isCompound s ∧ ∀ r ∈ m.resolvedTargets t, m.isBelow r s then
          some s
        else m.lcca (s :: m.resolvedTargets t)
      | _, _ => none := by
  unfold domain?
  cases m.transition? t with
  | none => rfl
  | some tr =>
    cases m.source? t with
    | none => cases m.resolvedTargets t <;> rfl
    | some s =>
      cases m.resolvedTargets t with
      | nil => rfl
      | cons r rest =>
        simp only [reduceCtorEq, if_false, Bool.and_eq_true, decide_eq_true_eq, List.all_eq_true,
          and_assoc]

namespace Validated

theorem not_isParallel_of_isCompound_or_isRoot (hv : m.Validated) (h : m.isCompound d ∨ m.isRoot d) :
    ¬ m.isParallel d := by
  rcases h with h | h
  · exact not_isParallel_of_isCompound h
  · rw [hv.isRoot_iff] at h
    exact h ▸ hv.wellFormed.not_isParallel_zero

/-- What the domain of a transition is. -/
theorem domain?_spec (hv : m.Validated) (h : m.domain? t = some d) :
    (∃ source, m.source? t = some source ∧ m.Within source d) ∧ ¬ m.isParallel d ∧
      m.resolvedTargets t ≠ [] ∧ m.Fitting d (m.resolvedTargets t) := by
  have hm := hv.wellFormed
  unfold domain? at h
  split at h
  · next tr target targets source htr htargets hsource =>
    have hne : m.resolvedTargets t ≠ [] := by simp [htargets]
    split at h
    · next hinternal =>
      cases h
      simp only [Bool.and_eq_true, List.all_eq_true, ← htargets] at hinternal
      obtain ⟨⟨-, hcompound⟩, hbelow⟩ := hinternal
      exact ⟨⟨d, hsource, .refl d⟩, not_isParallel_of_isCompound hcompound, hne,
        hv.fitting_resolvedTargets hbelow⟩
    · obtain ⟨hsource', ⟨hd, hbelow⟩, -⟩ := hm.lcca_eq_some_iff.1 h
      rw [← htargets] at hbelow
      exact ⟨⟨source, hsource, .inr hsource'⟩, hv.not_isParallel_of_isCompound_or_isRoot hd, hne,
        hv.fitting_resolvedTargets hbelow⟩
  · cases h

theorem within_domain (hv : m.Validated) (hd : m.domain? t = some d)
    (hsource : m.source? t = some source) : m.Within source d := by
  obtain ⟨⟨source', hsource', hwithin⟩, -⟩ := hv.domain?_spec hd
  cases hsource.symm.trans hsource'
  exact hwithin

/-- States have a least common compound ancestor: the root is above all of them. -/
theorem exists_lcca (hv : m.Validated) {first : Nat} {rest : List Nat} (hf : m.isState first)
    (hr : ∀ s ∈ rest, m.isState s) : ∃ d, m.lcca (first :: rest) = some d := by
  have hm := hv.wellFormed
  rw [← Option.isSome_iff_exists, lcca, List.find?_isSome]
  refine ⟨0, by simpa [isBelow] using hm.state_isBelow_zero hf, ?_⟩
  simp only [Bool.and_eq_true, Bool.or_eq_true, List.all_eq_true]
  exact ⟨.inr (hv.isRoot_iff.2 rfl), fun s hs => hm.state_isBelow_zero (hr s hs)⟩

/-- A transition of a state has a domain unless it has no targets. -/
theorem exists_domain (hv : m.Validated) (hs : m.source? t = some source) (hstate : m.isState source)
    (hne : m.resolvedTargets t ≠ []) : ∃ d, m.domain? t = some d := by
  have hm := hv.wellFormed
  cases htr : m.transition? t with
  | none => simp [resolvedTargets, htr] at hne
  | some tr =>
    cases htargets : m.resolvedTargets t with
    | nil => exact absurd htargets hne
    | cons target targets =>
      simp only [domain?, htr, htargets, hs]
      split
      · exact ⟨source, rfl⟩
      · exact hv.exists_lcca hstate fun s hs => hm.isState_of_resolved (htargets ▸ hs)

end Validated

end Statechart.Model
