import Statechart.Proofs.Model.WellFormed

/-!
# Ancestry in a well-formed model

"Properly below" is a strict order in which the nodes above a node form a chain.  `Model.Within`
adds equality; the subtrees of two children of one node do not meet.

* `WellFormed.isBelow_iff`: one link up;
* `WellFormed.isBelow_trans`, `isBelow_comparable`, `exists_child_within`, `child_unique`;
* `WellFormed.find?_ancestors_eq_some_iff`: the nearest node above with a property;
* `WellFormed.isState_of_isBelow`: what lies above a state is the root or a state.
-/

namespace Statechart.Model

/-- `i` is `a` or lies below it. -/
def Within (m : Model) (i a : Nat) : Prop := i = a ∨ m.isBelow i a

/-- Neither node is the other or lies below it. -/
def Unrelated (m : Model) (a b : Nat) : Prop := ¬ m.Within a b ∧ ¬ m.Within b a

variable {m : Model} {i a b c p : Nat}

theorem isRoot_iff (hm : m.WellFormed) : m.isRoot i ↔ i = 0 ∧ 0 < m.size := by
  rw [isRoot, decide_eq_true_iff, hm.root?_eq_some_iff]

theorem isState_lt_size (h : m.isState i) : i < m.size := by
  obtain ⟨k, hk, -⟩ := hasKind_iff.1 h
  exact lt_size_of_kind? hk

theorem Within.refl (a : Nat) : m.Within a a := .inl rfl

theorem Unrelated.symm (h : m.Unrelated a b) : m.Unrelated b a := ⟨h.2, h.1⟩

namespace WellFormed

theorem ancestors_eq (hm : m.WellFormed) (i : Nat) :
    m.ancestors i = match m.parent? i with
      | none => []
      | some p => p :: m.ancestors p := by
  rw [ancestors]
  cases hp : m.parent? i with
  | none => rfl
  | some p => simp [hm.parent_lt hp]

theorem isBelow_iff (hm : m.WellFormed) :
    m.isBelow i a ↔ ∃ p, m.parent? i = some p ∧ m.Within p a := by
  unfold isBelow Within
  rw [hm.ancestors_eq]
  cases m.parent? i with
  | none => simp
  | some p =>
    simp only [List.contains_cons, Bool.or_eq_true, beq_iff_eq, Option.some.injEq, exists_eq_left']
    exact or_congr eq_comm Iff.rfl

theorem isBelow_of_parent (hm : m.WellFormed) (h : m.parent? i = some p) : m.isBelow i p :=
  hm.isBelow_iff.2 ⟨p, h, .refl p⟩

theorem within_parent (hm : m.WellFormed) (h : m.isBelow i a) (hp : m.parent? i = some p) :
    m.Within p a := by
  obtain ⟨q, hq, hqa⟩ := hm.isBelow_iff.1 h
  rw [hp] at hq
  cases hq
  exact hqa

theorem isBelow_lt (hm : m.WellFormed) (h : m.isBelow i a) : a < i := by
  induction i using Nat.strongRecOn with
  | ind i ih =>
    obtain ⟨p, hp, rfl | hpa⟩ := hm.isBelow_iff.1 h
    · exact hm.parent_lt hp
    · exact Nat.lt_trans (ih p (hm.parent_lt hp) hpa) (hm.parent_lt hp)

theorem not_isBelow_self (hm : m.WellFormed) : ¬ m.isBelow i i := fun h =>
  Nat.lt_irrefl i (hm.isBelow_lt h)

theorem isBelow_trans (hm : m.WellFormed) (h : m.isBelow i a) (h' : m.isBelow a b) :
    m.isBelow i b := by
  induction i using Nat.strongRecOn with
  | ind i ih =>
    obtain ⟨p, hp, rfl | hpa⟩ := hm.isBelow_iff.1 h
    · exact hm.isBelow_iff.2 ⟨p, hp, .inr h'⟩
    · exact hm.isBelow_iff.2 ⟨p, hp, .inr (ih p (hm.parent_lt hp) hpa)⟩

theorem isBelow_of_within (hm : m.WellFormed) (h : m.Within i a) (h' : m.isBelow a b) :
    m.isBelow i b := by
  rcases h with rfl | h
  · exact h'
  · exact hm.isBelow_trans h h'

theorem within_trans (hm : m.WellFormed) (h : m.Within i a) (h' : m.Within a b) :
    m.Within i b := by
  rcases h' with rfl | h'
  · exact h
  · exact .inr (hm.isBelow_of_within h h')

/-- The nodes above a node form a chain. -/
theorem isBelow_comparable (hm : m.WellFormed) (ha : m.isBelow i a) (hb : m.isBelow i b) :
    m.Within a b ∨ m.Within b a := by
  induction i using Nat.strongRecOn with
  | ind i ih =>
    obtain ⟨p, hp, hpa⟩ := hm.isBelow_iff.1 ha
    have hpb := hm.within_parent hb hp
    rcases hpa with rfl | hpa
    · exact .inl hpb
    · rcases hpb with rfl | hpb
      · exact .inr (.inr hpa)
      · exact ih p (hm.parent_lt hp) hpa hpb

theorem within_comparable (hm : m.WellFormed) (ha : m.Within i a) (hb : m.Within i b) :
    m.Within a b ∨ m.Within b a := by
  rcases ha with rfl | ha
  · exact .inl hb
  · rcases hb with rfl | hb
    · exact .inr (.inr ha)
    · exact hm.isBelow_comparable ha hb

/-- The way down from a node to one below it starts with a child. -/
theorem exists_child_within (hm : m.WellFormed) (h : m.isBelow i a) :
    ∃ c, m.parent? c = some a ∧ m.Within i c := by
  induction i using Nat.strongRecOn with
  | ind i ih =>
    obtain ⟨p, hp, rfl | hpa⟩ := hm.isBelow_iff.1 h
    · exact ⟨i, hp, .refl i⟩
    · obtain ⟨c, hc, hpc⟩ := ih p (hm.parent_lt hp) hpa
      exact ⟨c, hc, .inr (hm.isBelow_iff.2 ⟨p, hp, hpc⟩)⟩

theorem isBelow_of_child (hm : m.WellFormed) (hc : m.parent? c = some a) (h : m.Within i c) :
    m.isBelow i a :=
  hm.isBelow_of_within h (hm.isBelow_of_parent hc)

theorem isBelow_of_parent_within (hm : m.WellFormed) (hp : m.parent? i = some p)
    (h : m.Within p a) : m.isBelow i a :=
  hm.isBelow_iff.2 ⟨p, hp, h⟩

/-- A child does not lie below its sibling. -/
theorem not_isBelow_sibling (hm : m.WellFormed) (hc : m.parent? c = some a)
    (hb : m.parent? b = some a) : ¬ m.isBelow c b := fun h => by
  rcases hm.within_parent h hc with rfl | h
  · exact hm.not_isBelow_self (hm.isBelow_of_parent hb)
  · exact hm.not_isBelow_self (hm.isBelow_trans h (hm.isBelow_of_parent hb))

/-- The subtrees of two children of one node do not meet. -/
theorem child_unique (hm : m.WellFormed) (hc : m.parent? c = some a) (hb : m.parent? b = some a)
    (hic : m.Within i c) (hib : m.Within i b) : c = b := by
  rcases hm.within_comparable hic hib with (h | h) | (h | h)
  · exact h
  · exact absurd h (hm.not_isBelow_sibling hc hb)
  · exact h.symm
  · exact absurd h (hm.not_isBelow_sibling hb hc)

/-- Nodes in the subtrees of two children of `p` have no node below `p` in common. -/
theorem not_isBelow_of_diverge (hm : m.WellFormed) {d x : Nat} (hc : m.parent? c = some p)
    (hd : m.parent? d = some p) (hne : c ≠ d) (hac : m.Within a c) (hbd : m.Within b d)
    (hax : m.Within a x) (hbx : m.Within b x) : ¬ m.isBelow x p := fun hxp => by
  obtain ⟨e, he, hxe⟩ := hm.exists_child_within hxp
  have hce := hm.child_unique hc he hac (hm.within_trans hax hxe)
  have hde := hm.child_unique hd he hbd (hm.within_trans hbx hxe)
  exact hne (hce.trans hde.symm)

/-- The nearest node above `i` that satisfies `q`. -/
theorem find?_ancestors_eq_some_iff (hm : m.WellFormed) {q : Nat → Bool} :
    (m.ancestors i).find? q = some a ↔
      m.isBelow i a ∧ q a ∧ ∀ b, m.isBelow i b → m.isBelow b a → ¬ q b := by
  induction i using Nat.strongRecOn with
  | ind i ih =>
    rw [hm.ancestors_eq]
    cases hp : m.parent? i with
    | none => simp [hm.isBelow_iff, hp]
    | some p =>
      have up : ∀ {b}, m.isBelow i b ↔ m.Within p b := fun {b} => by
        simp [hm.isBelow_iff, hp]
      simp only [List.find?_cons]
      cases hq : q p with
      | true =>
        -- The parent is the nearest of all.
        simp only [Option.some.injEq]
        constructor
        · rintro rfl
          refine ⟨up.2 (.refl p), hq, fun b hb hbp => ?_⟩
          rcases up.1 hb with rfl | hpb
          · exact absurd hbp hm.not_isBelow_self
          · exact absurd (hm.isBelow_trans hpb hbp) hm.not_isBelow_self
        · rintro ⟨ha, -, hnear⟩
          rcases up.1 ha with h | hpa
          · exact h
          · exact absurd hq (hnear p (up.2 (.refl p)) hpa)
      | false =>
        -- The parent does not count, so the search goes on above it.
        rw [ih p (hm.parent_lt hp)]
        constructor
        · rintro ⟨ha, hqa, hnear⟩
          refine ⟨up.2 (.inr ha), hqa, fun b hb hba => ?_⟩
          rcases up.1 hb with rfl | hpb
          · simp [hq]
          · exact hnear b hpb hba
        · rintro ⟨ha, hqa, hnear⟩
          rcases up.1 ha with rfl | hpa
          · rw [hq] at hqa
            cases hqa
          · exact ⟨hpa, hqa, fun b hb hba => hnear b (up.2 (.inr hb)) hba⟩

/-! ### States -/

theorem exists_parent (hm : m.WellFormed) (hi : i < m.size) (h0 : i ≠ 0) :
    ∃ p, m.parent? i = some p := by
  cases hp : m.parent? i with
  | none => exact absurd (hm.eq_zero_of_parent hi hp) h0
  | some p => exact ⟨p, rfl⟩

theorem isBelow_zero (hm : m.WellFormed) (hi : i < m.size) (h0 : i ≠ 0) : m.isBelow i 0 := by
  induction i using Nat.strongRecOn with
  | ind i ih =>
    obtain ⟨p, hp⟩ := hm.exists_parent hi h0
    have hlt := hm.parent_lt hp
    by_cases hp0 : p = 0
    · exact hp0 ▸ hm.isBelow_of_parent hp
    · exact hm.isBelow_trans (hm.isBelow_of_parent hp) (ih p hlt (by omega) hp0)

theorem ne_zero_of_isState (hm : m.WellFormed) (h : m.isState i) : i ≠ 0 := by
  rintro rfl
  obtain ⟨k, hk, hs⟩ := hasKind_iff.1 h
  have hr := (hm.isRoot_iff hk).2 rfl
  cases k <;> simp_all [Kind.isState, Kind.isRoot]

theorem state_isBelow_zero (hm : m.WellFormed) (h : m.isState i) : m.isBelow i 0 :=
  hm.isBelow_zero (isState_lt_size h) (hm.ne_zero_of_isState h)

/-- What lies above a state is the root or a state. -/
theorem isState_of_parent (hm : m.WellFormed) (h : m.isState i) (hp : m.parent? i = some p) :
    p = 0 ∨ m.isState p := by
  obtain ⟨k, hk, hs⟩ := hasKind_iff.1 h
  have hlt := hm.parent_lt hp
  have := lt_size_of_kind? hk
  obtain ⟨k', hk'⟩ := exists_kind? (m := m) (i := p) (by omega)
  have hf := (hm.fits hp hk hk').2
  have hr := hm.isRoot_iff hk'
  rw [isState, hasKind_iff]
  cases k <;> cases k' <;> simp_all [Kind.isState, Kind.fitsUnder, Kind.isRoot, Kind.isSequential,
    Kind.isParallel]

theorem isState_of_isBelow (hm : m.WellFormed) (h : m.isState i) (ha : m.isBelow i a) :
    a = 0 ∨ m.isState a := by
  induction i using Nat.strongRecOn with
  | ind i ih =>
    obtain ⟨p, hp, hpa⟩ := hm.isBelow_iff.1 ha
    have hps := hm.isState_of_parent h hp
    rcases hpa with rfl | hpa
    · exact hps
    · rcases hps with rfl | hps
      · exact absurd (hm.isBelow_lt hpa) (Nat.not_lt_zero a)
      · exact ih p (hm.parent_lt hp) hps hpa

theorem isState_of_within (hm : m.WellFormed) (h : m.isState i) (ha : m.Within i a) :
    a = 0 ∨ m.isState a := by
  rcases ha with rfl | ha
  · exact .inr h
  · exact hm.isState_of_isBelow h ha

theorem mem_childrenOfKind (hm : m.WellFormed) {q : Kind → Bool} :
    c ∈ m.childrenOfKind q p ↔ m.parent? c = some p ∧ m.hasKind q c := by
  simp [childrenOfKind, hm.mem_children]

theorem mem_childStates (hm : m.WellFormed) :
    c ∈ m.childStates p ↔ m.parent? c = some p ∧ m.isState c :=
  hm.mem_childrenOfKind

theorem nodup_childStates (hm : m.WellFormed) (p : Nat) : (m.childStates p).Nodup :=
  ((hm.sorted_children p).filter _).imp Nat.ne_of_lt

/-- The child on the way down to a state is a state. -/
theorem exists_childState_within (hm : m.WellFormed) (hs : m.isState i) (h : m.isBelow i a) :
    ∃ c ∈ m.childStates a, m.Within i c := by
  obtain ⟨c, hc, hic⟩ := hm.exists_child_within h
  refine ⟨c, hm.mem_childStates.2 ⟨hc, ?_⟩, hic⟩
  rcases hm.isState_of_within hs hic with rfl | hcs
  · exact absurd (hm.parent_lt hc) (Nat.not_lt_zero a)
  · exact hcs

end WellFormed

end Statechart.Model
