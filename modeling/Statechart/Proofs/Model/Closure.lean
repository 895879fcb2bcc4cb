import Mathlib.Data.List.Pairwise
import Statechart.Proofs.Model.Validity

/-!
# What is entered below a node

`Model.Completes` says that a set of states below a node makes it complete: closed upwards, all
regions of a parallel state, and one child state of every other node with child states.

* `WellFormed.mem_enterClosure`: membership in a closure, one level down;
* `WellFormed.child_unique_of_fitting`: fitting states below a node that is not parallel go through
  one child;
* `Validated.completes_enterClosure`, `Validated.required_mem_enterClosure`: the closure of fitting
  states is complete and holds them.
-/

namespace Statechart

/-- Membership in what a fold collects: at the start, or for one of the numbers on the way. -/
theorem NodeSet.mem_foldl {f : NodeSet → Nat → NodeSet} {g : Nat → Nat → Prop} {x : Nat} {l : List Nat}
    (step : ∀ s, ∀ c ∈ l, (x ∈ f s c ↔ x ∈ s ∨ g c x)) (s : NodeSet) :
    x ∈ l.foldl f s ↔ x ∈ s ∨ ∃ c ∈ l, g c x := by
  induction l generalizing s with
  | nil => simp
  | cons c l ih =>
    rw [List.foldl_cons, ih (fun s d hd => step s d (List.mem_cons_of_mem c hd)),
      step s c (List.mem_cons_self ..)]
    simp [or_assoc]

namespace Model

/-- A set holds the child states that an active node needs: all regions of a parallel state, one
child state of any other node that has some. -/
def FilledAt (m : Model) (s : NodeSet) (i : Nat) : Prop :=
  if m.isParallel i then ∀ c ∈ m.childStates i, c ∈ s
  else m.childStates i ≠ [] →
    ∃ c ∈ m.childStates i, c ∈ s ∧ ∀ b ∈ m.childStates i, b ∈ s → b = c

/-- A set of states below a node with which the node is complete. -/
structure Completes (m : Model) (i : Nat) (s : NodeSet) : Prop where
  isState {x : Nat} : x ∈ s → m.isState x
  isBelow {x : Nat} : x ∈ s → m.isBelow x i
  parent_mem {x p : Nat} : x ∈ s → m.parent? x = some p → p = i ∨ p ∈ s
  filledAt {x : Nat} : x = i ∨ x ∈ s → m.FilledAt s x

/-- What a node is entered for: the states required, or else its default targets. -/
def wanted (m : Model) (i : Nat) (required : List Nat) : List Nat :=
  if m.isParallel i ∨ required ≠ [] then required else m.defaultTargets i

/-- Whether a child is entered: every region of a parallel state, and otherwise the children on the
way to a wanted state. -/
def Enters (m : Model) (i : Nat) (required : List Nat) (c : Nat) : Prop :=
  m.isParallel i ∨ ∃ r ∈ m.wanted i required, m.Within r c

variable {m : Model} {i c x : Nat} {s s' : NodeSet} {required : List Nat}

theorem filledAt_congr (h : ∀ c ∈ m.childStates i, c ∈ s ↔ c ∈ s') (hf : m.FilledAt s i) :
    m.FilledAt s' i := by
  unfold FilledAt at hf ⊢
  split at hf
  · next hp =>
    rw [if_pos hp]
    exact fun c hc => (h c hc).1 (hf c hc)
  · next hp =>
    rw [if_neg hp]
    intro hne
    obtain ⟨c, hc, hcs, huniq⟩ := hf hne
    exact ⟨c, hc, (h c hc).1 hcs, fun b hb hbs => huniq b hb ((h b hb).2 hbs)⟩

theorem Fitting.filter (h : m.Fitting i required) : m.Fitting c (required.filter (m.isBelow · c)) where
  isState hr := h.isState (List.mem_filter.1 hr).1
  isBelow hr := (List.mem_filter.1 hr).2
  orthogonal := h.orthogonal.filter _

namespace WellFormed

/-- The parent of a state is the root, a parallel state or a state with one active child. -/
theorem kind_of_childStates (hm : m.WellFormed) (h : c ∈ m.childStates i) :
    ∃ k, m.kind? i = some k ∧ (k.isRoot ∨ k.isSequential ∨ k.isParallel) := by
  obtain ⟨hp, hs⟩ := hm.mem_childStates.1 h
  obtain ⟨k, hk, hks⟩ := hasKind_iff.1 hs
  have := hm.parent_lt hp
  have := lt_size_of_parent? hp
  obtain ⟨k', hk'⟩ := exists_kind? (m := m) (i := i) (by omega)
  have hf := (hm.fits hp hk hk').2
  refine ⟨k', hk', ?_⟩
  cases k <;> simp_all [Kind.isState, Kind.fitsUnder, or_assoc]

/-- A state that is not parallel is compound if it has child states. -/
theorem isCompound_iff (hm : m.WellFormed) (hs : m.isState i) (hpar : ¬ m.isParallel i) :
    m.isCompound i ↔ m.childStates i ≠ [] := by
  simp only [isCompound, isAtomic, hs, Bool.true_and, Bool.and_eq_true, Bool.not_eq_true',
    List.isEmpty_eq_false_iff, and_iff_right_iff_imp]
  intro hne
  obtain ⟨c, hc⟩ := List.exists_mem_of_ne_nil _ hne
  obtain ⟨k, hk, hr | hq | hp⟩ := hm.kind_of_childStates hc
  · exact absurd ((hm.isRoot_iff hk).1 hr) (hm.ne_zero_of_isState hs)
  · exact hasKind_iff.2 ⟨k, hk, hq⟩
  · exact absurd (hasKind_iff.2 ⟨k, hk, hp⟩) hpar

theorem childState_range (hm : m.WellFormed) (h : c ∈ m.childStates i) : i < c ∧ c < m.size :=
  have hp := (hm.mem_childStates.1 h).1
  ⟨hm.parent_lt hp, lt_size_of_parent? hp⟩

/-- Of the wanted states in the subtree of a child, those other than the child lie below it. -/
theorem filter_hits (hm : m.WellFormed) (wanted : List Nat) (c : Nat) :
    (wanted.filter fun r => r = c || m.isBelow r c).filter (· ≠ c) =
      wanted.filter (m.isBelow · c) := by
  rw [List.filter_filter]
  refine List.filter_congr fun r _ => ?_
  by_cases hr : r = c
  · simp [hr, hm.not_isBelow_self]
  · simp [hr]

/-- Membership in what a node that is not parallel enters, child by child. -/
theorem mem_foldl_sequential (hm : m.WellFormed) (hpar : ¬ m.isParallel i) :
    x ∈ (m.childStates i).foldl (fun (out : NodeSet) child =>
        let hits := (if required.isEmpty then m.defaultTargets i else required).filter
          fun r => r = child || m.isBelow r child
        if hits.isEmpty then out
        else if _h : i < child ∧ child < m.size then
          (out.insert child).union (m.enterClosure child (hits.filter (· ≠ child)))
        else out) .empty ↔
      ∃ c ∈ m.childStates i, m.Enters i required c ∧
        (x = c ∨ x ∈ m.enterClosure c ((m.wanted i required).filter (m.isBelow · c))) := by
  have hw : (if required.isEmpty then m.defaultTargets i else required) = m.wanted i required := by
    cases required <;> simp [wanted, hpar]
  rw [NodeSet.mem_foldl (g := fun c x => m.Enters i required c ∧
    (x = c ∨ x ∈ m.enterClosure c ((m.wanted i required).filter (m.isBelow · c))))]
  · simp
  · intro s c hc
    have hits : ((m.wanted i required).filter fun r => r = c || m.isBelow r c).isEmpty ↔
        ¬ m.Enters i required c := by
      simp [Enters, hpar, Within, List.filter_eq_nil_iff]
    simp only [hw, hm.filter_hits]
    by_cases he : m.Enters i required c
    · rw [if_neg (fun h => hits.1 h he), dif_pos (hm.childState_range hc)]
      simp only [NodeSet.mem_union, NodeSet.mem_insert, he, true_and]
      tauto
    · rw [if_pos (hits.2 he)]
      simp [he]

/-- Membership in a closure, one level down. -/
theorem mem_enterClosure (hm : m.WellFormed) :
    x ∈ m.enterClosure i required ↔ ∃ c ∈ m.childStates i, m.Enters i required c ∧
      (x = c ∨ x ∈ m.enterClosure c ((m.wanted i required).filter (m.isBelow · c))) := by
  rw [enterClosure]
  split
  · next hk =>
    have hpar : m.isParallel i := hasKind_iff.2 ⟨_, hk, rfl⟩
    rw [NodeSet.mem_foldl (g := fun c x => x = c ∨
      x ∈ m.enterClosure c (required.filter (m.isBelow · c)))]
    · simp [Enters, wanted, hpar]
    · intro s c hc
      rw [dif_pos (hm.childState_range hc)]
      simp only [NodeSet.mem_union, NodeSet.mem_insert]
      tauto
  · next hk => exact hm.mem_foldl_sequential (by simp [isParallel, hasKind, hk, Kind.isParallel])
  · next hk => exact hm.mem_foldl_sequential (by simp [isParallel, hasKind, hk, Kind.isParallel])
  · next hpar hseq hroot =>
    simp only [NodeSet.not_mem_empty, false_iff]
    rintro ⟨c, hc, -⟩
    obtain ⟨k, hk, h⟩ := hm.kind_of_childStates hc
    cases k <;> simp_all [Kind.isRoot, Kind.isSequential, Kind.isParallel]

/-- If a node has orthogonal states in the subtrees of two children, it is parallel. -/
theorem isParallel_of_orthogonal (hm : m.WellFormed) {a b c d : Nat} (h : m.areOrthogonal a b)
    (hc : m.parent? c = some i) (hd : m.parent? d = some i) (hne : c ≠ d) (hac : m.Within a c)
    (hbd : m.Within b d) : m.isParallel i := by
  obtain ⟨p, c', d', hp, hc', hd', hne', hac', hbd'⟩ := hm.areOrthogonal_iff.1 h
  have hai := hm.isBelow_of_child hc hac
  have hbi := hm.isBelow_of_child hd hbd
  have hap := hm.isBelow_of_child hc' hac'
  have hbp := hm.isBelow_of_child hd' hbd'
  rcases hm.isBelow_comparable hai hap with (rfl | hip) | (rfl | hpi)
  · exact hp
  · exact absurd hip (hm.not_isBelow_of_diverge hc' hd' hne' hac' hbd' (.inr hai) (.inr hbi))
  · exact hp
  · exact absurd hpi (hm.not_isBelow_of_diverge hc hd hne hac hbd (.inr hap) (.inr hbp))

/-- Fitting states below a node that is not parallel go through one child. -/
theorem child_unique_of_fitting (hm : m.WellFormed) (hpar : ¬ m.isParallel i)
    (hf : m.Fitting i required) {a b d : Nat} (ha : a ∈ required) (hb : b ∈ required)
    (hc : m.parent? c = some i) (hd : m.parent? d = some i) (hac : m.Within a c)
    (hbd : m.Within b d) : c = d := by
  by_contra hne
  have hab : a ≠ b := by
    rintro rfl
    exact hne (hm.child_unique hc hd hac hbd)
  have : Std.Symm fun a b => m.areOrthogonal a b = true := ⟨fun _ _ => hm.areOrthogonal_symm⟩
  exact hpar (hm.isParallel_of_orthogonal (hf.orthogonal.forall ha hb hab) hc hd hne hac hbd)

/-- A closure holds states below its node, with everything on the way to them. -/
theorem of_mem_enterClosure (hm : m.WellFormed) (hx : x ∈ m.enterClosure i required) :
    m.isState x ∧ m.isBelow x i ∧
      ∀ p, m.parent? x = some p → p = i ∨ p ∈ m.enterClosure i required := by
  -- Induction on the distance to the last node: a closure is made of closures of later nodes.
  induction hn : m.size - i using Nat.strongRecOn generalizing i required with
  | ind n ih =>
    obtain ⟨c, hc, he, hxc⟩ := hm.mem_enterClosure.1 hx
    obtain ⟨hpc, hsc⟩ := hm.mem_childStates.1 hc
    rcases hxc with rfl | hxc
    · refine ⟨hsc, hm.isBelow_of_parent hpc, fun p hp => .inl ?_⟩
      rw [hpc] at hp
      exact (Option.some.inj hp).symm
    · have := hm.childState_range hc
      obtain ⟨hs, hb, hup⟩ := ih (m.size - c) (by omega) hxc rfl
      refine ⟨hs, hm.isBelow_of_child hpc (.inr hb), fun p hp => ?_⟩
      exact .inr (hm.mem_enterClosure.2 ⟨c, hc, he, hup p hp⟩)

/-- Below an entered child, a closure is the closure of that child. -/
theorem mem_enterClosure_below (hm : m.WellFormed) (hc : c ∈ m.childStates i)
    (he : m.Enters i required c) (hx : m.isBelow x c) :
    x ∈ m.enterClosure i required ↔
      x ∈ m.enterClosure c ((m.wanted i required).filter (m.isBelow · c)) := by
  rw [hm.mem_enterClosure]
  constructor
  · rintro ⟨d, hd, -, hxd⟩
    have hwithin : m.Within x d := hxd.imp id fun h => (hm.of_mem_enterClosure h).2.1
    obtain rfl := hm.child_unique (hm.mem_childStates.1 hc).1 (hm.mem_childStates.1 hd).1
      (.inr hx) hwithin
    rcases hxd with rfl | hxd
    · exact absurd hx hm.not_isBelow_self
    · exact hxd
  · exact fun h => ⟨c, hc, he, .inr h⟩

/-- Of the children of a node, its closure holds those that are entered. -/
theorem childState_mem_enterClosure (hm : m.WellFormed) (hc : c ∈ m.childStates i) :
    c ∈ m.enterClosure i required ↔ m.Enters i required c := by
  rw [hm.mem_enterClosure]
  constructor
  · rintro ⟨d, hd, he, rfl | hcd⟩
    · exact he
    · exact absurd (hm.of_mem_enterClosure hcd).2.1
        (hm.not_isBelow_sibling (hm.mem_childStates.1 hc).1 (hm.mem_childStates.1 hd).1)
  · exact fun he => ⟨c, hc, he, .inl rfl⟩

end WellFormed

/-- What is required is wanted. -/
theorem mem_wanted {r : Nat} (hr : r ∈ required) : r ∈ m.wanted i required := by
  rw [wanted, if_pos (.inr (List.ne_nil_of_mem hr))]
  exact hr

namespace Validated

theorem fitting_wanted (hv : m.Validated) (h : m.Fitting i required) (hc : m.childStates i ≠ []) :
    m.Fitting i (m.wanted i required) := by
  unfold wanted
  split
  · exact h
  · exact (hv.defaultTargets_spec hc).1

theorem wanted_ne_nil (hv : m.Validated) (hpar : ¬ m.isParallel i) (hc : m.childStates i ≠ []) :
    m.wanted i required ≠ [] := by
  unfold wanted
  split
  · next h => exact h.resolve_left hpar
  · exact (hv.defaultTargets_spec hc).2

/-- A node that is not parallel enters exactly one child. -/
theorem exists_unique_enters (hv : m.Validated) (h : m.Fitting i required)
    (hpar : ¬ m.isParallel i) (hne : m.childStates i ≠ []) :
    ∃ c ∈ m.childStates i, m.Enters i required c ∧
      ∀ b ∈ m.childStates i, m.Enters i required b → b = c := by
  have hm := hv.wellFormed
  have hf := hv.fitting_wanted h hne
  have hwanted : m.wanted i required ≠ [] := hv.wanted_ne_nil hpar hne
  obtain ⟨r, hr⟩ := List.exists_mem_of_ne_nil _ hwanted
  obtain ⟨c, hc, hrc⟩ := hm.exists_childState_within (hf.isState hr) (hf.isBelow hr)
  refine ⟨c, hc, .inr ⟨r, hr, hrc⟩, fun b hb he => ?_⟩
  obtain ⟨r', hr', hrb⟩ := he.resolve_left hpar
  exact hm.child_unique_of_fitting hpar hf hr' hr (hm.mem_childStates.1 hb).1
    (hm.mem_childStates.1 hc).1 hrb hrc

/-- The node of a closure has the child states that it needs. -/
theorem filledAt_enterClosure_self (hv : m.Validated) (h : m.Fitting i required) :
    m.FilledAt (m.enterClosure i required) i := by
  have hm := hv.wellFormed
  unfold FilledAt
  split
  · next hpar => exact fun c hc => (hm.childState_mem_enterClosure hc).2 (.inl hpar)
  · next hpar =>
    intro hne
    obtain ⟨c, hc, he, huniq⟩ := hv.exists_unique_enters h hpar hne
    refine ⟨c, hc, (hm.childState_mem_enterClosure hc).2 he, fun b hb hbs => ?_⟩
    exact huniq b hb ((hm.childState_mem_enterClosure hb).1 hbs)

/-- Every state of a closure has the child states that it needs. -/
theorem filledAt_enterClosure (hv : m.Validated) (h : m.Fitting i required)
    (hx : x ∈ m.enterClosure i required) : m.FilledAt (m.enterClosure i required) x := by
  have hm := hv.wellFormed
  induction hn : m.size - i using Nat.strongRecOn generalizing i required with
  | ind n ih =>
    obtain ⟨c, hc, he, hxc⟩ := hm.mem_enterClosure.1 hx
    have hf : m.Fitting c ((m.wanted i required).filter (m.isBelow · c)) :=
      (hv.fitting_wanted h (List.ne_nil_of_mem hc)).filter
    have hwithin : m.Within x c := hxc.imp id fun hxc => (hm.of_mem_enterClosure hxc).2.1
    -- The children of `x` lie below `c`, where both closures agree.
    refine filledAt_congr (fun d hd => (hm.mem_enterClosure_below hc he ?_).symm) ?_
    · exact hm.isBelow_of_parent_within (hm.mem_childStates.1 hd).1 hwithin
    · rcases hxc with rfl | hxc
      · exact hv.filledAt_enterClosure_self hf
      · have := hm.childState_range hc
        exact ih (m.size - c) (by omega) hf hxc rfl

/-- The closure of fitting states makes a node complete. -/
theorem completes_enterClosure (hv : m.Validated) (h : m.Fitting i required) :
    m.Completes i (m.enterClosure i required) where
  isState hx := (hv.wellFormed.of_mem_enterClosure hx).1
  isBelow hx := (hv.wellFormed.of_mem_enterClosure hx).2.1
  parent_mem hx hp := (hv.wellFormed.of_mem_enterClosure hx).2.2 _ hp
  filledAt := by
    rintro x (rfl | hx)
    · exact hv.filledAt_enterClosure_self h
    · exact hv.filledAt_enterClosure h hx

/-- A closure holds what it is required to hold. -/
theorem required_mem_enterClosure (hv : m.Validated) (h : m.Fitting i required) {r : Nat}
    (hr : r ∈ required) : r ∈ m.enterClosure i required := by
  have hm := hv.wellFormed
  induction hn : m.size - i using Nat.strongRecOn generalizing i required with
  | ind n ih =>
    obtain ⟨c, hc, hrc⟩ := hm.exists_childState_within (h.isState hr) (h.isBelow hr)
    refine hm.mem_enterClosure.2 ⟨c, hc, .inr ⟨r, mem_wanted hr, hrc⟩, ?_⟩
    rcases hrc with rfl | hrc
    · exact .inl rfl
    · have := hm.childState_range hc
      have hf := (hv.fitting_wanted h (List.ne_nil_of_mem hc)).filter (c := c)
      exact .inr (ih (m.size - c) (by omega) hf (List.mem_filter.2 ⟨mem_wanted hr, hrc⟩) rfl)

end Validated

end Model

end Statechart
