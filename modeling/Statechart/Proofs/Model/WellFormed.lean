import Mathlib.Tactic.Common
import Statechart.Model.Validation

/-!
# Models that additions make

A model is `Built` if it comes out of no nodes by `Model.addNode`.  `WellFormed` is what every
addition keeps: the root is the first node, links between parents and children agree and lead to
smaller numbers, the kinds of a parent and its child fit together, the index of ids holds states
only, all transitions are listed, and the transition of an initial element has a target.

* `Model.size_insertNode`, `root?_insertNode`, `kind?_insertNode`, `parent?_insertNode`,
  `children_insertNode`: what an addition does to the model and to each node;
* `Model.addNode_cases`: what an addition that succeeds has checked;
* `Built.wellFormed`: every model that additions make is well formed.
-/

namespace Statechart.Model

/-- The models that additions of nodes make out of none. -/
inductive Built : Model → Prop
  | empty : Built .empty
  | add {m m' : Model} {d : Declaration} {parent : Option Nat} (before : Built m)
      (added : m.addNode d parent = .ok m') : Built m'

/-- Adds nodes one after the other, each under its parent, as long as none is refused. -/
def addAll? (m : Model) : List (Declaration × Option Nat) → Option Model
  | [] => some m
  | (d, parent) :: rest => (m.addNode d parent).toOption.bind (·.addAll? rest)

theorem Built.addAll? {m m' : Model} (h : m.Built) {ds : List (Declaration × Option Nat)}
    (hds : m.addAll? ds = some m') : m'.Built := by
  induction ds generalizing m with
  | nil =>
    cases hds
    exact h
  | cons d ds ih =>
    obtain ⟨m₁, hadd, hds⟩ := Option.bind_eq_some_iff.1 hds
    cases hr : m.addNode d.1 d.2 with
    | error e => simp [hr, Except.toOption] at hadd
    | ok m₂ =>
      simp only [hr, Except.toOption, Option.some.injEq] at hadd
      subst hadd
      exact ih (h.add hr) hds

/-- What every addition of a node keeps. -/
structure WellFormed (m : Model) : Prop where
  /-- The root is the first node. -/
  root?_eq_some_iff {i : Nat} : m.root? = some i ↔ i = 0 ∧ 0 < m.size
  /-- A parent has a smaller number than its children. -/
  parent_lt {i p : Nat} : m.parent? i = some p → p < i
  /-- Only the first node has no parent. -/
  eq_zero_of_parent {i : Nat} : i < m.size → m.parent? i = none → i = 0
  /-- The children of a node are the nodes whose parent it is. -/
  mem_children {c p : Nat} : c ∈ m.children p ↔ m.parent? c = some p
  /-- Children stand in document order. -/
  sorted_children (p : Nat) : (m.children p).Pairwise (· < ·)
  /-- The first node, and no other, is of the kind of a root. -/
  isRoot_iff {i : Nat} {k : Kind} : m.kind? i = some k → (k.isRoot ↔ i = 0)
  /-- A parent and its child accept each other. -/
  fits {c p : Nat} {child parent : Kind} : m.parent? c = some p → m.kind? c = some child →
    m.kind? p = some parent → parent.accepts child ∧ child.fitsUnder parent
  /-- The index leads to states. -/
  isState_of_mem {id : String} {i : Nat} : (id, i) ∈ m.index → m.isState i
  /-- Every transition is listed. -/
  mem_transitions {i : Nat} : m.hasKind Kind.isTransition i → i ∈ m.transitions
  /-- The transition of an initial element has a target. -/
  initial_target {i e : Nat} {t : Transition} : m.parent? i = some e →
    m.hasKind Kind.isInitial e → m.transition? i = some t → t.targets ≠ []

/-! ### What an addition does to each node -/

section Insert

variable {m : Model} {d : Declaration} {parent : Option Nat}

@[simp] theorem size_insertNode : (m.insertNode d parent).size = m.size + 1 := by
  cases parent <;> simp [insertNode, size]

@[simp] theorem root?_insertNode :
    (m.insertNode d parent).root? = if parent.isNone then some m.size else m.root? := rfl

theorem node?_insertNode (i : Nat) :
    (m.insertNode d parent).node? i =
      if i = m.size then some ⟨d.id, d.kind, parent, []⟩
      else (m.node? i).map fun n =>
        if parent = some i then { n with children := n.children ++ [m.size] } else n := by
  cases parent with
  | none => simp [insertNode, node?, size, Array.getElem?_push]
  | some p =>
    simp only [insertNode, node?, size, Array.getElem?_push, Array.size_modify,
      Array.getElem?_modify]
    by_cases hi : i = m.nodes.size
    · simp [hi]
    · by_cases hp : p = i <;> simp [hi, hp]

theorem node?_eq_none_iff {i : Nat} : m.node? i = none ↔ m.size ≤ i := by
  simp [node?, size]

theorem lt_size_of_node? {i : Nat} {n : Node} (h : m.node? i = some n) : i < m.size := by
  by_contra hle
  rw [node?_eq_none_iff.2 (by omega)] at h
  cases h

theorem lt_size_of_kind? {i : Nat} {k : Kind} (h : m.kind? i = some k) : i < m.size := by
  obtain ⟨n, hn, -⟩ := Option.map_eq_some_iff.1 h
  exact lt_size_of_node? hn

theorem exists_kind? {i : Nat} (h : i < m.size) : ∃ k, m.kind? i = some k := by
  cases hn : m.node? i with
  | none => rw [node?_eq_none_iff] at hn; omega
  | some n => exact ⟨n.kind, by simp [kind?, hn]⟩

theorem lt_size_of_parent? {i p : Nat} (h : m.parent? i = some p) : i < m.size := by
  obtain ⟨n, hn, -⟩ := Option.bind_eq_some_iff.1 h
  exact lt_size_of_node? hn

theorem hasKind_iff {p : Kind → Bool} {i : Nat} :
    m.hasKind p i ↔ ∃ k, m.kind? i = some k ∧ p k := by
  simp [hasKind, Option.any_eq_true]

theorem kind?_insertNode (i : Nat) :
    (m.insertNode d parent).kind? i = if i = m.size then some d.kind else m.kind? i := by
  unfold kind?
  rw [node?_insertNode]
  split
  · rfl
  · cases m.node? i with
    | none => rfl
    | some n => simp only [Option.map_some]; split <;> rfl

theorem parent?_insertNode (i : Nat) :
    (m.insertNode d parent).parent? i = if i = m.size then parent else m.parent? i := by
  unfold parent?
  rw [node?_insertNode]
  split
  · rfl
  · cases m.node? i with
    | none => rfl
    | some n => simp only [Option.map_some, Option.bind_some]; split <;> rfl

theorem children_insertNode {i : Nat} (h : ∀ p, parent = some p → p < m.size) :
    (m.insertNode d parent).children i =
      if parent = some i then m.children i ++ [m.size] else m.children i := by
  unfold children
  rw [node?_insertNode]
  by_cases hi : i = m.size
  · have hp : parent ≠ some i := fun hp => by have := h i hp; omega
    simp [hi ▸ hp, hi, node?_eq_none_iff.2 (Nat.le_refl m.size)]
  · rw [if_neg hi]
    cases hn : m.node? i with
    | none =>
      have hp : parent ≠ some i := fun hp => by
        have := h i hp
        rw [node?_eq_none_iff] at hn
        omega
      simp [hp]
    | some n => by_cases hp : parent = some i <;> simp [hp]

theorem hasKind_insertNode (p : Kind → Bool) (i : Nat) :
    (m.insertNode d parent).hasKind p i = if i = m.size then p d.kind else m.hasKind p i := by
  unfold hasKind
  rw [kind?_insertNode]
  split <;> simp

theorem hasKind_eq_false {p : Kind → Bool} {i : Nat} (h : m.size ≤ i) : m.hasKind p i = false := by
  simp [hasKind, kind?, node?_eq_none_iff.2 h]

theorem transition?_insertNode (i : Nat) :
    (m.insertNode d parent).transition? i =
      if i = m.size then d.kind.transition? else m.transition? i := by
  unfold transition?
  rw [kind?_insertNode]
  split <;> simp

end Insert

/-! ### What an addition checks -/

/-- Where a node may be added: the root first and without a parent, any other node under a node
that accepts it. -/
inductive Place (m : Model) (kind : Kind) : Option Nat → Prop
  | first (isRoot : kind.isRoot) (rootless : m.root? = none) : Place m kind none
  | under {p : Nat} {n : Node} (node : m.node? p = some n) (notRoot : ¬ kind.isRoot)
      (accepts : n.kind.accepts kind) (fits : kind.fitsUnder n.kind)
      (initial : m.checkInitial kind p n = .ok ()) : Place m kind (some p)

variable {m m' : Model} {d : Declaration} {parent : Option Nat}

theorem place_of_checkPlace {kind : Kind} (h : m.checkPlace kind parent = .ok ()) :
    m.Place kind parent := by
  cases parent with
  | none =>
    simp only [checkPlace] at h
    split at h
    · next hr =>
      split at h
      · cases h
      · next hs => exact .first hr (by simpa using hs)
    · cases h
  | some p =>
    simp only [checkPlace, checkParent] at h
    split at h
    · cases h
    · next hr =>
      split at h
      · cases h
      · next n hn =>
        split at h
        · next hk =>
          rw [Bool.and_eq_true] at hk
          exact .under hn hr hk.1 hk.2 h
        · cases h

/-- What an addition that succeeds has checked, and what it gives. -/
theorem addNode_cases (h : m.addNode d parent = .ok m') :
    m.Place d.kind parent ∧ m.checkId d = .ok () ∧ m' = m.insertNode d parent := by
  unfold addNode at h
  split at h
  · cases h
  · next hp =>
    split at h
    · cases h
    · next hi =>
      cases h
      exact ⟨place_of_checkPlace hp, hi, rfl⟩

theorem Place.lt_size {kind : Kind} {p : Nat} (h : m.Place kind (some p)) : p < m.size := by
  cases h with
  | under node => exact lt_size_of_node? node

theorem Place.lt_size_of_eq {kind : Kind} (h : m.Place kind parent) :
    ∀ p, parent = some p → p < m.size := by
  rintro p rfl
  exact h.lt_size

/-- A transition that may be added to an initial element has a target. -/
theorem targets_ne_nil_of_checkInitial {t : Transition} {p : Nat} {n : Node}
    (hn : n.kind.isInitial) (h : m.checkInitial (.transition t) p n = .ok ()) :
    t.targets ≠ [] := by
  simp only [checkInitial, hn, if_true] at h
  split at h
  · cases h
  · split at h
    · cases h
    · split at h
      · cases h
      · split at h
        · cases h
        · next ht => simpa [Transition.isTargetless] using ht

/-! ### Every model that additions make is well formed -/

theorem wellFormed_empty : WellFormed .empty where
  root?_eq_some_iff := by simp [size, empty]
  parent_lt h := by simp [parent?, node?, empty] at h
  eq_zero_of_parent h := by simp [size, empty] at h
  mem_children := by simp [children, parent?, node?, empty]
  sorted_children p := by simp [children, node?, empty]
  isRoot_iff h := by simp [kind?, node?, empty] at h
  fits h := by simp [parent?, node?, empty] at h
  isState_of_mem h := by simp [empty] at h
  mem_transitions h := by simp [hasKind, kind?, node?, empty] at h
  initial_target h := by simp [parent?, node?, empty] at h

theorem ne_size_of_hasKind {q : Kind → Bool} {i : Nat} (h : m.hasKind q i) : i ≠ m.size := by
  rintro rfl
  rw [hasKind_eq_false (Nat.le_refl _)] at h
  cases h

namespace WellFormed

/-- Without a root there are no nodes. -/
theorem root?_eq_none_iff (hm : m.WellFormed) : m.root? = none ↔ m.size = 0 := by
  rw [Option.eq_none_iff_forall_ne_some]
  simp only [ne_eq, hm.root?_eq_some_iff]
  constructor
  · intro h
    by_contra h0
    exact h 0 ⟨rfl, Nat.pos_of_ne_zero h0⟩
  · rintro h i ⟨-, hpos⟩
    omega

/-! The parts of the invariant that need more than one look at the new node. -/

theorem root?_insertNode_eq_some_iff (hm : m.WellFormed) (hp : m.Place d.kind parent) {i : Nat} :
    (m.insertNode d parent).root? = some i ↔ i = 0 ∧ 0 < (m.insertNode d parent).size := by
  rw [root?_insertNode, size_insertNode]
  cases hp with
  | first _ hroot =>
    have hs := hm.root?_eq_none_iff.1 hroot
    simp [hs, eq_comm]
  | under hn =>
    have hpos := Nat.zero_lt_of_lt (lt_size_of_node? hn)
    simp [hm.root?_eq_some_iff, hpos]

theorem mem_children_insertNode (hm : m.WellFormed) (hp : m.Place d.kind parent) {c p : Nat} :
    c ∈ (m.insertNode d parent).children p ↔ (m.insertNode d parent).parent? c = some p := by
  have old : c ∈ m.children p ↔ m.parent? c = some p := hm.mem_children
  rw [children_insertNode hp.lt_size_of_eq, parent?_insertNode]
  by_cases hc : c = m.size
  · have hnot : c ∉ m.children p := fun h =>
      Nat.ne_of_lt (lt_size_of_parent? (old.1 h)) hc
    rw [if_pos hc]
    by_cases hpp : parent = some p <;> simp [hpp, hc]
    rwa [← hc]
  · rw [if_neg hc, ← old]
    split <;> simp [hc]

theorem isRoot_iff_insertNode (hm : m.WellFormed) (hp : m.Place d.kind parent) {i : Nat} {k : Kind}
    (h : (m.insertNode d parent).kind? i = some k) : k.isRoot ↔ i = 0 := by
  rw [kind?_insertNode] at h
  split at h
  · next hi =>
    cases h
    cases hp with
    | first hr hroot => simp [hr, hi, hm.root?_eq_none_iff.1 hroot]
    | under hn hr => simp [hr, Nat.ne_of_gt (Nat.zero_lt_of_lt (lt_size_of_node? hn)), hi]
  · exact hm.isRoot_iff h

theorem fits_insertNode (hm : m.WellFormed) (hp : m.Place d.kind parent) {c p : Nat}
    {child k : Kind} (hc : (m.insertNode d parent).parent? c = some p)
    (hk : (m.insertNode d parent).kind? c = some child)
    (hkp : (m.insertNode d parent).kind? p = some k) : k.accepts child ∧ child.fitsUnder k := by
  rw [parent?_insertNode] at hc
  rw [kind?_insertNode] at hk hkp
  by_cases hcs : c = m.size
  · rw [if_pos hcs] at hc hk
    subst hc
    cases hk
    cases hp with
    | under hn _ ha hf =>
      rw [if_neg (Nat.ne_of_lt (lt_size_of_node? hn)), kind?, hn] at hkp
      cases hkp
      exact ⟨ha, hf⟩
  · rw [if_neg hcs] at hc hk
    have := hm.parent_lt hc
    have := lt_size_of_parent? hc
    rw [if_neg (by omega)] at hkp
    exact hm.fits hc hk hkp

theorem isState_of_mem_insertNode (hm : m.WellFormed) {id : String} {i : Nat}
    (h : (id, i) ∈ (m.insertNode d parent).index) : (m.insertNode d parent).isState i := by
  have old : (id, i) ∈ m.index → (m.insertNode d parent).isState i := fun h => by
    have hs := hm.isState_of_mem h
    rw [isState, hasKind_insertNode, if_neg (ne_size_of_hasKind hs)]
    exact hs
  simp only [Model.insertNode] at h
  split at h
  · next hk =>
    rcases List.mem_append.1 h with h | h
    · exact old h
    · simp only [List.mem_singleton, Prod.mk.injEq] at h
      rw [isState, hasKind_insertNode, if_pos h.2]
      exact hk
  · exact old h

theorem mem_transitions_insertNode (hm : m.WellFormed) {i : Nat}
    (h : (m.insertNode d parent).hasKind Kind.isTransition i) :
    i ∈ (m.insertNode d parent).transitions := by
  rw [hasKind_insertNode] at h
  simp only [Model.insertNode]
  by_cases hi : i = m.size
  · rw [if_pos hi] at h
    simp [h, hi]
  · rw [if_neg hi] at h
    split
    · exact List.mem_append_left _ (hm.mem_transitions h)
    · exact hm.mem_transitions h

theorem initial_target_insertNode (hm : m.WellFormed) (hp : m.Place d.kind parent) {i e : Nat}
    {t : Transition} (hpar : (m.insertNode d parent).parent? i = some e)
    (he : (m.insertNode d parent).hasKind Kind.isInitial e)
    (ht : (m.insertNode d parent).transition? i = some t) : t.targets ≠ [] := by
  rw [parent?_insertNode] at hpar
  rw [hasKind_insertNode] at he
  rw [transition?_insertNode] at ht
  by_cases hi : i = m.size
  · -- The new node is the transition: the addition has checked its targets.
    rw [if_pos hi] at hpar ht
    subst hpar
    rw [if_neg (Nat.ne_of_lt hp.lt_size)] at he
    cases hp with
    | under hn _ _ _ hc =>
      have hk : d.kind = .transition t := by
        cases hk : d.kind <;> simp_all [Kind.transition?]
      rw [hk] at hc
      simp only [hasKind, kind?, hn, Option.map_some, Option.any_some] at he
      exact targets_ne_nil_of_checkInitial he hc
  · rw [if_neg hi] at hpar ht
    have := hm.parent_lt hpar
    have := lt_size_of_parent? hpar
    rw [if_neg (by omega)] at he
    exact hm.initial_target hpar he ht

/-- An addition keeps a model well formed. -/
theorem insertNode (hm : m.WellFormed) (hp : m.Place d.kind parent) :
    (m.insertNode d parent).WellFormed := by
  constructor
  case parent_lt =>
    intro i p h
    rw [parent?_insertNode] at h
    split at h
    · next hi => exact hi ▸ hp.lt_size_of_eq p h
    · exact hm.parent_lt h
  case eq_zero_of_parent =>
    intro i hi h
    rw [size_insertNode] at hi
    rw [parent?_insertNode] at h
    split at h
    · next heq =>
      subst h
      cases hp with
      | first _ hroot => rw [heq, hm.root?_eq_none_iff.1 hroot]
    · exact hm.eq_zero_of_parent (by omega) h
  case sorted_children =>
    intro p
    rw [children_insertNode hp.lt_size_of_eq]
    split
    · refine List.pairwise_append.2 ⟨hm.sorted_children p, by simp, fun c hc x hx => ?_⟩
      rw [List.mem_singleton.1 hx]
      exact lt_size_of_parent? (hm.mem_children.1 hc)
    · exact hm.sorted_children p
  case root?_eq_some_iff => exact hm.root?_insertNode_eq_some_iff hp
  case mem_children => exact hm.mem_children_insertNode hp
  case isRoot_iff => exact hm.isRoot_iff_insertNode hp
  case fits => exact hm.fits_insertNode hp
  case isState_of_mem => exact hm.isState_of_mem_insertNode
  case mem_transitions => exact hm.mem_transitions_insertNode
  case initial_target => exact hm.initial_target_insertNode hp

end WellFormed

theorem Built.wellFormed (h : m.Built) : m.WellFormed := by
  induction h with
  | empty => exact wellFormed_empty
  | add _ added ih =>
    obtain ⟨place, -, rfl⟩ := addNode_cases added
    exact ih.insertNode place

end Statechart.Model
