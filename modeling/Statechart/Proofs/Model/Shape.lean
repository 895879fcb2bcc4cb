import Statechart.Proofs.Model.Domain

/-!
# Models of one shape

Where transitions lead depends on the tree of states, on the types of the transitions and on which
states they name.  It depends neither on the content of the chart, nor on what transitions react to,
nor on the order in which they name their targets.

* `Kind.SameShape`, `Model.SameShape`: two models that differ at most in the latter;
* `WellFormed.of_sameShape`: either both are well formed or none;
* `SameShape.domain?`, `SameShape.enterClosure`: their transitions have the same domains, and their
  nodes the same closures;
* `Model.withTargets`: a model with the targets of one transition written in another order, which is of
  the same shape (`sameShape_withTargets`).
-/

namespace Statechart

/-- A transition with other targets; other kinds are left alone. -/
def Kind.withTargets (targets : List String) : Kind → Kind
  | .transition t => .transition { t with targets }
  | k => k

/-- Kinds between which it makes no difference what is left and entered: equal ones, transitions of
one type with the same targets in some order, and actions. -/
inductive Kind.SameShape : Kind → Kind → Prop
  | refl (k : Kind) : SameShape k k
  | transition {t t' : Transition} (type : t'.type = t.type) (targets : t'.targets.Perm t.targets) :
      SameShape (.transition t) (.transition t')
  | action {k k' : Kind} (h : k.isAction) (h' : k'.isAction) : SameShape k k'

namespace Kind.SameShape

variable {k k' l l' : Kind}

theorem eq_of_isAction {α : Type} {p : Kind → α} {a : α} (hlog : ∀ label e, p (.log label e) = a)
    (hraise : ∀ event, p (.raise event) = a) (hassign : ∀ place e, p (.assign place e) = a)
    (h : k.isAction) : p k = a := by
  cases k with
  | log label e => exact hlog label e
  | raise event => exact hraise event
  | assign place e => exact hassign place e
  | _ => cases h

/-- What is the same for all transitions and for all actions is the same for both kinds. -/
theorem eq {α : Type} {p : Kind → α} {a : α} (h : k.SameShape k')
    (htransition : ∀ t t', p (.transition t') = p (.transition t))
    (hlog : ∀ label e, p (.log label e) = a) (hraise : ∀ event, p (.raise event) = a)
    (hassign : ∀ place e, p (.assign place e) = a) : p k' = p k := by
  cases h with
  | refl => rfl
  | transition => exact htransition _ _
  | action h h' =>
    rw [eq_of_isAction hlog hraise hassign h, eq_of_isAction hlog hraise hassign h']

theorem isState (h : k.SameShape k') : k'.isState = k.isState :=
  h.eq (a := false) (fun _ _ => rfl) (fun _ _ => rfl) (fun _ => rfl) fun _ _ => rfl

theorem isParallel (h : k.SameShape k') : k'.isParallel = k.isParallel :=
  h.eq (a := false) (fun _ _ => rfl) (fun _ _ => rfl) (fun _ => rfl) fun _ _ => rfl

theorem isSequential (h : k.SameShape k') : k'.isSequential = k.isSequential :=
  h.eq (a := false) (fun _ _ => rfl) (fun _ _ => rfl) (fun _ => rfl) fun _ _ => rfl

theorem isInitial (h : k.SameShape k') : k'.isInitial = k.isInitial :=
  h.eq (a := false) (fun _ _ => rfl) (fun _ _ => rfl) (fun _ => rfl) fun _ _ => rfl

theorem isTransition (h : k.SameShape k') : k'.isTransition = k.isTransition :=
  h.eq (a := false) (fun _ _ => rfl) (fun _ _ => rfl) (fun _ => rfl) fun _ _ => rfl

theorem isRoot (h : k.SameShape k') : k'.isRoot = k.isRoot :=
  h.eq (a := false) (fun _ _ => rfl) (fun _ _ => rfl) (fun _ => rfl) fun _ _ => rfl

theorem initialAttribute? (h : k.SameShape k') : k'.initialAttribute? = k.initialAttribute? :=
  h.eq (a := none) (fun _ _ => rfl) (fun _ _ => rfl) (fun _ => rfl) fun _ _ => rfl

/-- Whether one node may have another as a child depends on the shapes of their kinds. -/
theorem accepts (h : k.SameShape k') (h' : l.SameShape l') : k'.accepts l' = k.accepts l := by
  have hchild : k'.accepts l' = k'.accepts l :=
    h'.eq (p := k'.accepts) (a := k'.accepts (.raise "")) (fun _ _ => rfl) (fun _ _ => rfl)
      (fun _ => rfl) fun _ _ => rfl
  rw [hchild]
  exact h.eq (p := (·.accepts l)) (a := false) (fun _ _ => rfl) (fun _ _ => rfl) (fun _ => rfl)
    fun _ _ => rfl

theorem fitsUnder (h : k.SameShape k') (h' : l.SameShape l') : l'.fitsUnder k' = l.fitsUnder k := by
  have hchild : l'.fitsUnder k' = l.fitsUnder k' :=
    h'.eq (p := (·.fitsUnder k')) (a := (Kind.raise "").fitsUnder k') (fun _ _ => rfl)
      (fun _ _ => rfl) (fun _ => rfl) fun _ _ => rfl
  rw [hchild]
  exact h.eq (p := l.fitsUnder) (a := false) (fun _ _ => by cases l <;> rfl)
    (fun _ _ => by cases l <;> rfl) (fun _ => by cases l <;> rfl) fun _ _ => by cases l <;> rfl

end Kind.SameShape

namespace Model

/-- Two models with the same tree of nodes, whose kinds are of the same shape. -/
structure SameShape (m m' : Model) : Prop where
  size : m'.size = m.size
  root? : m'.root? = m.root?
  parent? (i : Nat) : m'.parent? i = m.parent? i
  children (i : Nat) : m'.children i = m.children i
  kind {i : Nat} {k : Kind} : m.kind? i = some k → ∃ k', m'.kind? i = some k' ∧ k.SameShape k'
  index : m'.index = m.index
  transitions : m'.transitions = m.transitions

variable {m m' : Model} {i r t s : Nat} {required required' : List Nat}

theorem SameShape.refl (m : Model) : m.SameShape m where
  size := rfl
  root? := rfl
  parent? _ := rfl
  children _ := rfl
  kind hk := ⟨_, hk, .refl _⟩
  index := rfl
  transitions := rfl

namespace SameShape

theorem getTarget? (h : m.SameShape m') (id : String) : m'.getTarget? id = m.getTarget? id := by
  rw [Model.getTarget?, Model.getTarget?, h.index]

theorem source? (h : m.SameShape m') (t : Nat) : m'.source? t = m.source? t := h.parent? t

theorem kind?_cases (h : m.SameShape m') (i : Nat) :
    m.kind? i = none ∧ m'.kind? i = none ∨
      ∃ k k', m.kind? i = some k ∧ m'.kind? i = some k' ∧ k.SameShape k' := by
  cases hk : m.kind? i with
  | none =>
    refine .inl ⟨rfl, ?_⟩
    cases hk' : m'.kind? i with
    | none => rfl
    | some k' =>
      have hlt : i < m.size := h.size ▸ lt_size_of_kind? hk'
      obtain ⟨k, hk''⟩ := exists_kind? hlt
      cases hk.symm.trans hk''
  | some k =>
    obtain ⟨k', hk', hshape⟩ := h.kind hk
    exact .inr ⟨k, k', rfl, hk', hshape⟩

/-! ### The tree -/

theorem hasKind (h : m.SameShape m') {p : Kind → Bool}
    (hp : ∀ {k k' : Kind}, k.SameShape k' → p k' = p k) (i : Nat) :
    m'.hasKind p i = m.hasKind p i := by
  unfold Model.hasKind
  rcases h.kind?_cases i with ⟨hk, hk'⟩ | ⟨k, k', hk, hk', hshape⟩
  · rw [hk, hk']
  · rw [hk, hk', Option.any_some, Option.any_some, hp hshape]

theorem childrenOfKind (h : m.SameShape m') {p : Kind → Bool}
    (hp : ∀ {k k' : Kind}, k.SameShape k' → p k' = p k) (i : Nat) :
    m'.childrenOfKind p i = m.childrenOfKind p i := by
  rw [Model.childrenOfKind, Model.childrenOfKind, h.children]
  exact List.filter_congr fun c _ => h.hasKind hp c

theorem isState (h : m.SameShape m') (i : Nat) : m'.isState i = m.isState i :=
  h.hasKind Kind.SameShape.isState i

theorem isParallel (h : m.SameShape m') (i : Nat) : m'.isParallel i = m.isParallel i :=
  h.hasKind Kind.SameShape.isParallel i

theorem childStates (h : m.SameShape m') (i : Nat) : m'.childStates i = m.childStates i :=
  h.childrenOfKind Kind.SameShape.isState i

theorem transitionsOf (h : m.SameShape m') (i : Nat) : m'.transitionsOf i = m.transitionsOf i :=
  h.childrenOfKind Kind.SameShape.isTransition i

theorem isCompound (h : m.SameShape m') (i : Nat) : m'.isCompound i = m.isCompound i := by
  rw [Model.isCompound, Model.isCompound, Model.isAtomic, Model.isAtomic, h.isState, h.childStates,
    h.hasKind Kind.SameShape.isSequential]

theorem isRoot (h : m.SameShape m') (i : Nat) : m'.isRoot i = m.isRoot i := by
  rw [Model.isRoot, Model.isRoot, h.root?]

theorem ancestors (h : m.SameShape m') (i : Nat) : m'.ancestors i = m.ancestors i := by
  induction i using Nat.strongRecOn with
  | ind i ih =>
    rw [Model.ancestors, Model.ancestors, h.parent?]
    cases m.parent? i with
    | none => rfl
    | some p =>
      by_cases hp : p < i
      · simp only [if_pos hp, ih p hp]
      · simp only [if_neg hp]

theorem isBelow (h : m.SameShape m') (i a : Nat) : m'.isBelow i a = m.isBelow i a := by
  rw [Model.isBelow, Model.isBelow, h.ancestors]

/-! ### Transitions -/

theorem transition?_cases (h : m.SameShape m') (t : Nat) :
    m.transition? t = none ∧ m'.transition? t = none ∨
      ∃ tr tr', m.transition? t = some tr ∧ m'.transition? t = some tr' ∧ tr'.type = tr.type ∧
        tr'.targets.Perm tr.targets := by
  unfold Model.transition?
  rcases h.kind?_cases t with ⟨hk, hk'⟩ | ⟨k, k', hk, hk', hshape⟩
  · exact .inl ⟨by rw [hk]; rfl, by rw [hk']; rfl⟩
  · rw [hk, hk', Option.bind_some, Option.bind_some]
    cases hshape with
    | refl =>
      cases htr : k.transition? with
      | none => exact .inl ⟨rfl, rfl⟩
      | some tr => exact .inr ⟨tr, tr, rfl, rfl, rfl, .refl _⟩
    | transition type targets => exact .inr ⟨_, _, rfl, rfl, type, targets⟩
    | action hk hk' =>
      have hnone : ∀ k : Kind, k.isAction → k.transition? = none := fun k =>
        Kind.SameShape.eq_of_isAction (fun _ _ => rfl) (fun _ => rfl) fun _ _ => rfl
      exact .inl ⟨hnone k hk, hnone k' hk'⟩

theorem resolvedTargets_perm (h : m.SameShape m') (t : Nat) :
    (m'.resolvedTargets t).Perm (m.resolvedTargets t) := by
  unfold Model.resolvedTargets
  rcases h.transition?_cases t with ⟨htr, htr'⟩ | ⟨tr, tr', htr, htr', -, htargets⟩
  · rw [htr, htr']
  · rw [htr, htr']
    dsimp only
    rw [funext h.getTarget?]
    exact htargets.filterMap _

theorem lcca (h : m.SameShape m') (states : List Nat) : m'.lcca states = m.lcca states := by
  cases states with
  | nil => rfl
  | cons first rest =>
    simp only [Model.lcca, h.ancestors, h.isCompound, h.isRoot, h.isBelow]

/-- A transition has the same domain in both models. -/
theorem domain? (h : m.SameShape m') (hm : m.WellFormed) (t : Nat) :
    m'.domain? t = m.domain? t := by
  have hperm := h.resolvedTargets_perm t
  have hnil : m'.resolvedTargets t = [] ↔ m.resolvedTargets t = [] := by
    rw [← List.length_eq_zero_iff, ← List.length_eq_zero_iff, hperm.length_eq]
  rw [domain?_eq, domain?_eq, h.source?]
  rcases h.transition?_cases t with ⟨htr, htr'⟩ | ⟨tr, tr', htr, htr', htype, -⟩
  · rw [htr, htr']
  · rw [htr, htr']
    cases m.source? t with
    | none => rfl
    | some s =>
      have hlcca : m.lcca (s :: m'.resolvedTargets t) = m.lcca (s :: m.resolvedTargets t) := by
        apply hm.lcca_congr
        intro x
        rw [List.mem_cons, List.mem_cons, hperm.mem_iff]
      simp only [hnil, htype, h.isCompound, h.isBelow, hperm.mem_iff, h.lcca, hlcca]

end SameShape

/-! ### Closures -/

/-- Models of one shape are well formed together. -/
theorem WellFormed.of_sameShape (hm : m.WellFormed) (h : m.SameShape m') : m'.WellFormed where
  root?_eq_some_iff := by
    intro i
    rw [h.root?, h.size]
    exact hm.root?_eq_some_iff
  parent_lt hp := hm.parent_lt (h.parent? _ ▸ hp)
  eq_zero_of_parent hi hp := hm.eq_zero_of_parent (h.size ▸ hi) (h.parent? _ ▸ hp)
  mem_children := by
    intro c p
    rw [h.children, h.parent?]
    exact hm.mem_children
  sorted_children p := by
    rw [h.children]
    exact hm.sorted_children p
  isRoot_iff := by
    intro i k' hk'
    rcases h.kind?_cases i with ⟨-, hnone⟩ | ⟨k, l, hk, hl, hshape⟩
    · cases hnone.symm.trans hk'
    · cases hl.symm.trans hk'
      rw [hshape.isRoot]
      exact hm.isRoot_iff hk
  fits := by
    intro c p child' parent' hp hc' hp'
    rw [h.parent?] at hp
    rcases h.kind?_cases c with ⟨-, hnone⟩ | ⟨child, l, hc, hl, hchild⟩
    · cases hnone.symm.trans hc'
    · rcases h.kind?_cases p with ⟨-, hnone⟩ | ⟨parent, l', hpk, hl', hparent⟩
      · cases hnone.symm.trans hp'
      · cases hl.symm.trans hc'
        cases hl'.symm.trans hp'
        rw [hparent.accepts hchild, hparent.fitsUnder hchild]
        exact hm.fits hp hc hpk
  isState_of_mem := by
    intro id i hmem
    rw [h.index] at hmem
    rw [h.isState]
    exact hm.isState_of_mem hmem
  mem_transitions := by
    intro i hi
    rw [h.hasKind Kind.SameShape.isTransition] at hi
    rw [h.transitions]
    exact hm.mem_transitions hi
  initial_target := by
    intro i e tr' hp he htr'
    rw [h.parent?] at hp
    rw [h.hasKind Kind.SameShape.isInitial] at he
    rcases h.transition?_cases i with ⟨-, hnone⟩ | ⟨tr, l, htr, hl, -, htargets⟩
    · cases hnone.symm.trans htr'
    · cases hl.symm.trans htr'
      have hne := hm.initial_target hp he htr
      intro hnil
      rw [hnil, List.nil_perm] at htargets
      exact hne htargets

namespace SameShape

theorem initialAttribute? (h : m.SameShape m') (i : Nat) :
    (m'.kind? i).bind Kind.initialAttribute? = (m.kind? i).bind Kind.initialAttribute? := by
  rcases h.kind?_cases i with ⟨hk, hk'⟩ | ⟨k, k', hk, hk', hshape⟩
  · rw [hk, hk']
  · rw [hk, hk', Option.bind_some, Option.bind_some, hshape.initialAttribute?]

theorem mem_defaultTargets (h : m.SameShape m') :
    r ∈ m'.defaultTargets i ↔ r ∈ m.defaultTargets i := by
  unfold Model.defaultTargets
  rw [h.childrenOfKind Kind.SameShape.isInitial, funext h.transitionsOf, h.initialAttribute?,
    funext h.getTarget?, h.childStates]
  split
  · exact (h.resolvedTargets_perm _).mem_iff
  · exact Iff.rfl

/-- Only which states are required matters to what is wanted. -/
theorem mem_wanted (h : m.SameShape m') (hsame : ∀ r, r ∈ required' ↔ r ∈ required) :
    r ∈ m'.wanted i required' ↔ r ∈ m.wanted i required := by
  have hnil : required' = [] ↔ required = [] := by
    simp only [List.eq_nil_iff_forall_not_mem, hsame]
  unfold wanted
  rw [h.isParallel]
  by_cases hd : m.isParallel i ∨ required ≠ []
  · rw [if_pos hd, if_pos (hd.imp_right (mt hnil.1))]
    exact hsame r
  · rw [if_neg hd, if_neg (mt (Or.imp_right (mt hnil.2)) hd)]
    exact h.mem_defaultTargets

/-- A node has the same closure in both models, whatever the order of the required states. -/
theorem enterClosure (h : m.SameShape m') (hm : m.WellFormed)
    (hsame : ∀ r, r ∈ required' ↔ r ∈ required) :
    m'.enterClosure i required' = m.enterClosure i required := by
  -- Induction on the distance to the last node: a closure is made of closures of later nodes.
  induction hn : m.size - i using Nat.strongRecOn generalizing i required required' with
  | ind k ih =>
    have hwanted : ∀ r, r ∈ m'.wanted i required' ↔ r ∈ m.wanted i required :=
      fun _ => h.mem_wanted hsame
    refine NodeSet.ext fun x => ?_
    rw [(hm.of_sameShape h).mem_enterClosure, hm.mem_enterClosure, h.childStates]
    refine exists_congr fun c => and_congr_right fun hc => ?_
    have henters : m'.Enters i required' c ↔ m.Enters i required c := by
      simp only [Enters, Within, hwanted, h.isParallel, h.isBelow]
    have hlater := hm.childState_range hc
    have hbelow : ∀ r, r ∈ (m'.wanted i required').filter (m'.isBelow · c) ↔
        r ∈ (m.wanted i required).filter (m.isBelow · c) := by
      simp only [List.mem_filter, hwanted, h.isBelow, implies_true]
    rw [henters, ih (m.size - c) (by omega) hbelow rfl]

end SameShape

/-! ### Writing targets in another order -/

/-- A model in which a transition names other targets. -/
def withTargets (m : Model) (t : Nat) (targets : List String) : Model :=
  { m with nodes := m.nodes.modify t fun n => { n with kind := n.kind.withTargets targets } }

theorem node?_withTargets (m : Model) (t i : Nat) (targets : List String) :
    (m.withTargets t targets).node? i = (m.node? i).map fun n =>
      if t = i then { n with kind := n.kind.withTargets targets } else n := by
  simp only [node?, withTargets, Array.getElem?_modify]
  split
  · rfl
  · simp

/-- Writing the targets of a transition in another order leaves a model of the same shape. -/
theorem sameShape_withTargets {tr : Transition} {targets : List String}
    (ht : m.transition? t = some tr) (hperm : targets.Perm tr.targets) :
    m.SameShape (m.withTargets t targets) where
  size := by simp [size, withTargets]
  root? := rfl
  parent? i := by
    simp only [Model.parent?, node?_withTargets]
    cases m.node? i with
    | none => rfl
    | some n => simp only [Option.map_some, Option.bind_some]; split <;> rfl
  children i := by
    simp only [Model.children, node?_withTargets]
    cases m.node? i with
    | none => rfl
    | some n => simp only [Option.map_some]; split <;> rfl
  kind := by
    intro i k hk
    obtain ⟨n, hn, rfl⟩ := Option.map_eq_some_iff.1 hk
    simp only [kind?, node?_withTargets, hn, Option.map_some, Option.some.injEq, exists_eq_left']
    by_cases hti : t = i
    · subst hti
      have htr : n.kind.transition? = some tr := by
        simpa [transition?, kind?, hn] using ht
      rw [if_pos rfl]
      cases hkind : n.kind <;> rw [hkind] at htr <;> cases htr
      exact .transition rfl hperm
    · rw [if_neg hti]
      exact .refl _
  index := rfl
  transitions := rfl

end Model

end Statechart
