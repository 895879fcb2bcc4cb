import Mathlib.Data.List.Nodup
import Statechart.Proofs.Model.WellFormed
import Statechart.Proofs.Text.Words

/-!
# The parts of a model agree

A model keeps its tree in five places: the nodes with their parents, the number of the root, the
lists of children, the index of ids and the list of transitions.  Additions of nodes keep them in
agreement, whatever is added where, and refused additions among them.

* `Model.key`: the key under which a state is found;
* `Model.Consistent`: what the parts of a model have to do with each other;
* `Built.index_eq`, `Built.nodup_keys`, `Built.transitions_eq`: the index and the list of
  transitions say again what the nodes say, and no key stands for two states;
* `Built.length_initials_le_one`, `Built.initials_of_attribute`, `Built.initial_transition`: what a
  node enters by default is said once, and without conditions;
* `Model.attempt`: an addition that may be refused; `attemptAll_consistent`: models are consistent
  after any attempts, of which each adds the next node or changes nothing.
-/

namespace Statechart.Model

/-- The key under which a state is found: its id, or a mark with its number if it has none. -/
def key (m : Model) (i : Nat) : String :=
  ((m.node? i).bind Node.id).getD (anonymousMark ++ toString i)

/-- The elements among the children of a node that say what it enters by default. -/
def initials (m : Model) : Nat → List Nat := m.childrenOfKind Kind.isInitial

/-- How the parts of a model agree. -/
structure Consistent (m : Model) : Prop where
  /-- The first node is the root, and it is one of its kind. -/
  root : 0 < m.size → m.root? = some 0 ∧ m.parent? 0 = none ∧ m.hasKind Kind.isRoot 0
  rootless : m.size = 0 → m.root? = none
  eq_zero_of_isRoot {i : Nat} : m.hasKind Kind.isRoot i → i = 0
  /-- Every other node has a parent, with a smaller number. -/
  parent {i : Nat} : i < m.size → i ≠ 0 → ∃ p, m.parent? i = some p ∧ p < i
  /-- The children of a node are the nodes whose parent it is, in document order. -/
  children (p : Nat) : m.children p = m.nodeIds.filter fun c => m.parent? c = some p
  /-- A parent and its child accept each other. -/
  fits {c p : Nat} : m.parent? c = some p → ∃ child parent, m.kind? c = some child ∧
    m.kind? p = some parent ∧ parent.accepts child ∧ child.fitsUnder parent
  /-- The index lists the states, each under its key, and no key stands for two of them. -/
  index : m.index = (m.nodeIds.filter m.isState).map fun i => (m.key i, i)
  key_inj {i j : Nat} : m.isState i → m.isState j → m.key i = m.key j → i = j
  getTarget? {id : String} {i : Nat} : m.getTarget? id = some i ↔ m.isState i ∧ m.key i = id
  /-- The list of transitions holds the transitions, in document order. -/
  transitions : m.transitions = m.nodeIds.filter (m.hasKind Kind.isTransition)
  /-- What a node enters by default is said once. -/
  attr {i : Nat} {k : Kind} : m.kind? i = some k → k.initialAttribute? ≠ none → m.initials i = []
  initials (i : Nat) : (m.initials i).length ≤ 1
  /-- It is said by one transition, which is always taken and does nothing else. -/
  initial {e : Nat} : m.hasKind Kind.isInitial e → (m.children e).length ≤ 1 ∧
    ∀ t ∈ m.children e, m.children t = [] ∧ ∃ tr, m.transition? t = some tr ∧
      tr.isEventless ∧ tr.cond = none ∧ tr.targets ≠ []

variable {m m' : Model} {d : Declaration} {parent : Option Nat} {i : Nat}

/-! ### Lists of nodes -/

theorem transitions_insertNode : (m.insertNode d parent).transitions =
    m.transitions ++ if d.kind.isTransition then [m.size] else [] := by
  simp only [insertNode]
  split <;> simp

theorem index_insertNode : (m.insertNode d parent).index =
    m.index ++ if d.kind.isState then [(keyOf d m.size, m.size)] else [] := by
  simp only [insertNode]
  split <;> simp

theorem nodeIds_insertNode : (m.insertNode d parent).nodeIds = m.nodeIds ++ [m.size] := by
  rw [nodeIds, size_insertNode, List.range_succ, nodeIds]

theorem lt_size_of_mem_nodeIds (h : i ∈ m.nodeIds) : i < m.size := List.mem_range.1 h

theorem filter_nodeIds_insertNode (q : Kind → Bool) :
    (m.insertNode d parent).nodeIds.filter ((m.insertNode d parent).hasKind q) =
      m.nodeIds.filter (m.hasKind q) ++ if q d.kind then [m.size] else [] := by
  have hold : m.nodeIds.filter ((m.insertNode d parent).hasKind q) =
      m.nodeIds.filter (m.hasKind q) :=
    List.filter_congr fun i hi => by
      rw [hasKind_insertNode, if_neg (Nat.ne_of_lt (lt_size_of_mem_nodeIds hi))]
  rw [nodeIds_insertNode, List.filter_append, hold, List.filter_cons, List.filter_nil,
    hasKind_insertNode, if_pos rfl]

/-- The children of a node are listed in document order. -/
theorem WellFormed.children_eq (hm : m.WellFormed) (p : Nat) :
    m.children p = m.nodeIds.filter fun c => m.parent? c = some p := by
  refine NodeSet.eq_of_sorted (hm.sorted_children p) (List.pairwise_lt_range.filter _) fun c => ?_
  rw [hm.mem_children, List.mem_filter, decide_eq_true_eq, nodeIds, List.mem_range]
  exact ⟨fun h => ⟨lt_size_of_parent? h, h⟩, And.right⟩

theorem Built.transitions_eq (h : m.Built) :
    m.transitions = m.nodeIds.filter (m.hasKind Kind.isTransition) := by
  induction h with
  | empty => rfl
  | add _ added ih =>
    obtain ⟨-, -, rfl⟩ := addNode_cases added
    rw [filter_nodeIds_insertNode, ← ih, transitions_insertNode]

/-! ### Keys -/

theorem key_insertNode (hi : i < m.size) : (m.insertNode d parent).key i = m.key i := by
  unfold key
  rw [node?_insertNode, if_neg (Nat.ne_of_lt hi)]
  cases m.node? i with
  | none => rfl
  | some n => simp only [Option.map_some, Option.bind_some]; split <;> rfl

theorem key_size_insertNode : (m.insertNode d parent).key m.size = keyOf d m.size := by
  unfold key
  rw [node?_insertNode, if_pos rfl]
  rfl

/-- The index lists the states under their keys. -/
theorem Built.index_eq (h : m.Built) :
    m.index = (m.nodeIds.filter m.isState).map fun i => (m.key i, i) := by
  induction h with
  | empty => rfl
  | @add m m' d parent before added ih =>
    obtain ⟨-, -, rfl⟩ := addNode_cases added
    have hold : (m.nodeIds.filter m.isState).map (fun i => ((m.insertNode d parent).key i, i)) =
        m.index := by
      rw [ih]
      refine List.map_congr_left fun i hi => ?_
      rw [key_insertNode (lt_size_of_mem_nodeIds (List.mem_filter.1 hi).1)]
    unfold isState at hold ⊢
    rw [filter_nodeIds_insertNode, List.map_append, hold, index_insertNode]
    split
    · rw [List.map_singleton, key_size_insertNode]
    · rfl

/-- What an addition checks of the id of a state. -/
theorem checkId_cases (h : m.checkId d = .ok ()) (hs : d.kind.isState) {id : String}
    (hid : d.id = some id) :
    ¬ anonymousMark.toList.isPrefixOf id.toList ∧ m.getTarget? id = none := by
  simp only [checkId, hid, hs, not_true_eq_false, if_false] at h
  split at h
  · cases h
  · next hmark =>
    split at h
    · cases h
    · next hnew => exact ⟨hmark, by simpa using hnew⟩

/-- No id of a state looks like the key of a state that has none. -/
theorem Built.not_marked (h : m.Built) (hs : m.isState i) {n : Node} (hn : m.node? i = some n)
    {id : String} (hid : n.id = some id) : ¬ anonymousMark.toList.isPrefixOf id.toList := by
  induction h generalizing n with
  | empty => simp [node?, Model.empty] at hn
  | @add m m' d parent before added ih =>
    obtain ⟨-, hcheck, rfl⟩ := addNode_cases added
    rw [isState, hasKind_insertNode] at hs
    rw [node?_insertNode] at hn
    split at hs
    · next hi =>
      rw [if_pos hi] at hn
      cases hn
      exact (checkId_cases hcheck hs hid).1
    · next hi =>
      rw [if_neg hi] at hn
      obtain ⟨n', hn', rfl⟩ := Option.map_eq_some_iff.1 hn
      refine ih hs hn' ?_
      split at hid <;> exact hid

theorem isPrefixOf_mark (s : String) :
    anonymousMark.toList.isPrefixOf (anonymousMark ++ s).toList := by
  rw [String.toList_append, List.isPrefixOf_iff_prefix]
  exact List.prefix_append _ _

/-- A state with the key of one that has no id has none itself, and the same number. -/
theorem Built.eq_of_key_eq_mark (h : m.Built) (hs : m.isState i) {j : Nat}
    (hkey : m.key i = anonymousMark ++ toString j) : i = j := by
  obtain ⟨n, hn⟩ : ∃ n, m.node? i = some n := by
    obtain ⟨k, hk, -⟩ := hasKind_iff.1 hs
    obtain ⟨n, hn, -⟩ := Option.map_eq_some_iff.1 hk
    exact ⟨n, hn⟩
  simp only [key, hn, Option.bind_some] at hkey
  cases hid : n.id with
  | none =>
    rw [hid] at hkey
    exact Text.toString_injective ((String.append_right_inj anonymousMark).1 hkey)
  | some id =>
    rw [hid, Option.getD_some] at hkey
    exact absurd (hkey ▸ isPrefixOf_mark (toString j)) (h.not_marked hs hn hid)

theorem getTarget?_eq_none_iff {id : String} :
    m.getTarget? id = none ↔ id ∉ m.index.map Prod.fst := by
  rw [getTarget?, List.lookup_eq_none_iff, List.mem_map]
  constructor
  · rintro h ⟨q, hq, rfl⟩
    simpa using h q hq
  · exact fun h q hq => bne_iff_ne.2 fun heq => h ⟨q, hq, heq.symm⟩

/-- The key of a new state is new. -/
theorem Built.keyOf_not_mem (h : m.Built) (hs : d.kind.isState) (hcheck : m.checkId d = .ok ()) :
    keyOf d m.size ∉ m.index.map Prod.fst := by
  cases hid : d.id with
  | some id =>
    obtain ⟨-, hnone⟩ := checkId_cases hcheck hs hid
    rw [keyOf, hid, Option.getD_some]
    exact getTarget?_eq_none_iff.1 hnone
  | none =>
    rw [keyOf, hid, Option.getD_none, h.index_eq, List.map_map]
    intro hmem
    obtain ⟨i, hi, hkey⟩ := List.mem_map.1 hmem
    obtain ⟨hlt, hstate⟩ := List.mem_filter.1 hi
    exact Nat.ne_of_lt (lt_size_of_mem_nodeIds hlt) (h.eq_of_key_eq_mark hstate hkey)

theorem Built.nodup_keys (h : m.Built) : (m.index.map Prod.fst).Nodup := by
  induction h with
  | empty => exact List.nodup_nil
  | @add m m' d parent before added ih =>
    obtain ⟨-, hcheck, rfl⟩ := addNode_cases added
    rw [index_insertNode, List.map_append]
    split
    · next hs =>
      refine List.nodup_append.2 ⟨ih, List.nodup_singleton _, ?_⟩
      rintro key hkey _ hnew rfl
      obtain rfl := List.mem_singleton.1 hnew
      exact before.keyOf_not_mem hs hcheck hkey
    · rw [List.map_nil, List.append_nil]
      exact ih

theorem lookup_eq_some_iff_of_nodup {l : List (String × Nat)} (h : (l.map Prod.fst).Nodup)
    {id : String} : l.lookup id = some i ↔ (id, i) ∈ l := by
  induction l with
  | nil => simp
  | cons p l ih =>
    obtain ⟨key, j⟩ := p
    rw [List.map_cons, List.nodup_cons] at h
    rw [List.lookup_cons, List.mem_cons, Prod.mk.injEq]
    by_cases heq : id = key
    · have hnot : (id, i) ∉ l := fun hmem =>
        h.1 (heq ▸ List.mem_map.2 ⟨_, hmem, rfl⟩)
      simp [heq, heq ▸ hnot, eq_comm]
    · rw [beq_false_of_ne heq]
      simpa [heq] using ih h.2

theorem Built.getTarget?_eq_some_iff (h : m.Built) {id : String} :
    m.getTarget? id = some i ↔ m.isState i ∧ m.key i = id := by
  rw [Model.getTarget?, lookup_eq_some_iff_of_nodup h.nodup_keys, h.index_eq, List.mem_map]
  constructor
  · rintro ⟨j, hj, heq⟩
    cases heq
    exact ⟨(List.mem_filter.1 hj).2, rfl⟩
  · rintro ⟨hs, rfl⟩
    refine ⟨i, List.mem_filter.2 ⟨List.mem_range.2 ?_, hs⟩, rfl⟩
    obtain ⟨k, hk, -⟩ := hasKind_iff.1 hs
    exact lt_size_of_kind? hk

/-! ### What a node enters by default -/

/-- What an addition checks beyond the kinds. -/
structure InitialCheck (m : Model) (kind : Kind) (p : Nat) (n : Node) : Prop where
  element : kind.isInitial → n.kind.initialAttribute? = none ∧ m.initials p = []
  transition {t : Transition} : kind = .transition t → n.kind.isInitial →
    n.children = [] ∧ t.isEventless ∧ t.cond = none ∧ t.targets ≠ []
  action : kind.isAction → n.kind.isTransition → ¬ n.parent.any (m.hasKind Kind.isInitial)

theorem initialCheck_of_checkInitial {kind : Kind} {p : Nat} {n : Node}
    (h : m.checkInitial kind p n = .ok ()) : m.InitialCheck kind p n := by
  cases kind with
  | initial =>
    refine ⟨fun _ => ?_, fun ht => (by cases ht), fun ha => (by cases ha)⟩
    simp only [checkInitial] at h
    split at h
    · cases h
    · next hattr =>
      split at h
      · next hempty => exact ⟨hattr, by simpa [initials] using hempty⟩
      · cases h
  | transition t =>
    refine ⟨fun hi => (by cases hi), fun ht hi => ?_, fun ha => (by cases ha)⟩
    cases ht
    have htargets := targets_ne_nil_of_checkInitial hi h
    simp only [checkInitial, hi, if_true] at h
    split at h
    · cases h
    · next hchildren =>
      split at h
      · cases h
      · next hevent =>
        split at h
        · cases h
        · next hcond =>
          exact ⟨by simpa using hchildren, by simpa using hevent, by simpa using hcond, htargets⟩
  | log | raise | assign =>
    refine ⟨fun hi => (by cases hi), fun ht => (by cases ht), fun _ ht hi => ?_⟩
    simp [checkInitial, Kind.isAction, ht, hi] at h
  | scxml | state | parallel | final | onEntry | onExit =>
    exact ⟨fun hi => (by cases hi), fun ht => (by cases ht), fun ha => (by cases ha)⟩

theorem childrenOfKind_insertNode (hm : m.WellFormed) (hp : m.Place d.kind parent)
    (q : Kind → Bool) (i : Nat) :
    (m.insertNode d parent).childrenOfKind q i =
      m.childrenOfKind q i ++ if parent = some i ∧ q d.kind then [m.size] else [] := by
  have hold : (m.children i).filter ((m.insertNode d parent).hasKind q) = m.childrenOfKind q i :=
    List.filter_congr fun c hc => by
      rw [hasKind_insertNode, if_neg (Nat.ne_of_lt (lt_size_of_parent? (hm.mem_children.1 hc)))]
  rw [childrenOfKind, children_insertNode hp.lt_size_of_eq]
  by_cases hpar : parent = some i
  · rw [if_pos hpar, List.filter_append, hold, List.filter_cons, List.filter_nil,
      hasKind_insertNode, if_pos rfl]
    simp [hpar]
  · rw [if_neg hpar, hold]
    simp [hpar]

/-- A node that is added is no parent yet. -/
theorem children_size_insertNode (hp : m.Place d.kind parent) :
    (m.insertNode d parent).children m.size = [] := by
  rw [children_insertNode hp.lt_size_of_eq]
  have hne : parent ≠ some m.size := fun h => Nat.lt_irrefl _ (hp.lt_size_of_eq _ h)
  rw [if_neg hne, Model.children, node?_eq_none_iff.2 (Nat.le_refl _)]

theorem Built.length_initials_le_one (h : m.Built) (i : Nat) : (m.initials i).length ≤ 1 := by
  induction h with
  | empty => simp [initials, childrenOfKind, Model.children, node?, Model.empty]
  | @add m m' d parent before added ih =>
    obtain ⟨place, -, rfl⟩ := addNode_cases added
    rw [initials, childrenOfKind_insertNode before.wellFormed place]
    split
    · next hnew =>
      obtain ⟨rfl, hi⟩ := hnew
      cases place with
      | under hn _ _ _ hcheck =>
        have hnone := ((initialCheck_of_checkInitial hcheck).element hi).2
        rw [initials] at hnone
        simp [hnone]
    · simpa [initials] using ih

/-- A node with an `initial` attribute has no initial element. -/
theorem Built.initials_of_attribute (h : m.Built) {k : Kind} (hk : m.kind? i = some k)
    (hattr : k.initialAttribute? ≠ none) : m.initials i = [] := by
  induction h with
  | empty => simp [kind?, node?, Model.empty] at hk
  | @add m m' d parent before added ih =>
    obtain ⟨place, -, rfl⟩ := addNode_cases added
    rw [kind?_insertNode] at hk
    by_cases hi : i = m.size
    · rw [hi, initials, childrenOfKind, children_size_insertNode place]
      rfl
    · rw [if_neg hi] at hk
      have hold := ih hk
      rw [initials] at hold ⊢
      rw [childrenOfKind_insertNode before.wellFormed place, hold]
      split
      · next hnew =>
        -- The addition would have been refused.
        obtain ⟨rfl, hinit⟩ := hnew
        cases place with
        | under hn _ _ _ hcheck =>
          rw [kind?, hn] at hk
          cases hk
          exact absurd ((initialCheck_of_checkInitial hcheck).element hinit).1 hattr
      · rfl

/-- What lies under an initial element is a transition. -/
theorem WellFormed.isTransition_of_initial (hm : m.WellFormed) {e t : Nat}
    (he : m.hasKind Kind.isInitial e) (ht : m.parent? t = some e) :
    ∃ tr, m.kind? t = some (.transition tr) := by
  obtain ⟨k, hk, hi⟩ := hasKind_iff.1 he
  obtain ⟨k', hk'⟩ := exists_kind? (lt_size_of_parent? ht)
  have hfits := (hm.fits ht hk' hk).1
  cases k <;> simp_all [Kind.isInitial]
  cases k' <;> simp_all [Kind.accepts, Kind.isTransition]

theorem Built.length_children_initial_le_one (h : m.Built) {e : Nat}
    (he : m.hasKind Kind.isInitial e) : (m.children e).length ≤ 1 := by
  induction h with
  | empty => simp [Model.children, node?, Model.empty]
  | @add m m' d parent before added ih =>
    obtain ⟨place, -, rfl⟩ := addNode_cases added
    rw [hasKind_insertNode] at he
    by_cases hes : e = m.size
    · rw [hes, children_size_insertNode place]
      exact Nat.zero_le 1
    · rw [if_neg hes] at he
      rw [children_insertNode place.lt_size_of_eq]
      split
      · next hpar =>
        subst hpar
        obtain ⟨tr, htr⟩ := (before.wellFormed.insertNode place).isTransition_of_initial
          (e := e) (t := m.size) (by rwa [hasKind_insertNode, if_neg hes])
          (by rw [parent?_insertNode, if_pos rfl])
        rw [kind?_insertNode, if_pos rfl, Option.some.injEq] at htr
        cases place with
        | under hn _ _ _ hcheck =>
          simp only [hasKind, kind?, hn, Option.map_some, Option.any_some] at he
          have hnone := ((initialCheck_of_checkInitial hcheck).transition htr he).1
          simp [Model.children, hn, hnone]
      · exact ih he

/-- The transition of an initial element is always taken, and does nothing but enter its targets. -/
theorem Built.initial_transition (h : m.Built) {e t : Nat} (he : m.hasKind Kind.isInitial e)
    (ht : m.parent? t = some e) : m.children t = [] ∧ ∃ tr, m.transition? t = some tr ∧
      tr.isEventless ∧ tr.cond = none ∧ tr.targets ≠ [] := by
  induction h with
  | empty => simp [parent?, node?, Model.empty] at ht
  | @add m m' d parent before added ih =>
    have hm := before.wellFormed
    obtain ⟨place, -, rfl⟩ := addNode_cases added
    obtain ⟨tr, htr⟩ := (hm.insertNode place).isTransition_of_initial he ht
    rw [hasKind_insertNode] at he
    rw [parent?_insertNode] at ht
    by_cases hts : t = m.size
    · rw [if_pos hts] at ht
      rw [hts, kind?_insertNode, if_pos rfl, Option.some.injEq] at htr
      subst ht
      rw [if_neg (Nat.ne_of_lt place.lt_size)] at he
      refine ⟨hts ▸ children_size_insertNode place, tr, ?_, ?_⟩
      · rw [transition?_insertNode, if_pos hts, htr]
        rfl
      · cases place with
        | under hn _ _ _ hcheck =>
          simp only [hasKind, kind?, hn, Option.map_some, Option.any_some] at he
          exact ((initialCheck_of_checkInitial hcheck).transition htr he).2
    · rw [if_neg hts] at ht
      have hlt : e < m.size := Nat.lt_trans (hm.parent_lt ht) (lt_size_of_parent? ht)
      rw [if_neg (Nat.ne_of_lt hlt)] at he
      rw [children_insertNode place.lt_size_of_eq, transition?_insertNode, if_neg hts]
      obtain ⟨hnone, hrest⟩ := ih he ht
      refine ⟨?_, hrest⟩
      split
      · next hpar =>
        -- Content of the transition would have been refused.
        subst hpar
        rw [kind?_insertNode, if_neg hts] at htr
        cases place with
        | under hn _ haccepts _ hcheck =>
          obtain ⟨n, hn', hkind⟩ := Option.map_eq_some_iff.1 htr
          rw [hn] at hn'
          cases hn'
          rw [hkind] at haccepts
          simp only [parent?, hn, Option.bind_some] at ht
          refine absurd ?_ ((initialCheck_of_checkInitial hcheck).action haccepts (hkind ▸ rfl))
          rw [ht, Option.any_some]
          exact he
      · exact hnone

/-! ### Attempts -/

theorem Built.consistent (h : m.Built) : m.Consistent where
  root hsize := by
    have hm := h.wellFormed
    obtain ⟨k, hk⟩ := exists_kind? hsize
    refine ⟨hm.root?_eq_some_iff.2 ⟨rfl, hsize⟩, ?_,
      hasKind_iff.2 ⟨k, hk, (hm.isRoot_iff hk).2 rfl⟩⟩
    cases hp : m.parent? 0 with
    | none => rfl
    | some p => exact absurd (hm.parent_lt hp) (Nat.not_lt_zero p)
  rootless := h.wellFormed.root?_eq_none_iff.2
  eq_zero_of_isRoot hr := by
    obtain ⟨k, hk, hroot⟩ := hasKind_iff.1 hr
    exact (h.wellFormed.isRoot_iff hk).1 hroot
  parent {i} hi h0 := by
    cases hp : m.parent? i with
    | none => exact absurd (h.wellFormed.eq_zero_of_parent hi hp) h0
    | some p => exact ⟨p, rfl, h.wellFormed.parent_lt hp⟩
  children := h.wellFormed.children_eq
  fits {c p} hp := by
    have hlt := lt_size_of_parent? hp
    obtain ⟨child, hc⟩ := exists_kind? hlt
    obtain ⟨k, hk⟩ := exists_kind? (Nat.lt_trans (h.wellFormed.parent_lt hp) hlt)
    exact ⟨child, k, hc, hk, h.wellFormed.fits hp hc hk⟩
  index := h.index_eq
  key_inj {i j} hi hj hkey :=
    Option.some.inj ((h.getTarget?_eq_some_iff.2 ⟨hi, rfl⟩).symm.trans
      (h.getTarget?_eq_some_iff.2 ⟨hj, hkey.symm⟩))
  getTarget? := h.getTarget?_eq_some_iff
  transitions := h.transitions_eq
  attr := h.initials_of_attribute
  initials := h.length_initials_le_one
  initial he := ⟨h.length_children_initial_le_one he, fun _ ht =>
    h.initial_transition he (h.wellFormed.mem_children.1 ht)⟩

/-- An attempt to add a node: the number of the new node or why there is none, and the model after
it. -/
def attempt (m : Model) (d : Declaration) (parent : Option Nat) : Except Error Nat × Model :=
  match m.addNode d parent with
  | .ok m' => (.ok m.size, m')
  | .error err => (.error err, m)

/-- The model after some attempts. -/
def attemptAll (m : Model) (attempts : List (Declaration × Option Nat)) : Model :=
  attempts.foldl (fun m a => (m.attempt a.1 a.2).2) m

/-- The model with one more node: it stands last, and its parent has one more child. -/
structure Extends (m : Model) (d : Declaration) (parent : Option Nat) (m' : Model) : Prop where
  size : m'.size = m.size + 1
  new : m'.node? m.size = some ⟨d.id, d.kind, parent, []⟩
  old {i : Nat} {n : Node} : m.node? i = some n → m'.node? i =
    some { n with children := if parent = some i then n.children ++ [m.size] else n.children }

/-- What an attempt can come to: a refusal, which changes nothing, or the next node. -/
inductive Attempted (m : Model) (d : Declaration) (parent : Option Nat) :
    Except Error Nat × Model → Prop
  | refused (err : Error) : Attempted m d parent (.error err, m)
  | added {m' : Model} : m.Extends d parent m' → Attempted m d parent (.ok m.size, m')

theorem extends_of_addNode (h : m.addNode d parent = .ok m') : m.Extends d parent m' := by
  obtain ⟨-, -, rfl⟩ := addNode_cases h
  refine ⟨size_insertNode, by rw [node?_insertNode, if_pos rfl], fun {i n} hn => ?_⟩
  rw [node?_insertNode, if_neg (Nat.ne_of_lt (lt_size_of_node? hn)), hn, Option.map_some]
  split <;> rfl

theorem attempted_attempt (m : Model) (d : Declaration) (parent : Option Nat) :
    Attempted m d parent (m.attempt d parent) := by
  unfold attempt
  split
  · next hadd => exact .added (extends_of_addNode hadd)
  · next err _ => exact .refused err

theorem Built.attempt (h : m.Built) (d : Declaration) (parent : Option Nat) :
    (m.attempt d parent).2.Built := by
  unfold Model.attempt
  split
  · next hadd => exact h.add hadd
  · exact h

theorem Built.attemptAll (h : m.Built) (attempts : List (Declaration × Option Nat)) :
    (m.attemptAll attempts).Built := by
  induction attempts generalizing m with
  | nil => exact h
  | cons a rest ih => exact ih (h.attempt a.1 a.2)

/-- After any attempts to add nodes to no nodes, refused ones among them, the parts of the model
agree, and the next attempt either is refused, and changes nothing, or adds the next node. -/
theorem attemptAll_consistent (attempts : List (Declaration × Option Nat)) :
    (empty.attemptAll attempts).Consistent ∧ ∀ d parent, Attempted (empty.attemptAll attempts) d
      parent ((empty.attemptAll attempts).attempt d parent) :=
  ⟨(Built.empty.attemptAll attempts).consistent, attempted_attempt _⟩

end Statechart.Model
