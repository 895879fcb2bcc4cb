import Statechart.Proofs.Chart.Branches
import Statechart.Proofs.Model.Consistency
import Statechart.Proofs.Model.Validity

/-!
# Flat charts

A flat chart consists of plain states, which have an id and transitions and nothing else.  It builds
if the ids can be told apart and every transition leads to one of them.

* `StateEntry.plain`, `Chart.flat`: plain states, and the chart of some of them;
* `Model.Gains`: what the addition of plain states does to a model; `exists_grow_plain`,
  `exists_growAll_plain`: they are never refused if their ids are new;
* `childStates_of_holds_plain`, `transitionsOf_of_holds_plain`: what stands below a plain state;
* `Model.validate_of_plain`: nothing is wrong with a model of plain states;
* `Chart.exists_build_flat`: the chart builds, and its model is as `Model.OfFlat` says;
* `OfFlat.exists_holds`, `OfFlat.defaultTargets_zero`: each of the states stands in the model, which
  enters the first one by default.
-/

namespace Statechart

/-! ### Plain states -/

namespace Chart

/-- A state with an id and transitions, and with nothing else in it. -/
def StateEntry.plain (id : String) (transitions : List TransitionEntry) : StateEntry :=
  ⟨some id, .state, none, [], [], [], transitions, []⟩

/-- The chart of some plain states. -/
def flat (states : List (String × List TransitionEntry)) : Chart :=
  ⟨none, none, [], states.map fun s => .plain s.1 s.2⟩

/-- A transition without actions that leads to one of some states. -/
def TransitionEntry.LeadsInto (t : TransitionEntry) (ids : List String) : Prop :=
  t.actions = [] ∧ ∃ id ∈ ids, t.target = [id]

/-- There are states, their ids can be told apart and are no keys of states without an id, and every
transition leads to one of the states. -/
structure Flat (states : List (String × List TransitionEntry)) : Prop where
  ne_nil : states ≠ []
  nodup : (states.map Prod.fst).Nodup
  unmarked : ∀ s ∈ states, ¬ Model.anonymousMark.toList.isPrefixOf s.1.toList
  named : ∀ s ∈ states, s.1 ≠ ""
  leads : ∀ s ∈ states, ∀ t ∈ s.2, t.LeadsInto (states.map Prod.fst)

/-- The branch of a transition without actions. -/
def TransitionEntry.leaf (t : TransitionEntry) : Branch :=
  .node (.ofKind (.transition t.transition)) []

/-- The branch of a plain state. -/
def plainBranch (id : String) (transitions : List TransitionEntry) : Branch :=
  .node ⟨some id, .state none⟩ (transitions.map TransitionEntry.leaf)

variable {id : String} {transitions : List TransitionEntry}

theorem branch_plain (hid : id ≠ "") (hactions : ∀ t ∈ transitions, t.actions = []) :
    (StateEntry.plain id transitions).branch = plainBranch id transitions := by
  have hleaf : transitions.map TransitionEntry.branch = transitions.map TransitionEntry.leaf :=
    List.map_congr_left fun t ht => by rw [TransitionEntry.branch, hactions t ht]; rfl
  rw [branch_eq, plainBranch, ← hleaf]
  simp [StateEntry.plain, StateEntry.own, StateEntry.root, initialBranches, blockBranches,
    Declaration.withId, Declaration.ofKind, StateType.kind, hid]

/-- Adding a plain state is growing its branch. -/
theorem addState_plain (m : Model) (p : Nat) :
    addState m p (.plain id transitions) = m.grow p (StateEntry.plain id transitions).branch := by
  have hstates : ∀ m' i, addStates m' i [] = .ok m' := fun _ _ => rfl
  rw [branch_eq, Model.grow]
  simp only [StateEntry.plain, addState, StateEntry.declaration, StateEntry.root, addOwn_eq,
    StateType.kind, List.map_nil, List.append_nil, hstates]
  cases m.add ((Declaration.ofKind (.state none)).withId ((some id).getD "")) p with
  | error e => rfl
  | ok added =>
    obtain ⟨m₁, i⟩ := added
    dsimp only
    split <;> simp_all

theorem addStates_flat (m : Model) (p : Nat) (states : List (String × List TransitionEntry)) :
    addStates m p (flat states).states =
      m.growAll p ((flat states).states.map StateEntry.branch) := by
  induction states generalizing m with
  | nil => rfl
  | cons s rest ih =>
    simp only [flat, List.map_cons, addStates, Model.growAll, addState_plain] at ih ⊢
    cases m.grow p (StateEntry.plain s.1 s.2).branch with
    | error e => rfl
    | ok m₁ => exact ih m₁

end Chart

/-! ### Adding plain states -/

namespace Model

open Chart (TransitionEntry StateEntry plainBranch)

/-- Plain states with some ids and some transitions have been added to a model. -/
structure Gains (m m' : Model) (ids : List String) (ts : List Transition) : Prop where
  kind {i : Nat} {k : Kind} : m.kind? i = some k → m'.kind? i = some k
  kind_cases {i : Nat} {k : Kind} : m'.kind? i = some k →
    m.kind? i = some k ∨ k = .state none ∨ ∃ t ∈ ts, k = .transition t
  keys : m'.index.map Prod.fst = m.index.map Prod.fst ++ ids

variable {m m' m'' : Model} {d : Declaration} {p : Nat} {id : String} {ids ids' : List String}
  {t : Transition} {ts ts' : List Transition} {transitions : List TransitionEntry}

theorem Gains.refl (m : Model) : Gains m m [] [] where
  kind := id
  kind_cases := .inl
  keys := (List.append_nil _).symm

theorem Gains.trans (h : Gains m m' ids ts) (h' : Gains m' m'' ids' ts') :
    Gains m m'' (ids ++ ids') (ts ++ ts') where
  kind hk := h'.kind (h.kind hk)
  kind_cases hk := by
    rcases h'.kind_cases hk with hk | rfl | ⟨t, ht, rfl⟩
    · rcases h.kind_cases hk with hk | rfl | ⟨t, ht, rfl⟩
      · exact .inl hk
      · exact .inr (.inl rfl)
      · exact .inr (.inr ⟨t, List.mem_append_left _ ht, rfl⟩)
    · exact .inr (.inl rfl)
    · exact .inr (.inr ⟨t, List.mem_append_right _ ht, rfl⟩)
  keys := by rw [h'.keys, h.keys, List.append_assoc]

/-- One node has been added. -/
theorem gains_insertNode (hkind : d.kind = .state none ∨ ∃ t ∈ ts, d.kind = .transition t)
    (hids : (if d.kind.isState then [keyOf d m.size] else []) = ids) :
    Gains m (m.insertNode d (some p)) ids ts where
  kind hk := by rw [kind?_insertNode, if_neg (Nat.ne_of_lt (lt_size_of_kind? hk)), hk]
  kind_cases hk := by
    rw [kind?_insertNode] at hk
    split at hk
    · cases hk
      exact .inr hkind
    · exact .inl hk
  keys := by
    rw [index_insertNode, List.map_append, ← hids]
    split <;> rfl

theorem add_eq_ok (hplace : m.checkPlace d.kind (some p) = .ok ()) (hid : m.checkId d = .ok ()) :
    m.add d p = .ok (m.insertNode d (some p), m.size) := by
  simp only [add, addNode, hplace, hid]

/-- A state may be added below the root if its id is new. -/
theorem add_state (hp : m.kind? p = some (.scxml none))
    (hmark : ¬ anonymousMark.toList.isPrefixOf id.toList) (hnew : id ∉ m.index.map Prod.fst) :
    m.add ⟨some id, .state none⟩ p =
      .ok (m.insertNode ⟨some id, .state none⟩ (some p), m.size) := by
  obtain ⟨n, hn, hk⟩ := Option.map_eq_some_iff.1 hp
  refine add_eq_ok ?_ ?_
  · simp [checkPlace, checkParent, checkInitial, hn, hk, Kind.isRoot, Kind.accepts, Kind.fitsUnder,
      Kind.isState, Kind.isAction]
  · rw [← getTarget?_eq_none_iff] at hnew
    simp [checkId, Kind.isState, hmark, hnew]

/-- A transition may be added to a state. -/
theorem add_transition (hp : m.kind? p = some (.state none)) (t : Transition) :
    m.add (.ofKind (.transition t)) p =
      .ok (m.insertNode (.ofKind (.transition t)) (some p), m.size) := by
  obtain ⟨n, hn, hk⟩ := Option.map_eq_some_iff.1 hp
  refine add_eq_ok ?_ rfl
  simp [checkPlace, checkParent, checkInitial, hn, hk, Declaration.ofKind, Kind.isRoot,
    Kind.accepts, Kind.fitsUnder, Kind.isState, Kind.isInitial, Kind.isTransition]

theorem exists_growAll_leaves (hp : m.kind? p = some (.state none))
    (transitions : List TransitionEntry) :
    ∃ m', m.growAll p (transitions.map TransitionEntry.leaf) = .ok m' ∧
      Gains m m' [] (transitions.map TransitionEntry.transition) := by
  induction transitions generalizing m with
  | nil => exact ⟨m, rfl, .refl m⟩
  | cons t rest ih =>
    have hext : Gains m (m.insertNode (.ofKind (.transition t.transition)) (some p)) []
        [t.transition] := gains_insertNode (.inr ⟨_, List.mem_singleton_self _, rfl⟩) rfl
    obtain ⟨m', hgrow, hrest⟩ := ih (hext.kind hp)
    refine ⟨m', ?_, hext.trans hrest⟩
    simp only [List.map_cons, growAll, TransitionEntry.leaf, grow, add_transition hp]
    exact hgrow

/-- A plain state with a new id may be added below the root. -/
theorem exists_grow_plain (hp : m.kind? p = some (.scxml none))
    (hmark : ¬ anonymousMark.toList.isPrefixOf id.toList) (hnew : id ∉ m.index.map Prod.fst)
    (transitions : List TransitionEntry) :
    ∃ m', m.grow p (plainBranch id transitions) = .ok m' ∧
      Gains m m' [id] (transitions.map TransitionEntry.transition) := by
  have hext : Gains m (m.insertNode ⟨some id, .state none⟩ (some p)) [id] [] :=
    gains_insertNode (.inl rfl) rfl
  have hstate : (m.insertNode ⟨some id, .state none⟩ (some p)).kind? m.size =
      some (.state none) := by
    rw [kind?_insertNode, if_pos rfl]
  obtain ⟨m', hgrow, hrest⟩ := exists_growAll_leaves hstate transitions
  refine ⟨m', ?_, hext.trans hrest⟩
  rw [plainBranch, grow, add_state hp hmark hnew]
  exact hgrow

/-- Plain states may be added below the root, one after the other, if their ids are new and can be
told apart. -/
theorem exists_growAll_plain {states : List (String × List TransitionEntry)}
    (hp : m.kind? p = some (.scxml none))
    (hmark : ∀ s ∈ states, ¬ anonymousMark.toList.isPrefixOf s.1.toList)
    (hnodup : (m.index.map Prod.fst ++ states.map Prod.fst).Nodup) :
    ∃ m', m.growAll p (states.map fun s => plainBranch s.1 s.2) = .ok m' ∧
      Gains m m' (states.map Prod.fst)
        (states.flatMap fun s => s.2.map TransitionEntry.transition) := by
  induction states generalizing m with
  | nil => exact ⟨m, rfl, .refl m⟩
  | cons s rest ih =>
    have hnew : s.1 ∉ m.index.map Prod.fst := fun hmem =>
      (List.nodup_append.1 hnodup).2.2 _ hmem _ (List.mem_cons_self ..) rfl
    obtain ⟨m₁, hgrow, hgains⟩ := exists_grow_plain hp (hmark s (List.mem_cons_self ..))
      hnew s.2
    have hnodup' : (m₁.index.map Prod.fst ++ rest.map Prod.fst).Nodup := by
      rw [hgains.keys, List.append_assoc]
      exact hnodup
    obtain ⟨m', hgrowAll, hrest⟩ := ih (hgains.kind hp)
      (fun r hr => hmark r (List.mem_cons_of_mem s hr)) hnodup'
    refine ⟨m', ?_, hgains.trans hrest⟩
    simp only [List.map_cons, growAll, hgrow]
    exact hgrowAll

/-! ### Plain states in a model -/

section

variable {c : Nat} (h : m.Holds (some 0) c (plainBranch id transitions))
include h

theorem mem_childStates_of_holds_plain (hm : m.WellFormed) : c ∈ m.childStates 0 := by
  refine hm.mem_childStates.2 ⟨?_, h.hasKind Kind.isState⟩
  rw [parent?, h.node?]
  rfl

theorem label_of_holds_plain : m.label c = id := by
  rw [label, h.node?]
  rfl

theorem getTarget?_of_holds_plain (hb : m.Built) : m.getTarget? id = some c := by
  refine hb.getTarget?_eq_some_iff.2 ⟨h.hasKind Kind.isState, ?_⟩
  rw [key, h.node?]
  rfl

/-- The children of a plain state are its transitions. -/
theorem hasKind_of_holds_plain {i : Nat} (hi : i ∈ m.children c) (q : Kind → Bool) :
    ∃ entry ∈ transitions, m.hasKind q i = q (.transition entry.transition) := by
  rw [h.children_eq] at hi
  obtain ⟨b, hb, hholds⟩ := h.2.exists_of_mem hi
  obtain ⟨entry, hentry, rfl⟩ := List.mem_map.1 hb
  exact ⟨entry, hentry, hholds.hasKind q⟩

theorem childStates_of_holds_plain : m.childStates c = [] :=
  List.filter_eq_nil_iff.2 fun i hi => by
    obtain ⟨entry, -, hq⟩ := hasKind_of_holds_plain h hi Kind.isState
    rw [hq]
    exact Bool.false_ne_true

theorem transitionsOf_of_holds_plain : m.transitionsOf c = m.children c :=
  List.filter_eq_self.2 fun i hi => by
    obtain ⟨entry, -, hq⟩ := hasKind_of_holds_plain h hi Kind.isTransition
    rw [hq]
    rfl

end

/-- The one transition of a plain state. -/
theorem exists_transition_of_holds_plain {c : Nat} {entry : TransitionEntry}
    (h : m.Holds (some 0) c (plainBranch id [entry])) :
    ∃ t, m.transitionsOf c = [t] ∧ m.Holds (some c) t entry.leaf :=
  ⟨c + 1, by rw [transitionsOf_of_holds_plain h, h.children_eq]; rfl, h.2.1⟩

/-! ### Validity -/

/-- Nothing is wrong with a model of plain states whose transitions have one target each. -/
theorem validate_of_plain (hroot : m.root? = some 0) (hstates : m.childStates 0 ≠ [])
    (hkinds : ∀ {i k}, m.kind? i = some k → k = .scxml none ∨ k = .state none ∨
      ∃ t, k = .transition t ∧ ∃ id, t.targets = [id] ∧ m.getTarget? id ≠ none) :
    m.validate = .ok () := by
  have htargets : m.checkTargets = .ok () := by
    have hresolved : ∀ t ∈ m.transitions, (m.unresolvedTarget? t).map (t, ·) = none := by
      intro t _
      rw [Option.map_eq_none_iff, unresolvedTarget?]
      split
      · next tr htr =>
        obtain ⟨k, hk, hkt⟩ := Option.bind_eq_some_iff.1 htr
        rcases hkinds hk with rfl | rfl | ⟨t, rfl, id, hid, hsome⟩
        · cases hkt
        · cases hkt
        · cases hkt
          rw [hid]
          simpa using hsome
      · rfl
    rw [checkTargets, List.findSome?_eq_none_iff.2 hresolved]
  have hfault : m.firstFault? = none := by
    rw [firstFault?, List.findSome?_eq_none_iff]
    intro i _
    cases hk : m.kind? i with
    | none => rfl
    | some k =>
      rcases hkinds hk with rfl | rfl | ⟨t, rfl, id, hid, -⟩
      · rfl
      · rfl
      · simp [nodeFault?, attributeFault?, Kind.initialAttribute?, hid]
  simp only [validate, hroot, htargets, hfault, List.isEmpty_iff, if_neg hstates]

/-! ### Building -/

/-- A model that a flat chart builds: it is valid, the states stand in it one after the other, and
it has no nodes but the root, states that are not final, and transitions. -/
structure OfFlat (m : Model) (states : List (String × List TransitionEntry)) : Prop where
  validated : m.Validated
  kind_cases {i : Nat} {k : Kind} : m.kind? i = some k →
    k = .scxml none ∨ k = .state none ∨ ∃ t, k = .transition t
  holds : m.Holds none 0 (.node (.ofKind (.scxml none)) (states.map fun s => plainBranch s.1 s.2))

end Model

namespace Chart

open Model (Gains OfFlat)

variable {states : List (String × List TransitionEntry)}

theorem Flat.branches_eq (h : Flat states) :
    (flat states).states.map StateEntry.branch = states.map fun s => plainBranch s.1 s.2 := by
  rw [flat, List.map_map]
  exact List.map_congr_left fun s hs =>
    branch_plain (h.named s hs) fun t ht => (h.leads s hs t ht).1

/-- What the states of a flat chart add to a root are states and transitions whose targets exist. -/
theorem Flat.kind_cases_of_gains (h : Flat states) {m₀ m : Model} {i : Nat} {k : Kind}
    (hgains : Gains m₀ m (states.map Prod.fst)
      (states.flatMap fun s => s.2.map TransitionEntry.transition))
    (hroot : m₀.kind? i = some k → k = .scxml none) (hk : m.kind? i = some k) :
    k = .scxml none ∨ k = .state none ∨
      ∃ t, k = .transition t ∧ ∃ id, t.targets = [id] ∧ m.getTarget? id ≠ none := by
  rcases hgains.kind_cases hk with hk | rfl | ⟨t, ht, rfl⟩
  · exact .inl (hroot hk)
  · exact .inr (.inl rfl)
  · obtain ⟨s, hs, ht⟩ := List.mem_flatMap.1 ht
    obtain ⟨entry, hentry, rfl⟩ := List.mem_map.1 ht
    obtain ⟨-, id, hid, htarget⟩ := h.leads s hs entry hentry
    refine .inr (.inr ⟨_, rfl, id, htarget, ?_⟩)
    rw [ne_eq, Model.getTarget?_eq_none_iff, not_not, hgains.keys]
    exact List.mem_append_right _ hid

/-- A flat chart builds. -/
theorem exists_build_flat (h : Flat states) :
    ∃ m, (flat states).build = .ok m ∧ m.OfFlat states := by
  -- The nodes are added: first the root, and then the states.
  have hroot : Model.empty.addNode (.ofKind (.scxml none)) none =
      .ok (Model.empty.insertNode (.ofKind (.scxml none)) none) := rfl
  obtain ⟨m, hgrow, hgains⟩ := Model.exists_growAll_plain
    (m := Model.empty.insertNode (.ofKind (.scxml none)) none) (p := 0) rfl h.unmarked (by
      simpa [Model.insertNode, Declaration.ofKind, Kind.isState, Model.empty] using h.nodup)
  have hnodes : (flat states).nodes = .ok m := by
    have hstates := addStates_flat (Model.empty.insertNode (.ofKind (.scxml none)) none) 0 states
    rw [h.branches_eq, hgrow] at hstates
    exact hstates
  obtain ⟨hbuilt, hholds, -⟩ := Model.holds_of_growAll hroot hgrow
  -- The tree is valid.
  have hkinds : ∀ {i k}, m.kind? i = some k → k = .scxml none ∨ k = .state none ∨
      ∃ t, k = .transition t ∧ ∃ id, t.targets = [id] ∧ m.getTarget? id ≠ none := by
    refine fun hk => h.kind_cases_of_gains hgains (fun hk => ?_) hk
    rw [Model.kind?_insertNode] at hk
    split at hk <;> cases hk
    rfl
  have hstates : m.childStates 0 ≠ [] := by
    obtain ⟨s, hs⟩ := List.exists_mem_of_ne_nil _ h.ne_nil
    obtain ⟨c, -, hcs⟩ := hholds.2.exists_number (List.mem_map_of_mem hs)
    exact List.ne_nil_of_mem (Model.mem_childStates_of_holds_plain hcs hbuilt.wellFormed)
  have hvalid : m.validate = .ok () :=
    Model.validate_of_plain (hbuilt.consistent.root hholds.lt_size).1 hstates hkinds
  refine ⟨m, by rw [build, hnodes]; simp only [hvalid], ⟨hbuilt, hvalid⟩, fun hk => ?_, hholds⟩
  rcases hkinds hk with hk | hk | ⟨t, hk, -⟩
  · exact .inl hk
  · exact .inr (.inl hk)
  · exact .inr (.inr ⟨t, hk⟩)

end Chart

namespace Model

open Chart (TransitionEntry plainBranch)

variable {m : Model} {states : List (String × List TransitionEntry)}

/-- Each state of a flat chart stands in its model. -/
theorem OfFlat.exists_holds (h : m.OfFlat states) {s : String × List TransitionEntry}
    (hs : s ∈ states) : ∃ c, m.Holds (some 0) c (plainBranch s.1 s.2) := by
  obtain ⟨c, -, hcs⟩ := h.holds.2.exists_number (List.mem_map_of_mem hs)
  exact ⟨c, hcs⟩

/-- A model of a flat chart has no node whose kind is none of the three that occur. -/
theorem OfFlat.hasKind_eq_false (h : m.OfFlat states) {p : Kind → Bool}
    (hroot : p (.scxml none) = false) (hstate : p (.state none) = false)
    (htransition : ∀ t, p (.transition t) = false) (i : Nat) : m.hasKind p i = false := by
  cases hk : m.kind? i with
  | none => rw [hasKind, hk, Option.any_none]
  | some k =>
    rw [hasKind, hk, Option.any_some]
    rcases h.kind_cases hk with rfl | rfl | ⟨t, rfl⟩
    · exact hroot
    · exact hstate
    · exact htransition t

theorem OfFlat.childrenOfKind_eq_nil (h : m.OfFlat states) {p : Kind → Bool}
    (hroot : p (.scxml none) = false) (hstate : p (.state none) = false)
    (htransition : ∀ t, p (.transition t) = false) (i : Nat) : m.childrenOfKind p i = [] :=
  List.filter_eq_nil_iff.2 fun c _ => by
    rw [h.hasKind_eq_false hroot hstate htransition]
    exact Bool.false_ne_true

/-- What a model of a flat chart enters by default is its first state. -/
theorem OfFlat.defaultTargets_zero {s : String × List TransitionEntry}
    (h : m.OfFlat (s :: states)) :
    m.defaultTargets 0 = [1] ∧ m.Holds (some 0) 1 (plainBranch s.1 s.2) := by
  have hfirst : m.Holds (some 0) 1 (plainBranch s.1 s.2) := h.holds.2.1
  have hstate : m.hasKind Kind.isState 1 = true := hfirst.hasKind Kind.isState
  have hnone : m.childrenOfKind Kind.isInitial 0 = [] :=
    h.childrenOfKind_eq_nil rfl rfl (fun _ => rfl) 0
  have hkind : m.kind? 0 = some (.scxml none) := by
    rw [kind?, h.holds.node?]
    rfl
  have hchild : (m.childStates 0).take 1 = [1] := by
    simp [childStates, childrenOfKind, h.holds.children_eq, Branch.numbers, hstate]
  refine ⟨?_, hfirst⟩
  rw [defaultTargets, hnone, hkind, hchild]
  rfl

end Model

end Statechart
