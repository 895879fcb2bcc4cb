import Statechart.Proofs.Model.Layout

/-!
# Charts as branches

What `Chart.build` adds for each part of a chart, as branches.  Adding the parts one by one is
growing these branches.

* `StateEntry.branch`, `Chart.branch`: the branch of a state and of a chart;
* `addOwn_eq`, `addState_ok`, `addStates_ok`: adding a part grows its branches;
* `holds_of_build`: the model of a chart is its branch, laid out from number `0` on;
* `everywhere_branch`: in it, child states come after everything else.
-/

namespace Statechart

@[simp] theorem Declaration.kind_ofKind (kind : Kind) : (Declaration.ofKind kind).kind = kind := rfl

namespace Chart

/-! ### Branches of the parts of a chart -/

/-- The branch of an action. -/
def Action.branch (a : Action) : Branch := .node (.ofKind a.kind) []

/-- The initial element with the given targets, if there are any. -/
def initialBranches (targets : List String) : List Branch :=
  if targets.isEmpty then []
  else [.node (.ofKind .initial)
    [.node (.ofKind (.transition { Transition.empty with targets := targets })) []]]

/-- The block with the given actions, if there are any. -/
def blockBranches (kind : Kind) (actions : List Action) : List Branch :=
  if actions.isEmpty then [] else [.node (.ofKind kind) (actions.map Action.branch)]

/-- The branch of a transition. -/
def TransitionEntry.branch (t : TransitionEntry) : Branch :=
  .node (.ofKind (.transition t.transition)) (t.actions.map Action.branch)

/-- The kind of a state of the type. -/
def StateType.kind (initial : Option String) : StateType → Kind
  | .state => .state initial
  | .parallel => .parallel
  | .final => .final

/-- The node of a state. -/
def StateEntry.root (s : StateEntry) : Declaration :=
  Declaration.withId (.ofKind (s.type.kind s.initial)) (s.id.getD "")

/-- The branches of what a state has besides its child states. -/
def StateEntry.own (s : StateEntry) : List Branch :=
  initialBranches s.initialTransition ++ (blockBranches .onEntry s.onEntry ++
    (blockBranches .onExit s.onExit ++ s.transitions.map TransitionEntry.branch))

mutual

/-- The branch of a state. -/
def StateEntry.branch : StateEntry → Branch
  | ⟨id, type, initial, initialTransition, onEntry, onExit, transitions, states⟩ =>
    let s : StateEntry :=
      ⟨id, type, initial, initialTransition, onEntry, onExit, transitions, []⟩
    .node s.root (s.own ++ StateEntry.branches states)

/-- The branches of some states. -/
def StateEntry.branches : List StateEntry → List Branch
  | [] => []
  | s :: rest => s.branch :: StateEntry.branches rest

end

/-- The branches below the root of a chart. -/
def branches (c : Chart) : List Branch :=
  initialBranches c.initialTransition ++ StateEntry.branches c.states

/-- The branch of a chart. -/
def branch (c : Chart) : Branch := .node (.ofKind (.scxml c.initial)) c.branches

/-- Only plain states in it have an `initial` attribute. -/
inductive StateEntry.Placed : StateEntry → Prop
  | intro {s : StateEntry} (plain : s.initial.isSome → s.type = .state)
      (states : ∀ t ∈ s.states, Placed t) : Placed s

/-! ### Adding is growing -/

open Model (growAll)

variable {m m' : Model} {p : Nat}

theorem growAll_append (m : Model) (p : Nat) (as bs : List Branch) :
    m.growAll p (as ++ bs) = (m.growAll p as).bind (·.growAll p bs) := by
  induction as generalizing m with
  | nil => rfl
  | cons a as ih =>
    simp only [List.cons_append, growAll]
    cases m.grow p a with
    | error e => rfl
    | ok m₁ => exact ih m₁

theorem addActions_eq (m : Model) (p : Nat) (actions : List Action) :
    addActions m p actions = m.growAll p (actions.map Action.branch) := by
  induction actions generalizing m with
  | nil => rfl
  | cons a rest ih =>
    simp only [addActions, List.map_cons, growAll, Action.branch, Model.grow]
    cases m.add (.ofKind a.kind) p with
    | error e => rfl
    | ok added => exact ih added.1

theorem addInitial_eq (m : Model) (p : Nat) (targets : List String) :
    addInitial m p targets = m.growAll p (initialBranches targets) := by
  unfold addInitial initialBranches
  split
  · rfl
  · simp only [growAll, Model.grow]
    cases m.add (.ofKind .initial) p with
    | error e => rfl
    | ok added =>
      simp only
      cases added.1.add (.ofKind (.transition { Transition.empty with targets := targets }))
        added.2 <;> rfl

theorem addBlock_eq (m : Model) (kind : Kind) (p : Nat) (actions : List Action) :
    addBlock m kind p actions = m.growAll p (blockBranches kind actions) := by
  unfold addBlock blockBranches
  split
  · rfl
  · simp only [growAll, Model.grow]
    cases m.add (.ofKind kind) p with
    | error e => rfl
    | ok added =>
      simp only [addActions_eq]
      cases added.1.growAll added.2 (actions.map Action.branch) <;> rfl

theorem addTransitions_eq (m : Model) (p : Nat) (transitions : List TransitionEntry) :
    addTransitions m p transitions = m.growAll p (transitions.map TransitionEntry.branch) := by
  induction transitions generalizing m with
  | nil => rfl
  | cons t rest ih =>
    simp only [addTransitions, List.map_cons, growAll, TransitionEntry.branch, Model.grow,
      addActions_eq]
    cases m.add (.ofKind (.transition t.transition)) p with
    | error e => rfl
    | ok added =>
      simp only
      cases added.1.growAll added.2 (t.actions.map Action.branch) with
      | error e => rfl
      | ok m₁ => exact ih m₁

theorem addOwn_eq (m : Model) (p : Nat) (s : StateEntry) : addOwn m p s = m.growAll p s.own := by
  simp only [StateEntry.own, growAll_append, ← addInitial_eq, ← addBlock_eq, ← addTransitions_eq]
  cases h₁ : addInitial m p s.initialTransition with
  | error e => simp [addOwn, h₁, Except.bind]
  | ok m₁ =>
    cases h₂ : addBlock m₁ .onEntry p s.onEntry with
    | error e => simp [addOwn, h₁, h₂, Except.bind]
    | ok m₂ => cases h₃ : addBlock m₂ .onExit p s.onExit <;> simp [addOwn, h₁, h₂, h₃, Except.bind]

theorem declaration_cases {s : StateEntry} {d : Declaration} (h : s.declaration = .ok d) :
    d = s.root ∧ (s.initial.isSome → s.type = .state) := by
  unfold StateEntry.declaration at h
  split at h <;> cases h <;> simp_all [StateEntry.root, StateType.kind]

theorem eq_of_mem_initialBranches {targets : List String} {b : Branch}
    (h : b ∈ initialBranches targets) : b = .node (.ofKind .initial)
      [.node (.ofKind (.transition { Transition.empty with targets := targets })) []] := by
  unfold initialBranches at h
  split at h
  · cases h
  · exact List.mem_singleton.1 h

theorem eq_of_mem_blockBranches {kind : Kind} {actions : List Action} {b : Branch}
    (h : b ∈ blockBranches kind actions) :
    b = .node (.ofKind kind) (actions.map Action.branch) := by
  unfold blockBranches at h
  split at h
  · cases h
  · exact List.mem_singleton.1 h

theorem branches_eq_map (states : List StateEntry) :
    StateEntry.branches states = states.map StateEntry.branch := by
  induction states with
  | nil => rfl
  | cons s rest ih => rw [StateEntry.branches, ih, List.map_cons]

theorem branch_eq (s : StateEntry) :
    s.branch = .node s.root (s.own ++ s.states.map StateEntry.branch) := by
  cases s
  rw [StateEntry.branch, branches_eq_map]
  rfl

theorem kind_stateBranch (s : StateEntry) : s.branch.kind = s.type.kind s.initial := by
  rw [branch_eq]
  rfl

/-- The root of a chart has an initial element and states, like a state without anything else. -/
theorem branches_eq (c : Chart) : c.branches =
    StateEntry.own ⟨none, .state, none, c.initialTransition, [], [], [], []⟩ ++
      c.states.map StateEntry.branch := by
  simp [branches, StateEntry.own, blockBranches, branches_eq_map]

mutual

theorem addState_ok : ∀ {s : StateEntry} {m m' : Model} {p : Nat}, addState m p s = .ok m' →
    s.Placed ∧ m.grow p s.branch = .ok m'
  | ⟨id, type, initial, initialTransition, onEntry, onExit, transitions, states⟩, m, m', p, h => by
    simp only [addState] at h
    split at h
    · cases h
    · next d hd =>
      obtain ⟨rfl, hplain⟩ := declaration_cases hd
      split at h
      · cases h
      · next m₁ node hadd =>
        rw [addOwn_eq] at h
        split at h
        · cases h
        · next m₂ hown =>
          obtain ⟨hstates, hgrow⟩ := addStates_ok h
          refine ⟨.intro hplain hstates, ?_⟩
          simp only [StateEntry.branch, Model.grow, hadd, growAll_append, hown]
          exact hgrow

theorem addStates_ok : ∀ {states : List StateEntry} {m m' : Model} {p : Nat},
    addStates m p states = .ok m' →
      (∀ s ∈ states, s.Placed) ∧ m.growAll p (StateEntry.branches states) = .ok m'
  | [], m, m', p, h => by
    cases h
    exact ⟨by simp, rfl⟩
  | s :: rest, m, m', p, h => by
    simp only [addStates] at h
    split at h
    · cases h
    · next m₁ hs =>
      obtain ⟨hplaced, hgrow⟩ := addState_ok hs
      obtain ⟨hrest, hgrowAll⟩ := addStates_ok h
      refine ⟨List.forall_mem_cons.2 ⟨hplaced, hrest⟩, ?_⟩
      simp only [StateEntry.branches, growAll, hgrow]
      exact hgrowAll

end

/-- What building a chart comes to: its model is valid and is the branch of the chart, laid out from
number `0` on. -/
theorem holds_of_build {c : Chart} {m : Model} (h : c.build = .ok m) :
    (∀ s ∈ c.states, s.Placed) ∧ m.Built ∧ m.Holds none 0 c.branch ∧ m.size = c.branch.size := by
  unfold build at h
  split at h
  · cases h
  · next m₁ hnodes =>
    split at h
    · cases h
    · cases h
      unfold nodes at hnodes
      split at hnodes
      · cases hnodes
      · next m₀ hroot =>
        rw [addInitial_eq] at hnodes
        split at hnodes
        · cases hnodes
        · next m₂ hinitial =>
          obtain ⟨hplaced, hgrow⟩ := addStates_ok hnodes
          have hall : m₀.growAll 0 c.branches = .ok m := by
            simp only [branches, growAll_append, hinitial]
            exact hgrow
          exact ⟨hplaced, Model.holds_of_growAll hroot hall⟩

/-! ### What precedes the child states -/

/-- Child states come after everything else. -/
def StatesLast (bs : List Branch) : Prop :=
  ∃ own states, bs = own ++ states ∧ (∀ b ∈ own, ¬ b.kind.isState) ∧ ∀ b ∈ states, b.kind.isState

theorem statesLast_of_forall {bs : List Branch} (h : ∀ b ∈ bs, ¬ b.kind.isState) :
    StatesLast bs :=
  ⟨bs, [], (List.append_nil bs).symm, h, by simp⟩

theorem everywhere_leaf (d : Declaration) : (Branch.node d []).Everywhere StatesLast :=
  .node (statesLast_of_forall (by simp)) (by simp)

theorem everywhere_actions (d : Declaration) (actions : List Action) :
    (Branch.node d (actions.map Action.branch)).Everywhere StatesLast := by
  refine .node (statesLast_of_forall ?_) ?_ <;> rw [List.forall_mem_map] <;> intro a _
  · cases a <;> exact Bool.false_ne_true
  · exact everywhere_leaf _

/-- What a state has besides its child states is no state and holds none. -/
theorem stateless_of_mem_own {s : StateEntry} {b : Branch} (h : b ∈ s.own) :
    ¬ b.kind.isState ∧ b.Everywhere StatesLast := by
  simp only [StateEntry.own, List.mem_append, List.mem_map] at h
  rcases h with h | h | h | ⟨t, -, rfl⟩
  · rw [eq_of_mem_initialBranches h]
    refine ⟨Bool.false_ne_true, .node (statesLast_of_forall ?_) ?_⟩ <;>
      rw [List.forall_mem_singleton]
    · exact Bool.false_ne_true
    · exact everywhere_leaf _
  · rw [eq_of_mem_blockBranches h]
    exact ⟨Bool.false_ne_true, everywhere_actions _ _⟩
  · rw [eq_of_mem_blockBranches h]
    exact ⟨Bool.false_ne_true, everywhere_actions _ _⟩
  · exact ⟨Bool.false_ne_true, everywhere_actions _ _⟩

theorem statesLast_own (s : StateEntry) (states : List StateEntry) :
    StatesLast (s.own ++ states.map StateEntry.branch) := by
  refine ⟨_, _, rfl, fun b hb => (stateless_of_mem_own hb).1, ?_⟩
  rw [List.forall_mem_map]
  intro t _
  rw [kind_stateBranch]
  cases t.type <;> rfl

theorem everywhere_own {s : StateEntry} {states : List StateEntry} (d : Declaration)
    (h : ∀ t ∈ states, t.branch.Everywhere StatesLast) :
    (Branch.node d (s.own ++ states.map StateEntry.branch)).Everywhere StatesLast := by
  refine .node (statesLast_own s states) fun b hb => ?_
  rcases List.mem_append.1 hb with hb | hb
  · exact (stateless_of_mem_own hb).2
  · obtain ⟨t, ht, rfl⟩ := List.mem_map.1 hb
    exact h t ht

theorem everywhere_state {s : StateEntry} (hp : s.Placed) : s.branch.Everywhere StatesLast := by
  induction hp with
  | intro _ _ ih =>
    rw [branch_eq]
    exact everywhere_own _ ih

theorem everywhere_branch {c : Chart} (hp : ∀ s ∈ c.states, s.Placed) :
    c.branch.Everywhere StatesLast := by
  rw [branch, branches_eq]
  exact everywhere_own _ fun s hs => everywhere_state (hp s hs)

end Chart

end Statechart
