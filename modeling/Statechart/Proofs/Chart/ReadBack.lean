import Statechart.Chart.Printer
import Statechart.Proofs.Chart.Branches
import Statechart.Proofs.Chart.Worded

/-!
# Reading a chart back from its model

`Model.chart?` reads a chart from the root of a model on, and it is the chart from which the model
was built: only the name and empty ids are lost.

* `ofBranch?_transition`, `ofBranch?_branch`, `ofBranch_branch`: transitions, states and charts are
  read back from their branches;
* `Chart.build_reads_back`: models lose nothing, and their numbers are a preorder in which child
  states come last.
-/

namespace Statechart

namespace Chart

/-! ### Charts without names and empty ids -/

mutual

/-- A state without empty ids. -/
def StateEntry.bare : StateEntry → StateEntry
  | ⟨id, type, initial, initialTransition, onEntry, onExit, transitions, states⟩ =>
    ⟨id.filter (· ≠ ""), type, initial, initialTransition, onEntry, onExit, transitions,
      StateEntry.bareAll states⟩

/-- Some states without empty ids. -/
def StateEntry.bareAll : List StateEntry → List StateEntry
  | [] => []
  | s :: rest => s.bare :: StateEntry.bareAll rest

end

/-- A chart without its name and without empty ids. -/
def bare (c : Chart) : Chart :=
  ⟨none, c.initial, c.initialTransition, StateEntry.bareAll c.states⟩

theorem bareAll_eq_map (states : List StateEntry) :
    StateEntry.bareAll states = states.map StateEntry.bare := by
  induction states with
  | nil => rfl
  | cons s rest ih => rw [StateEntry.bareAll, ih, List.map_cons]

/-! ### Reading branches -/

/-- The action of a node. -/
def Action.ofKind? : Kind → Option Action
  | .log label expr => some (.log label expr)
  | .raise event => some (.raise event)
  | .assign location expr => some (.assign location expr)
  | _ => none

/-- The actions among some branches. -/
def actionsOf (bs : List Branch) : List Action := bs.filterMap fun b => Action.ofKind? b.kind

/-- The targets of the transitions among some branches. -/
def targetsOf (bs : List Branch) : List String :=
  (bs.filterMap (·.kind.transition?)).flatMap Transition.targets

/-- What stands below the only branch there is. -/
def belowOnly : List Branch → List Branch
  | [b] => b.children
  | _ => []

/-- The transition that a branch holds. -/
def TransitionEntry.ofBranch? (b : Branch) : Option TransitionEntry :=
  b.kind.transition?.map fun t =>
    ⟨t.events.map Descriptor.text, t.cond, t.targets, t.type, actionsOf b.children⟩

/-- The type of a state. -/
def StateType.ofKind? : Kind → Option StateType
  | .state _ => some .state
  | .parallel => some .parallel
  | .final => some .final
  | _ => none

mutual

/-- The state that a branch holds. -/
def StateEntry.ofBranch? : Branch → Option StateEntry
  | .node d children => (StateType.ofKind? d.kind).map fun type =>
    ⟨d.id, type, d.kind.initialAttribute?,
      targetsOf (belowOnly (children.filter (·.kind.isInitial))),
      actionsOf (belowOnly (children.filter (·.kind.isOnEntry))),
      actionsOf (belowOnly (children.filter (·.kind.isOnExit))),
      children.filterMap TransitionEntry.ofBranch?, StateEntry.ofBranches children⟩

/-- The states among some branches. -/
def StateEntry.ofBranches : List Branch → List StateEntry
  | [] => []
  | b :: bs =>
    match StateEntry.ofBranch? b with
    | some s => s :: StateEntry.ofBranches bs
    | none => StateEntry.ofBranches bs

end

/-- The chart that a branch holds. -/
def ofBranch (b : Branch) : Chart :=
  ⟨none, b.kind.initialAttribute?, targetsOf (belowOnly (b.children.filter (·.kind.isInitial))),
    StateEntry.ofBranches b.children⟩

theorem ofBranches_eq_filterMap (bs : List Branch) :
    StateEntry.ofBranches bs = bs.filterMap StateEntry.ofBranch? := by
  induction bs with
  | nil => rfl
  | cons b bs ih =>
    rw [StateEntry.ofBranches, List.filterMap_cons, ih]
    cases StateEntry.ofBranch? b <;> rfl

/-! ### What is read from each part -/

theorem filter_of_kind (q : Kind → Bool) {kind : Kind} {bs : List Branch}
    (h : ∀ b ∈ bs, b.kind = kind) : bs.filter (q ·.kind) = if q kind then bs else [] := by
  split
  · next hq => exact List.filter_eq_self.2 fun b hb => by rw [h b hb, hq]
  · next hq => exact List.filter_eq_nil_iff.2 fun b hb => by rw [h b hb]; exact hq

theorem kind_of_mem_initialBranches {targets : List String} :
    ∀ b ∈ initialBranches targets, b.kind = .initial := fun b h => by
  rw [eq_of_mem_initialBranches h]
  rfl

theorem kind_of_mem_blockBranches {kind : Kind} {actions : List Action} :
    ∀ b ∈ blockBranches kind actions, b.kind = kind := fun b h => by
  rw [eq_of_mem_blockBranches h]
  rfl

/-- If no transition and no state satisfies `q`, only the initial element and the blocks count. -/
theorem filter_own (q : Kind → Bool) (s : StateEntry) (states : List StateEntry)
    (htransition : ∀ t, q (.transition t) = false)
    (hstate : ∀ type initial, q (StateType.kind initial type) = false) :
    (s.own ++ states.map StateEntry.branch).filter (q ·.kind) =
      (if q .initial then initialBranches s.initialTransition else []) ++
        ((if q .onEntry then blockBranches .onEntry s.onEntry else []) ++
          if q .onExit then blockBranches .onExit s.onExit else []) := by
  have ht : (s.transitions.map TransitionEntry.branch).filter (q ·.kind) = [] := by
    simp [List.filter_eq_nil_iff, TransitionEntry.branch, htransition]
  have hs : (states.map StateEntry.branch).filter (q ·.kind) = [] := by
    simp [List.filter_eq_nil_iff, kind_stateBranch, hstate]
  simp only [StateEntry.own, List.filter_append, ht, hs, List.append_nil,
    filter_of_kind q kind_of_mem_initialBranches, filter_of_kind q kind_of_mem_blockBranches]

/-- A reader that skips initial elements and blocks sees transitions and child states only. -/
theorem filterMap_own {α : Type} {f : Branch → Option α} (s : StateEntry)
    (states : List StateEntry)
    (hf : ∀ b, b.kind = .initial ∨ b.kind = .onEntry ∨ b.kind = .onExit → f b = none) :
    (s.own ++ states.map StateEntry.branch).filterMap f =
      (s.transitions.map TransitionEntry.branch).filterMap f ++
        (states.map StateEntry.branch).filterMap f := by
  have hinitial : (initialBranches s.initialTransition).filterMap f = [] :=
    List.filterMap_eq_nil_iff.2 fun b hb => hf b (.inl (kind_of_mem_initialBranches b hb))
  have hentry : (blockBranches .onEntry s.onEntry).filterMap f = [] :=
    List.filterMap_eq_nil_iff.2 fun b hb => hf b (.inr (.inl (kind_of_mem_blockBranches b hb)))
  have hexit : (blockBranches .onExit s.onExit).filterMap f = [] :=
    List.filterMap_eq_nil_iff.2 fun b hb => hf b (.inr (.inr (kind_of_mem_blockBranches b hb)))
  simp only [StateEntry.own, List.filterMap_append, hinitial, hentry, hexit, List.nil_append]

theorem filterMap_map_eq {α β γ : Type} {f : β → Option γ} {g : α → β} {h : α → γ}
    {items : List α} (hf : ∀ a ∈ items, f (g a) = some (h a)) :
    (items.map g).filterMap f = items.map h := by
  induction items with
  | nil => rfl
  | cons a rest ih =>
    rw [List.map_cons, List.filterMap_cons, hf a (List.mem_cons_self ..), List.map_cons,
      ih fun b hb => hf b (List.mem_cons_of_mem _ hb)]

theorem actionsOf_map (actions : List Action) : actionsOf (actions.map Action.branch) = actions := by
  have h : ∀ a : Action, Action.ofKind? a.branch.kind = some a := by
    intro a
    cases a <;> rfl
  simp only [actionsOf, List.filterMap_map, Function.comp_def, h, List.filterMap_some]

theorem actionsOf_block (kind : Kind) (actions : List Action) :
    actionsOf (belowOnly (blockBranches kind actions)) = actions := by
  cases actions with
  | nil => rfl
  | cons a rest => exact actionsOf_map (a :: rest)

theorem targetsOf_initial (targets : List String) :
    targetsOf (belowOnly (initialBranches targets)) = targets := by
  cases targets with
  | nil => rfl
  | cons t rest => simp [initialBranches, belowOnly, targetsOf, Kind.transition?]

section Own

variable (s : StateEntry) (states : List StateEntry)

theorem targetsOf_own : targetsOf (belowOnly
    ((s.own ++ states.map StateEntry.branch).filter (·.kind.isInitial))) =
      s.initialTransition := by
  rw [filter_own Kind.isInitial s states (fun _ => rfl) fun type _ => by cases type <;> rfl]
  simpa [Kind.isInitial] using targetsOf_initial s.initialTransition

theorem entryActionsOf_own : actionsOf (belowOnly
    ((s.own ++ states.map StateEntry.branch).filter (·.kind.isOnEntry))) = s.onEntry := by
  rw [filter_own Kind.isOnEntry s states (fun _ => rfl) fun type _ => by cases type <;> rfl]
  simpa [Kind.isOnEntry] using actionsOf_block .onEntry s.onEntry

theorem exitActionsOf_own : actionsOf (belowOnly
    ((s.own ++ states.map StateEntry.branch).filter (·.kind.isOnExit))) = s.onExit := by
  rw [filter_own Kind.isOnExit s states (fun _ => rfl) fun type _ => by cases type <;> rfl]
  simpa [Kind.isOnExit] using actionsOf_block .onExit s.onExit

theorem statesOf_own :
    (s.own ++ states.map StateEntry.branch).filterMap StateEntry.ofBranch? =
      (states.map StateEntry.branch).filterMap StateEntry.ofBranch? := by
  have hskip : ∀ b : Branch, b.kind = .initial ∨ b.kind = .onEntry ∨ b.kind = .onExit →
      StateEntry.ofBranch? b = none := by
    rintro ⟨d, children⟩ h
    rw [Branch.kind_node] at h
    rcases h with h | h | h <;> simp [StateEntry.ofBranch?, h, StateType.ofKind?]
  have htransitions :
      (s.transitions.map TransitionEntry.branch).filterMap StateEntry.ofBranch? = [] := by
    simp [TransitionEntry.branch, StateEntry.ofBranch?, StateType.ofKind?]
  rw [filterMap_own s states hskip, htransitions, List.nil_append]

end Own

theorem ofBranch?_transition {t : TransitionEntry} (ht : t.Worded) :
    TransitionEntry.ofBranch? t.branch = some t := by
  have hevents : t.transition.events.map Descriptor.text = t.event := by
    simp [TransitionEntry.transition, Descriptor.ofText, Text.words_intercalate ht.event,
      Function.comp_def]
  simp only [TransitionEntry.ofBranch?, TransitionEntry.branch, Branch.kind_node,
    Declaration.kind_ofKind, Kind.transition?, Option.map_some, hevents, Branch.children_node,
    actionsOf_map]
  rfl

theorem transitionsOf_own {s : StateEntry} (states : List StateEntry)
    (hs : ∀ t ∈ s.transitions, t.Worded) :
    (s.own ++ states.map StateEntry.branch).filterMap TransitionEntry.ofBranch? =
      s.transitions := by
  have hskip : ∀ b : Branch, b.kind = .initial ∨ b.kind = .onEntry ∨ b.kind = .onExit →
      TransitionEntry.ofBranch? b = none := by
    rintro b (h | h | h) <;> simp [TransitionEntry.ofBranch?, h, Kind.transition?]
  have hstates : (states.map StateEntry.branch).filterMap TransitionEntry.ofBranch? = [] := by
    have : ∀ s : StateEntry, TransitionEntry.ofBranch? s.branch = none := fun s => by
      rw [TransitionEntry.ofBranch?, kind_stateBranch]
      cases s.type <;> rfl
    simp [this]
  rw [filterMap_own s states hskip, hstates, List.append_nil,
    filterMap_map_eq fun t ht => ofBranch?_transition (hs t ht)]
  exact List.map_id _

/-! ### What is read back -/

theorem bare_eq (s : StateEntry) : s.bare =
    { s with id := s.id.filter (· ≠ ""), states := s.states.map StateEntry.bare } := by
  cases s
  rw [StateEntry.bare, bareAll_eq_map]

theorem root_eq (s : StateEntry) : s.root = ⟨s.id.filter (· ≠ ""), s.type.kind s.initial⟩ := by
  cases hid : s.id with
  | none => simp [StateEntry.root, Declaration.withId, Declaration.ofKind, hid]
  | some id =>
    by_cases h : id = "" <;>
      simp [StateEntry.root, Declaration.withId, Declaration.ofKind, Option.filter, hid, h]

theorem initialAttribute?_kind {s : StateEntry} (h : s.initial.isSome → s.type = .state) :
    (s.type.kind s.initial).initialAttribute? = s.initial := by
  cases hi : s.initial with
  | none => cases s.type <;> rfl
  | some child => rw [h (by rw [hi]; rfl)]; rfl

theorem ofKind?_kind (type : StateType) (initial : Option String) :
    StateType.ofKind? (type.kind initial) = some type := by
  cases type <;> rfl

/-- A state is read back from its branch. -/
theorem ofBranch?_branch {s : StateEntry} (hs : s.Worded) (hp : s.Placed) :
    StateEntry.ofBranch? s.branch = some s.bare := by
  induction hs with
  | @intro s hinitial htransitions hstates ih =>
    obtain ⟨hplain, hplaced⟩ := hp
    have hchildren : (s.states.map StateEntry.branch).filterMap StateEntry.ofBranch? =
        s.states.map StateEntry.bare :=
      filterMap_map_eq fun t ht => ih t ht (hplaced t ht)
    rw [branch_eq, StateEntry.ofBranch?, root_eq, ofBranches_eq_filterMap]
    simp only [ofKind?_kind, Option.map_some, initialAttribute?_kind hplain, targetsOf_own,
      entryActionsOf_own, exitActionsOf_own, transitionsOf_own _ htransitions, statesOf_own,
      hchildren, bare_eq]

/-- A chart is read back from its branch. -/
theorem ofBranch_branch {c : Chart} (hc : c.Worded) (hp : ∀ s ∈ c.states, s.Placed) :
    ofBranch c.branch = c.bare := by
  have hstates : (c.states.map StateEntry.branch).filterMap StateEntry.ofBranch? =
      c.states.map StateEntry.bare :=
    filterMap_map_eq fun s hs => ofBranch?_branch (hc.states s hs) (hp s hs)
  rw [ofBranch, branch, Branch.kind_node, Branch.children_node, branches_eq, targetsOf_own,
    ofBranches_eq_filterMap, statesOf_own, hstates, bare, bareAll_eq_map]
  rfl

end Chart

/-- The chart that a model holds, read back from its root. -/
def Model.chart? (m : Model) : Option Chart := (m.branch? 0).map Chart.ofBranch

/-- Charts that are read hold words in their word lists.  Of such a chart the model loses nothing
but the name and the empty ids; below each node are the nodes of an interval that starts behind it,
and whatever a node has besides child states is numbered before them, with all below. -/
theorem Chart.build_reads_back :
    (∀ d t c, ofTree? d t = some c → c.Worded) ∧
      ∀ (c : Chart) (m : Model), c.Worded → c.build = .ok m →
        m.chart? = some c.bare ∧
        (∀ i < m.size, ∃ n, ∀ j, m.isBelow j i ↔ i < j ∧ j < n) ∧
        ∀ i, ∀ e ∈ m.children i, ∀ s ∈ m.childStates i, ¬ m.isState e →
          ∀ j, m.Within j e → j < s := by
  refine ⟨fun d t c h => worded_of_ofTree? h, fun c m hc h => ?_⟩
  obtain ⟨hplaced, hbuilt, hholds, hsize⟩ := holds_of_build h
  have hm : m.WellFormed := hbuilt.wellFormed
  have hat : ∀ i < m.size, ∃ parent d children, m.Holds parent i (.node d children) ∧
      StatesLast children := fun i hi =>
    Model.exists_holds_of_holds hholds (everywhere_branch hplaced) (Nat.zero_le i) (by omega)
  refine ⟨?_, fun i hi => ?_, fun i e he s hs hes j hj => ?_⟩
  · rw [Model.chart?, Model.branch?_of_holds hholds, Option.map_some, ofBranch_branch hc hplaced]
  · obtain ⟨parent, d, children, hi, -⟩ := hat i hi
    exact ⟨_, Model.isBelow_iff_of_holds hm hi⟩
  · have hparent : m.parent? e = some i := hm.mem_children.1 he
    have hi : i < m.size := Nat.lt_trans (hm.parent_lt hparent) (Model.lt_size_of_parent? hparent)
    obtain ⟨parent, d, _, hi, own, states, rfl, hown, hstates⟩ := hat i hi
    exact hi.lt_childState hm hown hstates he hes hs hj

/-- A chart with a name, an empty id, an initial element, blocks, transitions with several
descriptors and states in a parallel state. -/
def Chart.nestedChart : Chart :=
  ⟨some "nested", some "work", [], [
    ⟨some "work", .state, none, ["left"], [.log (some "in") none, .raise "begun"],
      [.assign "n" "1"],
      [⟨["go", "stop.*"], some "ctx.n > 0", ["done"], .external, [.log none (some "ctx.n")]⟩], [
        ⟨some "", .parallel, none, [], [], [], [⟨[], none, [], .internal, []⟩], [
          ⟨some "left", .state, none, [], [], [], [], []⟩,
          ⟨none, .state, none, [], [], [], [], []⟩]⟩]⟩,
    ⟨some "done", .final, none, [], [], [], [], []⟩]⟩

/-- The model of that chart. -/
def Chart.nestedModel : Model := nestedChart.build.toOption.getD .empty

theorem Chart.build_nestedChart : nestedChart.build = .ok nestedModel := by
  have h : nestedChart.build.toOption.isSome = true := by decide +kernel
  unfold nestedModel
  cases hb : nestedChart.build with
  | error e => simp [hb, Except.toOption] at h
  | ok m => rfl

theorem Chart.build_reads_back_nested :
    (ofTree? .value (.ofJson nestedChart.toJson) = some nestedChart ∧ nestedChart.Worded) ∧
      nestedChart.build = .ok nestedModel ∧
      nestedModel.chart? = some nestedChart.bare ∧
      (1 < nestedModel.size ∧ ∃ n, ∀ j, nestedModel.isBelow j 1 ↔ 1 < j ∧ j < n) ∧
      2 ∈ nestedModel.children 1 ∧ 11 ∈ nestedModel.childStates 1 ∧ ¬ nestedModel.isState 2 ∧
      nestedModel.Within 3 2 ∧ 3 < 11 := by
  have read : ofTree? .value (.ofJson nestedChart.toJson) = some nestedChart := by rfl
  have worded : nestedChart.Worded := build_reads_back.1 _ _ _ read
  obtain ⟨back, interval, order⟩ :=
    build_reads_back.2 nestedChart nestedModel worded build_nestedChart
  have size : 1 < nestedModel.size := by decide +kernel
  have child : 2 ∈ nestedModel.children 1 := by decide +kernel
  have state : 11 ∈ nestedModel.childStates 1 := by decide +kernel
  have own : ¬ nestedModel.isState 2 := by decide +kernel
  have below : nestedModel.isBelow 3 2 := by decide +kernel
  exact ⟨⟨read, worded⟩, build_nestedChart, back, ⟨size, interval 1 size⟩, child, state, own,
    .inr below, order 1 2 child 11 state own 3 (.inr below)⟩

end Statechart
