import Statechart.Configuration.Selection
import Statechart.Proofs.Configuration.Conflicts

/-!
# What is selected

The search for enabled transitions asks the evaluator for guards, which may answer differently each
time.  So what is selected is told relative to the answers that the search has got.

* `Inquiry`, `Answered`: the guards that are asked for, with the answers;
* `Model.Enabled`: the transitions that an event enables under some answers; `Model.Considered`: those
  of a state before which none is enabled; `Model.FirstEnabled`, `Model.Reached`: the one among them
  that is enabled, and the guards among them that matter;
* `Configuration.Searched`, `exists_searched`: the search among the transitions of one state asks for
  the guards up to the first transition that is enabled;
* `Configuration.Offered`, `exists_offered`: the search through all states puts these together, and
  so offers transitions of these states only (`exists_source_of_mem_offers`);
* `Configuration.select_first_enabled`: what is selected, and what is reported.
-/

namespace Statechart

variable {κ σ : Type}

/-- A transition reacts to an event that one of its descriptors accepts, or, without descriptors, to
the configuration alone. -/
def Transition.Matches (t : Transition) : Option Event → Prop
  | some e => ∃ d ∈ t.events, d.accepts e.name
  | none => t.events = []

theorem Transition.reactsTo_iff {t : Transition} {event : Option Event} :
    t.reactsTo event ↔ t.Matches event := by
  cases event with
  | none => simp [reactsTo, Matches, isEventless]
  | some e =>
    simp only [reactsTo, Matches, isEventless, accepts, Descriptor.anyAccepts, Bool.and_eq_true,
      Bool.not_eq_true', List.any_eq_true, and_iff_right_iff_imp, List.isEmpty_eq_false_iff]
    rintro ⟨d, hd, -⟩
    exact List.ne_nil_of_mem hd

/-! ### Guards that are asked for -/

/-- The guard of a transition of a state, and what the evaluator answers when it is asked for it. -/
structure Inquiry where
  state : Nat
  transition : Nat
  guard : String
  answer : Except Error Bool

namespace Inquiry

/-- Whether the guard holds; one that fails does not. -/
def holds (q : Inquiry) : Bool :=
  match q.answer with
  | .ok b => b
  | .error _ => false

/-- What is reported if the guard fails. -/
def fault? (q : Inquiry) : Option Error :=
  match q.answer with
  | .ok _ => none
  | .error e => some (.guard q.guard e)

/-- The order of the states, and of the transitions of one state. -/
def Before (q q' : Inquiry) : Prop :=
  q.state < q'.state ∨ q.state = q'.state ∧ q.transition < q'.transition

theorem holds_iff {q : Inquiry} : q.holds ↔ q.answer = .ok true := by
  unfold holds
  split <;> simp_all

theorem filterMap_fault?_cons (q : Inquiry) (asked : List Inquiry) :
    (q :: asked).filterMap fault? = q.fault?.toList ++ asked.filterMap fault? := by
  rw [List.filterMap_cons]
  cases q.fault? <;> rfl

end Inquiry

/-- The evaluator is asked for some guards, one after the other, and gives these answers. -/
inductive Answered (ev : Evaluator κ σ) (k : κ) : σ → List Inquiry → σ → Prop
  | nil {mem : σ} : Answered ev k mem [] mem
  | cons {q : Inquiry} {asked : List Inquiry} {mem mem' mem'' : σ}
      (h : ev.condition k q.guard mem = (q.answer, mem')) (later : Answered ev k mem' asked mem'') :
      Answered ev k mem (q :: asked) mem''

/-- The transitions' guards are given the answers that the evaluator has given. -/
def Agrees (answer : Nat → Except Error Bool) (asked : List Inquiry) : Prop :=
  ∀ q ∈ asked, answer q.transition = q.answer

variable {ev : Evaluator κ σ} {k : κ} {mem mem' mem'' : σ} {event : Option Event}
  {answer : Nat → Except Error Bool} {asked later : List Inquiry}

theorem Answered.append (h : Answered ev k mem asked mem') (h' : Answered ev k mem' later mem'') :
    Answered ev k mem (asked ++ later) mem'' := by
  induction h with
  | nil => exact h'
  | cons hq _ ih => exact .cons hq (ih h')

/-- Each answer is one that the evaluator gives with some memory. -/
theorem Answered.exists_memory (h : Answered ev k mem asked mem') {q : Inquiry} (hq : q ∈ asked) :
    ∃ mem, q.answer = (ev.condition k q.guard mem).1 := by
  induction h with
  | nil => cases hq
  | @cons q' _ before _ _ hanswer _ ih =>
    rcases List.mem_cons.1 hq with rfl | hq
    · exact ⟨before, by rw [hanswer]⟩
    · exact ih hq

theorem agrees_cons {q : Inquiry} :
    Agrees answer (q :: asked) ↔ answer q.transition = q.answer ∧ Agrees answer asked :=
  List.forall_mem_cons

theorem agrees_append : Agrees answer (asked ++ later) ↔ Agrees answer asked ∧ Agrees answer later :=
  List.forall_mem_append

/-- If no transition's guard has been asked for twice, the answers do not contradict each other. -/
theorem exists_agrees (h : (asked.map (·.transition)).Nodup) : ∃ answer, Agrees answer asked := by
  induction asked with
  | nil => exact ⟨fun _ => .ok false, by simp [Agrees]⟩
  | cons q asked ih =>
    rw [List.map_cons, List.nodup_cons] at h
    obtain ⟨hnew, hrest⟩ := h
    obtain ⟨answer, hanswer⟩ := ih hrest
    refine ⟨Function.update answer q.transition q.answer,
      agrees_cons.2 ⟨Function.update_self .., fun q' hq' => ?_⟩⟩
    have hne : q'.transition ≠ q.transition := by
      intro heq
      exact hnew (heq ▸ List.mem_map_of_mem hq')
    rw [Function.update_of_ne hne]
    exact hanswer q' hq'

/-! ### Enabled transitions -/

namespace Model

variable {m : Model} {s t u x : Nat} {text : String} {rest ts : List Nat}

/-- A transition reacts to an event and has a guard. -/
def Asks (m : Model) (event : Option Event) (t : Nat) (text : String) : Prop :=
  ∃ tr, m.transition? t = some tr ∧ tr.Matches event ∧ tr.cond = some text

/-- A transition reacts to an event and has no guard, or one that holds. -/
def Enabled (m : Model) (event : Option Event) (answer : Nat → Except Error Bool) (t : Nat) : Prop :=
  ∃ tr, m.transition? t = some tr ∧ tr.Matches event ∧ (tr.cond = none ∨ answer t = .ok true)

/-- A transition of a state before which, in document order, none of the state is enabled. -/
structure Considered (m : Model) (event : Option Event) (answer : Nat → Except Error Bool)
    (s t : Nat) : Prop where
  source : m.source? t = some s
  first {u : Nat} : m.source? u = some s → u < t → ¬ m.Enabled event answer u

/-- The first transition of a state that is enabled. -/
structure FirstEnabled (m : Model) (event : Option Event) (answer : Nat → Except Error Bool)
    (s t : Nat) : Prop extends Considered m event answer s t where
  enabled : m.Enabled event answer t

/-- A transition of a state has a guard that matters, as no earlier transition is enabled. -/
structure Reached (m : Model) (event : Option Event) (answer : Nat → Except Error Bool)
    (s t : Nat) (text : String) : Prop extends Considered m event answer s t where
  asks : m.Asks event t text

/-- Of some transitions, none before the given one is enabled. -/
def Comes (m : Model) (event : Option Event) (answer : Nat → Except Error Bool) (ts : List Nat)
    (t : Nat) : Prop :=
  t ∈ ts ∧ ∀ u ∈ ts, u < t → ¬ m.Enabled event answer u

theorem Asks.guard_unique {text' : String} (h : m.Asks event t text) (h' : m.Asks event t text') :
    text = text' := by
  obtain ⟨tr, htr, -, hcond⟩ := h
  obtain ⟨tr', htr', -, hcond'⟩ := h'
  cases htr.symm.trans htr'
  exact Option.some.inj (hcond.symm.trans hcond')

/-- The search comes to the first transition, and to later ones if the first is not enabled. -/
theorem comes_cons (hlt : ∀ u ∈ rest, x < u) : m.Comes event answer (x :: rest) t ↔
    t = x ∨ ¬ m.Enabled event answer x ∧ m.Comes event answer rest t := by
  constructor
  · rintro ⟨ht, hfirst⟩
    rcases List.mem_cons.1 ht with rfl | ht
    · exact .inl rfl
    · exact .inr ⟨hfirst x (List.mem_cons_self ..) (hlt t ht), ht,
        fun u hu => hfirst u (List.mem_cons_of_mem x hu)⟩
  · rintro (rfl | ⟨hx, ht, hfirst⟩)
    · refine ⟨List.mem_cons_self .., fun u hu hut => ?_⟩
      rcases List.mem_cons.1 hu with rfl | hu
      · exact absurd hut (Nat.lt_irrefl u)
      · exact absurd (hlt u hu) (Nat.not_lt.2 (Nat.le_of_lt hut))
    · refine ⟨List.mem_cons_of_mem x ht, fun u hu hut => ?_⟩
      rcases List.mem_cons.1 hu with rfl | hu
      · exact hx
      · exact hfirst u hu hut

theorem comes_cons_of_enabled (hlt : ∀ u ∈ rest, x < u) (hx : m.Enabled event answer x) :
    m.Comes event answer (x :: rest) t ↔ t = x := by
  rw [comes_cons hlt]
  exact or_iff_left fun h => h.1 hx

theorem comes_cons_of_not_enabled (hlt : ∀ u ∈ rest, x < u) (hx : ¬ m.Enabled event answer x) :
    m.Comes event answer (x :: rest) t ↔ t = x ∨ m.Comes event answer rest t := by
  rw [comes_cons hlt]
  exact or_congr_right (and_iff_right hx)

/-- If a transition has a guard, the answer decides. -/
theorem Asks.enabled_iff {q : Inquiry} (h : m.Asks event q.transition q.guard)
    (hagrees : answer q.transition = q.answer) :
    m.Enabled event answer q.transition ↔ q.holds := by
  obtain ⟨tr, htr, hmatches, hcond⟩ := h
  rw [Inquiry.holds_iff, ← hagrees]
  constructor
  · rintro ⟨tr', htr', -, hnone | hgranted⟩
    · cases htr.symm.trans htr'
      cases hcond.symm.trans hnone
    · exact hgranted
  · exact fun hgranted => ⟨tr, htr, hmatches, .inr hgranted⟩

theorem sorted_transitionsOf (hm : m.WellFormed) (s : Nat) :
    (m.transitionsOf s).Pairwise (· < ·) := (hm.sorted_children s).filter _

theorem mem_transitionsOf {tr : Transition} (hm : m.WellFormed) (hs : m.source? t = some s)
    (htr : m.transition? t = some tr) : t ∈ m.transitionsOf s :=
  hm.mem_childrenOfKind.2 ⟨hs, hasKind_isTransition_of htr⟩

/-- The search among the transitions of a state comes to those before which none is enabled. -/
theorem considered_iff {tr : Transition} (hm : m.WellFormed) (htr : m.transition? t = some tr) :
    m.Considered event answer s t ↔ m.Comes event answer (m.transitionsOf s) t := by
  constructor
  · intro h
    exact ⟨mem_transitionsOf hm h.source htr,
      fun u hu => h.first (hm.mem_childrenOfKind.1 hu).1⟩
  · rintro ⟨ht, hfirst⟩
    refine ⟨(hm.mem_childrenOfKind.1 ht).1, fun {u} hu hut henabled => ?_⟩
    obtain ⟨tr', htr', -⟩ := id henabled
    exact hfirst u (mem_transitionsOf hm hu htr') hut henabled

theorem firstEnabled_iff (hm : m.WellFormed) : m.FirstEnabled event answer s t ↔
    m.Comes event answer (m.transitionsOf s) t ∧ m.Enabled event answer t := by
  constructor
  · intro h
    obtain ⟨tr, htr, -⟩ := h.enabled
    exact ⟨(considered_iff hm htr).1 h.toConsidered, h.enabled⟩
  · rintro ⟨hcomes, henabled⟩
    obtain ⟨tr, htr, -⟩ := id henabled
    exact ⟨(considered_iff hm htr).2 hcomes, henabled⟩

theorem reached_iff (hm : m.WellFormed) : m.Reached event answer s t text ↔
    m.Comes event answer (m.transitionsOf s) t ∧ m.Asks event t text := by
  constructor
  · intro h
    obtain ⟨tr, htr, -⟩ := h.asks
    exact ⟨(considered_iff hm htr).1 h.toConsidered, h.asks⟩
  · rintro ⟨hcomes, hasks⟩
    obtain ⟨tr, htr, -⟩ := id hasks
    exact ⟨(considered_iff hm htr).2 hcomes, hasks⟩

/-- A state with an enabled transition has a first one. -/
theorem exists_firstEnabled (hs : m.source? t = some s) (h : m.Enabled event answer t) :
    ∃ u, m.FirstEnabled event answer s u := by
  induction t using Nat.strongRecOn with
  | ind t ih =>
    by_cases hfirst : ∃ u, m.source? u = some s ∧ u < t ∧ m.Enabled event answer u
    · obtain ⟨u, hu, hut, henabled⟩ := hfirst
      exact ih u hut hu henabled
    · exact ⟨t, ⟨hs, fun {u} hu hut henabled => hfirst ⟨u, hu, hut, henabled⟩⟩, h⟩

end Model

namespace Configuration

variable {m : Model} {c : Configuration} {s t x : Nat} {rest states ts : List Nat}

/-! ### The search in one state -/

/-- What the search among some transitions of a state asks for and finds. -/
structure Searched (m : Model) (ev : Evaluator κ σ) (k : κ) (event : Option Event) (s : Nat)
    (mem : σ) (ts : List Nat) (found : Selection (Option Nat) σ) (asked : List Inquiry) : Prop where
  answered : Answered ev k mem asked found.memory
  faults : found.faults = asked.filterMap Inquiry.fault?
  state {q : Inquiry} : q ∈ asked → q.state = s
  sublist : (asked.map (·.transition)).Sublist ts
  asks {q : Inquiry} : q ∈ asked → m.Asks event q.transition q.guard
  reached {answer : Nat → Except Error Bool} {t : Nat} : Agrees answer asked →
    ((∃ q ∈ asked, q.transition = t) ↔
      m.Comes event answer ts t ∧ ∃ text, m.Asks event t text)
  result {answer : Nat → Except Error Bool} {t : Nat} : Agrees answer asked →
    (found.result = some t ↔ m.Comes event answer ts t ∧ m.Enabled event answer t)

theorem guardHolds_some {q : Inquiry} (h : ev.condition k q.guard mem = (q.answer, mem')) :
    guardHolds ev k mem (some q.guard) = ⟨q.holds, mem', q.fault?.toList⟩ := by
  unfold guardHolds Inquiry.holds Inquiry.fault?
  dsimp only
  rw [h]
  cases q.answer <;> rfl

namespace Searched

variable {found : Selection (Option Nat) σ}

theorem nil : Searched m ev k event s mem [] ⟨none, mem, []⟩ [] where
  answered := .nil
  faults := rfl
  state hq := by cases hq
  sublist := .slnil
  asks hq := by cases hq
  reached _ := by simp [Model.Comes]
  result _ := by simp [Model.Comes]

/-- What does not react to the event is passed over. -/
theorem skip (h : Searched m ev k event s mem rest found asked) (hlt : ∀ u ∈ rest, x < u)
    (hx : ∀ tr, m.transition? x = some tr → ¬ tr.Matches event) :
    Searched m ev k event s mem (x :: rest) found asked where
  answered := h.answered
  faults := h.faults
  state := h.state
  sublist := h.sublist.cons x
  asks := h.asks
  reached {answer t} hagrees := by
    have henabled : ¬ m.Enabled event answer x := fun ⟨tr, htr, hmatches, _⟩ => hx tr htr hmatches
    have hasks : ¬ ∃ text, m.Asks event x text := fun ⟨_, tr, htr, hmatches, _⟩ => hx tr htr hmatches
    rw [h.reached hagrees, Model.comes_cons_of_not_enabled hlt henabled, or_and_right]
    refine (or_iff_right ?_).symm
    rintro ⟨rfl, ht⟩
    exact hasks ht
  result {answer t} hagrees := by
    have henabled : ¬ m.Enabled event answer x := fun ⟨tr, htr, hmatches, _⟩ => hx tr htr hmatches
    rw [h.result hagrees, Model.comes_cons_of_not_enabled hlt henabled, or_and_right]
    refine (or_iff_right ?_).symm
    rintro ⟨rfl, ht⟩
    exact henabled ht

/-- A transition that reacts to the event and has no guard ends the search. -/
theorem unguarded {tr : Transition} (hlt : ∀ u ∈ rest, x < u) (htr : m.transition? x = some tr)
    (hmatches : tr.Matches event) (hcond : tr.cond = none) :
    Searched m ev k event s mem (x :: rest) ⟨some x, mem, []⟩ [] where
  answered := .nil
  faults := rfl
  state hq := by cases hq
  sublist := List.nil_sublist _
  asks hq := by cases hq
  reached {answer t} _ := by
    rw [Model.comes_cons_of_enabled hlt ⟨tr, htr, hmatches, .inl hcond⟩]
    constructor
    · rintro ⟨q, hq, -⟩
      cases hq
    · rintro ⟨rfl, text, tr', htr', -, hcond'⟩
      cases htr.symm.trans htr'
      cases hcond.symm.trans hcond'
  result {answer t} _ := by
    have henabled : m.Enabled event answer x := ⟨tr, htr, hmatches, .inl hcond⟩
    rw [Model.comes_cons_of_enabled hlt henabled, Option.some.injEq]
    constructor
    · rintro rfl
      exact ⟨rfl, henabled⟩
    · exact fun h => h.1.symm

section Guarded

variable {q : Inquiry} (hlt : ∀ u ∈ rest, q.transition < u) (hs : q.state = s)
  (hasks : m.Asks event q.transition q.guard)
  (hanswer : ev.condition k q.guard mem = (q.answer, mem'))
include hlt hs hasks hanswer

/-- A guard that holds ends the search. -/
theorem granted (hholds : q.holds) : Searched m ev k event s mem (q.transition :: rest)
    ⟨some q.transition, mem', q.fault?.toList⟩ [q] where
  answered := .cons hanswer .nil
  faults := by rw [Inquiry.filterMap_fault?_cons, List.filterMap_nil, List.append_nil]
  state hq := by rw [List.mem_singleton.1 hq, hs]
  sublist := (List.nil_sublist rest).cons_cons q.transition
  asks hq := by
    rw [List.mem_singleton.1 hq]
    exact hasks
  reached {answer t} hagrees := by
    have henabled := (hasks.enabled_iff (hagrees q (List.mem_singleton_self q))).2 hholds
    rw [Model.comes_cons_of_enabled hlt henabled]
    constructor
    · rintro ⟨q', hq', rfl⟩
      rw [List.mem_singleton.1 hq']
      exact ⟨rfl, q.guard, hasks⟩
    · rintro ⟨rfl, -⟩
      exact ⟨q, List.mem_singleton_self q, rfl⟩
  result {answer t} hagrees := by
    have henabled := (hasks.enabled_iff (hagrees q (List.mem_singleton_self q))).2 hholds
    rw [Model.comes_cons_of_enabled hlt henabled, Option.some.injEq]
    constructor
    · rintro rfl
      exact ⟨rfl, henabled⟩
    · exact fun h => h.1.symm

/-- After a guard that does not hold, or fails, the search goes on with what the evaluator then
remembers. -/
theorem denied (hholds : ¬ q.holds) (h : Searched m ev k event s mem' rest found asked) :
    Searched m ev k event s mem (q.transition :: rest)
      ⟨found.result, found.memory, q.fault?.toList ++ found.faults⟩ (q :: asked) where
  answered := .cons hanswer h.answered
  faults := by rw [Inquiry.filterMap_fault?_cons, h.faults]
  state hq := (List.mem_cons.1 hq).elim (fun hq => hq ▸ hs) h.state
  sublist := h.sublist.cons_cons q.transition
  asks hq := by
    rcases List.mem_cons.1 hq with rfl | hq
    · exact hasks
    · exact h.asks hq
  reached {answer t} hagrees := by
    obtain ⟨hq, hrest⟩ := agrees_cons.1 hagrees
    have hdenied := mt (hasks.enabled_iff hq).1 hholds
    rw [Model.comes_cons_of_not_enabled hlt hdenied, or_and_right, ← h.reached hrest]
    simp only [List.mem_cons, exists_eq_or_imp]
    refine or_congr_left ?_
    constructor
    · rintro rfl
      exact ⟨rfl, q.guard, hasks⟩
    · exact fun h => h.1.symm
  result {answer t} hagrees := by
    obtain ⟨hq, hrest⟩ := agrees_cons.1 hagrees
    have hdenied := mt (hasks.enabled_iff hq).1 hholds
    rw [h.result hrest, Model.comes_cons_of_not_enabled hlt hdenied, or_and_right]
    refine (or_iff_right ?_).symm
    rintro ⟨rfl, ht⟩
    exact hdenied ht

end Guarded

end Searched

/-- The search among transitions in document order. -/
theorem exists_searched (ev : Evaluator κ σ) (k : κ) (event : Option Event) (s : Nat) (mem : σ)
    (hts : ts.Pairwise (· < ·)) :
    ∃ asked, Searched m ev k event s mem ts (firstEnabled m ev k event mem ts) asked := by
  induction ts generalizing mem with
  | nil => exact ⟨[], .nil⟩
  | cons x rest ih =>
    obtain ⟨hlt, hrest⟩ := List.pairwise_cons.1 hts
    unfold firstEnabled
    cases htr : m.transition? x with
    | none =>
      obtain ⟨asked, h⟩ := ih mem hrest
      exact ⟨asked, h.skip hlt fun tr htr' => by cases htr.symm.trans htr'⟩
    | some tr =>
      dsimp only
      by_cases hreacts : tr.reactsTo event
      · have hmatches := Transition.reactsTo_iff.1 hreacts
        rw [if_pos hreacts]
        cases hcond : tr.cond with
        | none => exact ⟨[], .unguarded hlt htr hmatches hcond⟩
        | some text =>
          rcases hanswer : ev.condition k text mem with ⟨answer, mem'⟩
          -- The rest is searched with what the evaluator remembers after its answer.
          let q : Inquiry := ⟨s, x, text, answer⟩
          have hasks : m.Asks event q.transition q.guard := ⟨tr, htr, hmatches, hcond⟩
          rw [show text = q.guard from rfl, guardHolds_some (q := q) hanswer]
          by_cases hholds : q.holds
          · rw [if_pos hholds]
            exact ⟨[q], .granted hlt rfl hasks hanswer hholds⟩
          · rw [if_neg hholds]
            obtain ⟨asked, h⟩ := ih mem' hrest
            exact ⟨q :: asked, .denied hlt rfl hasks hanswer hholds h⟩
      · rw [if_neg hreacts]
        obtain ⟨asked, h⟩ := ih mem hrest
        refine ⟨asked, h.skip hlt fun tr' htr' => ?_⟩
        cases htr.symm.trans htr'
        exact mt Transition.reactsTo_iff.2 hreacts

/-- What the search among all transitions of a state asks for. -/
theorem Searched.exists_iff_reached (hm : m.WellFormed) {found : Selection (Option Nat) σ}
    (h : Searched m ev k event s mem (m.transitionsOf s) found asked) (hagrees : Agrees answer asked)
    {s' : Nat} {text : String} :
    (∃ q ∈ asked, q.state = s' ∧ q.transition = t ∧ q.guard = text) ↔
      s' = s ∧ m.Reached event answer s t text := by
  rw [Model.reached_iff hm]
  constructor
  · rintro ⟨q, hq, rfl, rfl, rfl⟩
    obtain ⟨hcomes, -⟩ := (h.reached hagrees).1 ⟨q, hq, rfl⟩
    exact ⟨h.state hq, hcomes, h.asks hq⟩
  · rintro ⟨rfl, hcomes, hasks⟩
    obtain ⟨q, hq, rfl⟩ := (h.reached hagrees).2 ⟨hcomes, text, hasks⟩
    exact ⟨q, hq, h.state hq, rfl, (h.asks hq).guard_unique hasks⟩

/-! ### The search through all states -/

/-- What the search through some states asks for and finds. -/
structure Offered (m : Model) (ev : Evaluator κ σ) (k : κ) (event : Option Event) (mem : σ)
    (states : List Nat) (offered : Selection (List Nat) σ) (asked : List Inquiry) : Prop where
  answered : Answered ev k mem asked offered.memory
  faults : offered.faults = asked.filterMap Inquiry.fault?
  ordered : asked.Pairwise Inquiry.Before
  state {q : Inquiry} : q ∈ asked → q.state ∈ states
  source {q : Inquiry} : q ∈ asked → m.source? q.transition = some q.state
  reached {answer : Nat → Except Error Bool} {s t : Nat} {text : String} : Agrees answer asked →
    ((∃ q ∈ asked, q.state = s ∧ q.transition = t ∧ q.guard = text) ↔
      s ∈ states ∧ m.Reached event answer s t text)
  result {answer : Nat → Except Error Bool} {t : Nat} : Agrees answer asked →
    (t ∈ offered.result ↔ ∃ s ∈ states, m.FirstEnabled event answer s t)

namespace Offered

variable {offered : Selection (List Nat) σ} {found : Selection (Option Nat) σ}

theorem nil : Offered m ev k event mem [] ⟨[], mem, []⟩ [] where
  answered := .nil
  faults := rfl
  ordered := .nil
  state hq := by cases hq
  source hq := by cases hq
  reached _ := by simp
  result _ := by simp

/-- The search in one state is followed by that in the others. -/
theorem cons (hm : m.WellFormed) (hlt : ∀ r ∈ states, s < r)
    (h : Searched m ev k event s mem (m.transitionsOf s) found asked)
    (h' : Offered m ev k event found.memory states offered later) :
    Offered m ev k event mem (s :: states)
      ⟨found.result.toList ++ offered.result, offered.memory, found.faults ++ offered.faults⟩
      (asked ++ later) where
  answered := h.answered.append h'.answered
  faults := by
    dsimp only
    rw [h.faults, h'.faults, List.filterMap_append]
  ordered := by
    refine List.pairwise_append.2 ⟨?_, h'.ordered, fun q hq q' hq' => ?_⟩
    · have hasked := List.pairwise_map.1 ((Model.sorted_transitionsOf hm s).sublist h.sublist)
      refine hasked.imp_of_mem fun {q q'} hq hq' hlt => .inr ⟨?_, hlt⟩
      rw [h.state hq, h.state hq']
    · refine .inl ?_
      rw [h.state hq]
      exact hlt q'.state (h'.state hq')
  state hq := by
    rcases List.mem_append.1 hq with hq | hq
    · rw [h.state hq]
      exact List.mem_cons_self ..
    · exact List.mem_cons_of_mem s (h'.state hq)
  source {q} hq := by
    rcases List.mem_append.1 hq with hq | hq
    · have hmem : q.transition ∈ m.transitionsOf s := h.sublist.subset (List.mem_map_of_mem hq)
      rw [h.state hq]
      exact (hm.mem_childrenOfKind.1 hmem).1
    · exact h'.source hq
  reached {answer s' t text} hagrees := by
    obtain ⟨hasked, hlater⟩ := agrees_append.1 hagrees
    simp only [List.mem_append, or_and_right, exists_or, h.exists_iff_reached hm hasked,
      h'.reached hlater, List.mem_cons]
    refine or_congr_left (and_congr_right ?_)
    rintro rfl
    exact Iff.rfl
  result {answer t} hagrees := by
    obtain ⟨hasked, hlater⟩ := agrees_append.1 hagrees
    simp only [List.mem_append, Option.mem_toList, h.result hasked, h'.result hlater, List.mem_cons,
      exists_eq_or_imp, Model.firstEnabled_iff hm]

/-- No transition's guard is asked for twice: that would be for one state. -/
theorem nodup_transitions (h : Offered m ev k event mem states offered asked) :
    (asked.map (·.transition)).Nodup := by
  refine List.pairwise_map.2 (h.ordered.imp_of_mem fun {q q'} hq hq' hbefore heq => ?_)
  have hstate : q.state = q'.state := by
    have hsource := h.source hq
    rw [heq, h.source hq'] at hsource
    exact (Option.some.inj hsource).symm
  rcases hbefore with hlt | ⟨-, hlt⟩
  · exact Nat.ne_of_lt hlt hstate
  · exact Nat.ne_of_lt hlt heq

end Offered

theorem exists_offered (hm : m.WellFormed) (ev : Evaluator κ σ) (k : κ) (event : Option Event)
    (mem : σ) (hstates : states.Pairwise (· < ·)) :
    ∃ asked, Offered m ev k event mem states (offers m ev k event mem states) asked := by
  induction states generalizing mem with
  | nil => exact ⟨[], .nil⟩
  | cons s rest ih =>
    obtain ⟨hlt, hrest⟩ := List.pairwise_cons.1 hstates
    obtain ⟨asked, h⟩ := exists_searched ev k event s mem (Model.sorted_transitionsOf hm s)
    obtain ⟨later, h'⟩ := ih (firstEnabled m ev k event mem (m.transitionsOf s)).memory hrest
    exact ⟨asked ++ later, .cons hm hlt h h'⟩

/-- A state offers a transition of its own. -/
theorem exists_source_of_mem_offers (hm : m.WellFormed) (hstates : states.Pairwise (· < ·))
    (ht : t ∈ (offers m ev k event mem states).result) : ∃ s ∈ states, m.source? t = some s := by
  obtain ⟨asked, h⟩ := exists_offered hm ev k event mem hstates
  obtain ⟨answer, hagrees⟩ := exists_agrees h.nodup_transitions
  obtain ⟨s, hs, hfirst⟩ := (h.result hagrees).1 ht
  exact ⟨s, hs, hfirst.source⟩

end Configuration

/-! ### A chart with three guards -/

/-- An evaluator that counts the guards it is asked for, of which `fails` fails and `yes` holds. -/
def Evaluator.counting : Evaluator Unit Nat where
  evaluate _ _ n := (.ok .null, n)
  condition _ text n :=
    if text = "fails" then (.error (.invalidExpression .endOfExpression), n + 1)
    else (.ok (text = "yes"), n + 1)

namespace Model

/-- On `go` the region `r` of the parallel state `p` has three transitions with guards, and `p` has one
without. -/
def choosing : Model where
  nodes := #[
    ⟨none, .scxml none, none, [1, 8]⟩,
    ⟨some "p", .parallel, some 0, [2, 6, 7]⟩,
    ⟨some "r", .state none, some 1, [3, 4, 5]⟩,
    ⟨none, .transition ⟨[⟨"go"⟩], some "fails", ["end"], .external⟩, some 2, []⟩,
    ⟨none, .transition ⟨[⟨"go"⟩], some "no", ["end"], .external⟩, some 2, []⟩,
    ⟨none, .transition ⟨[⟨"go"⟩], some "yes", [], .external⟩, some 2, []⟩,
    ⟨some "s", .state none, some 1, []⟩,
    ⟨none, .transition ⟨[⟨"go"⟩], none, ["end"], .external⟩, some 1, []⟩,
    ⟨some "end", .final, some 0, []⟩]
  root? := some 0
  index := [("p", 1), ("r", 2), ("s", 6), ("end", 8)]
  transitions := [3, 4, 5, 7]

theorem addAll?_choosing :
    empty.addAll? (choosing.nodes.toList.map fun n => (⟨n.id, n.kind⟩, n.parent)) =
      some choosing := by decide +kernel

theorem built_choosing : choosing.Built := Built.empty.addAll? addAll?_choosing

theorem firstEnabled_choosing (answer : Nat → Except Error Bool) :
    choosing.FirstEnabled (some (.external "go")) answer 1 7 where
  source := rfl
  enabled := ⟨_, rfl, ⟨⟨"go"⟩, by decide, by decide +kernel⟩, .inl rfl⟩
  first {u} hu hlt := by
    have hnone : ∀ u < 7, choosing.source? u = some 1 → choosing.transition? u = none := by decide
    rintro ⟨tr, htr, -⟩
    cases (hnone u hlt hu).symm.trans htr

end Model

namespace Configuration

open Model

/-- The configuration in which the chart with three guards starts. -/
def choosingStart : Configuration := ⟨.ofList [1, 2, 6]⟩

/-- What `go` selects in it. -/
def choice : Selection (List Nat) Nat :=
  choosingStart.select choosing .counting () (some (.external "go")) 0

/-- A selection asks the evaluator for the guards of transitions of active states that react to the
event, state by state and in document order, up to the first transition of a state that is enabled, and
reports those that fail.  If the answers do not depend on what the evaluator remembers, they are those
to the guards.  What the selection returns is an increasing list of transitions, each the first enabled
one of an active state; if that of an active state is missing, it is in conflict with a smaller one in
the list; and the list is empty only if no active state has an enabled transition. -/
theorem select_first_enabled (hb : m.Built) (c : Configuration) (ev : Evaluator κ σ) (k : κ)
    (event : Option Event) (mem : σ) :
    ∃ asked, Answered ev k mem asked (c.select m ev k event mem).memory ∧
      (c.select m ev k event mem).faults = asked.filterMap Inquiry.fault? ∧
      asked.Pairwise Inquiry.Before ∧ (∃ answer, Agrees answer asked) ∧
      (∀ truth : String → Except Error Bool, (∀ text mem, (ev.condition k text mem).1 = truth text) →
        ∀ q ∈ asked, q.answer = truth q.guard) ∧
      ∀ answer, Agrees answer asked →
        (∀ s t text, (∃ q ∈ asked, q.state = s ∧ q.transition = t ∧ q.guard = text) ↔
          s ∈ c.states ∧ m.Reached event answer s t text) ∧
        (c.select m ev k event mem).result.Pairwise (· < ·) ∧
        (∀ t ∈ (c.select m ev k event mem).result, ∃ s ∈ c.states, m.FirstEnabled event answer s t) ∧
        (∀ s ∈ c.states, ∀ t, m.FirstEnabled event answer s t →
          t ∉ (c.select m ev k event mem).result →
            ∃ u ∈ (c.select m ev k event mem).result, u < t ∧ c.conflicts m t u) ∧
        ((c.select m ev k event mem).result = [] ↔
          ∀ s ∈ c.states, ∀ t, m.source? t = some s → ¬ m.Enabled event answer t) := by
  obtain ⟨asked, h⟩ := exists_offered hb.wellFormed ev k event mem c.states.sorted
  have hkept := survivors_preempt m c (offers m ev k event mem c.states.toList).result
  refine ⟨asked, h.answered, h.faults, h.ordered, exists_agrees h.nodup_transitions, ?_,
    fun answer hagrees => ⟨fun s t text => h.reached hagrees, hkept.sorted, ?_, ?_, ?_⟩⟩
  · intro truth htruth q hq
    obtain ⟨mem', hanswer⟩ := h.answered.exists_memory hq
    rw [hanswer, htruth]
  · exact fun t ht => (h.result hagrees).1 (hkept.mem_candidates ht)
  · exact fun s hs t ht => hkept.preempted ((h.result hagrees).2 ⟨s, hs, ht⟩)
  · rw [show (c.select m ev k event mem).result = [] ↔ _ from preempt_eq_nil_iff,
      List.eq_nil_iff_forall_not_mem]
    constructor
    · intro hnone s hs t hsource henabled
      obtain ⟨u, hu⟩ := Model.exists_firstEnabled hsource henabled
      exact hnone u ((h.result hagrees).2 ⟨s, hs, hu⟩)
    · intro hnone t ht
      obtain ⟨s, hs, hfirst⟩ := (h.result hagrees).1 ht
      exact hnone s hs t hfirst.source hfirst.enabled

/-- The third transition of `r` is taken, after three guards of which the first has failed; that of `p`
is enabled too, but in conflict with it. -/
theorem select_first_enabled_choosing :
    choosing.Built ∧ choice.result = [5] ∧ choice.memory = 3 ∧
      choice.faults = [.guard "fails" (.invalidExpression .endOfExpression)] ∧
      choosingStart.conflicts choosing 7 5 := by
  have hresult : choice.result = [5] := by decide +kernel
  have hmissing : 7 ∉ choice.result := by
    rw [hresult]
    decide
  obtain ⟨asked, -, -, -, ⟨answer, hagrees⟩, -, h⟩ :=
    select_first_enabled built_choosing choosingStart .counting () (some (.external "go")) 0
  obtain ⟨-, -, -, hdropped, -⟩ := h answer hagrees
  obtain ⟨u, hu, -, hconflict⟩ := hdropped 1 (by decide) 7 (firstEnabled_choosing answer) hmissing
  have hfive : u = 5 := by
    change u ∈ choice.result at hu
    rwa [hresult, List.mem_singleton] at hu
  exact ⟨built_choosing, hresult, by rfl, by rfl, hfive ▸ hconflict⟩

end Configuration

end Statechart
