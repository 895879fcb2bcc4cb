import Statechart.Chart.Reader
import Statechart.Proofs.Text.Words

/-!
# Charts whose word lists hold words

The lists of event descriptors and of targets in a chart are lists of texts.  A chart is `Worded` if
all these texts are words, and every chart that is read from a document is.

* `isWord_of_words?`: reading a list of words gives words only;
* `worded_of_readState`, `worded_of_ofTree?`: what is read is worded.
-/

namespace Statechart

open Text (IsWord)

namespace Chart

/-- The word lists of a transition hold words. -/
structure TransitionEntry.Worded (t : TransitionEntry) : Prop where
  event : ∀ w ∈ t.event, IsWord w
  target : ∀ w ∈ t.target, IsWord w

/-- The word lists of a state, and of all states in it, hold words. -/
inductive StateEntry.Worded : StateEntry → Prop
  | intro {s : StateEntry} (initial : ∀ w ∈ s.initialTransition, IsWord w)
      (transitions : ∀ t ∈ s.transitions, t.Worded) (states : ∀ t ∈ s.states, Worded t) : Worded s

end Chart

/-- The word lists of a chart hold words. -/
structure Chart.Worded (c : Chart) : Prop where
  initial : ∀ w ∈ c.initialTransition, IsWord w
  states : ∀ s ∈ c.states, s.Worded

/-! ### What readers give -/

namespace Tree

theorem exists_of_mem_mapM {α β : Type} {read : α → Option β} {items : List α} {out : List β}
    (h : items.mapM read = some out) {b : β} (hb : b ∈ out) : ∃ a, read a = some b := by
  induction items generalizing out with
  | nil =>
    rw [List.mapM_nil] at h
    cases h
    cases hb
  | cons a rest ih =>
    simp only [List.mapM_cons, Option.bind_eq_bind, Option.pure_def, Option.bind_eq_some_iff] at h
    obtain ⟨first, ha, others, hrest, hout⟩ := h
    cases hout
    rcases List.mem_cons.1 hb with rfl | hb
    · exact ⟨a, ha⟩
    · exact ih hrest hb

variable {α : Type} {read : Tree → Option α} {t : Tree} {given : Given} {name : String}

theorem exists_of_mem_list? {out : List α} (h : list? read t = some out) {a : α} (ha : a ∈ out) :
    ∃ t, read t = some a := by
  unfold list? at h
  split at h
  · exact exists_of_mem_mapM h ha
  · split at h
    · cases h
      cases ha
    · cases h
  · cases h

/-- The value of a field is its default, or it is read from something. -/
theorem orElse_cases {default a : α} (h : given.orElse name read default = some a) :
    a = default ∨ ∃ t, read t = some a := by
  unfold Given.orElse at h
  split at h
  · exact .inr ⟨_, h⟩
  · cases h
    exact .inl rfl

theorem exists_of_required {a : α} (h : given.required name read = some a) :
    ∃ t, read t = some a := by
  unfold Given.required at h
  split at h
  · exact ⟨_, h⟩
  · cases h

theorem exists_of_mem_orElse {out : List α} (h : given.orElse name (list? read) [] = some out)
    {a : α} (ha : a ∈ out) : ∃ t, read t = some a := by
  rcases orElse_cases h with rfl | ⟨t, ht⟩
  · cases ha
  · exact exists_of_mem_list? ht ha

theorem isWord_of_words? {out : List String} (h : words? t = some out) :
    ∀ w ∈ out, IsWord w := by
  unfold words? at h
  split at h
  · cases h
    simp
  · cases h
    exact fun w hw => Text.isWord_of_mem_words hw
  · obtain ⟨texts, -, rfl⟩ := Option.map_eq_some_iff.1 h
    intro w hw
    obtain ⟨s, -, hws⟩ := List.mem_flatMap.1 hw
    exact Text.isWord_of_mem_words hws
  · cases h

theorem isWord_of_orElse {out : List String} (h : given.orElse name words? [] = some out) :
    ∀ w ∈ out, IsWord w := by
  rcases orElse_cases h with rfl | ⟨t, ht⟩
  · simp
  · exact isWord_of_words? ht

end Tree

/-! ### Charts that are read -/

namespace Chart

open Statechart.Tree

variable {d : Dialect} {t : Tree}

theorem worded_of_readTransition {x : TransitionEntry} (h : readTransition d t = some x) :
    x.Worded := by
  simp only [readTransition, Option.bind_eq_bind, Option.pure_def, Option.bind_eq_some_iff] at h
  obtain ⟨given, -, event, hevent, cond, -, target, htarget, type, -, actions, -, hx⟩ := h
  cases hx
  exact ⟨isWord_of_orElse hevent, isWord_of_orElse htarget⟩

theorem worded_of_readState {fuel : Nat} {s : StateEntry} (h : readState d fuel t = some s) :
    s.Worded := by
  induction fuel generalizing t s with
  | zero => cases h
  | succ fuel ih =>
    simp only [readState, Option.bind_eq_bind, Option.pure_def, Option.bind_eq_some_iff] at h
    obtain ⟨given, -, id, -, type, -, initial, -, initialTransition, hinitial, onEntry, -, onExit,
      -, transitions, htransitions, states, hstates, hs⟩ := h
    cases hs
    refine .intro (isWord_of_orElse hinitial) (fun x hx => ?_) fun x hx => ?_
    · obtain ⟨u, hu⟩ := exists_of_mem_orElse htransitions hx
      exact worded_of_readTransition hu
    · obtain ⟨u, hu⟩ := exists_of_mem_orElse hstates hx
      exact ih hu

/-- Every chart that is read from a document is worded. -/
theorem worded_of_ofTree? {c : Chart} (h : ofTree? d t = some c) : c.Worded := by
  simp only [ofTree?, Option.bind_eq_bind, Option.pure_def, Option.bind_eq_some_iff] at h
  obtain ⟨given, -, name, -, initial, -, initialTransition, hinitial, states, hstates, hc⟩ := h
  cases hc
  refine ⟨isWord_of_orElse hinitial, fun s hs => ?_⟩
  obtain ⟨u, hu⟩ := exists_of_required hstates
  obtain ⟨v, hv⟩ := exists_of_mem_list? hu hs
  exact worded_of_readState hv

end Chart

end Statechart
