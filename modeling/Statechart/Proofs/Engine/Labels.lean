import Statechart.Engine.Basic
import Statechart.Proofs.Model.Consistency

/-!
# Labels of states

A state goes by its label: its id, or its kind and number if it has none.  The labels of the active
states stand for a configuration, and the label of a completed state is part of the name of the event
that says so.  Ids differ from each other, and so do kinds with numbers, but nothing keeps an author
from giving a state the id `state#1`.

* `Model.Poses`: the id of one state is what another state, without an id, is labelled with;
* `Model.Built.label_eq_iff`: two states have the same label exactly if one poses as the other;
* `Model.Unmistakable`: no state poses as another one; `Model.Built.unmistakable_iff`: then, and only
  then, labels tell configurations apart;
* `labels_spec`: what labels tell in all models that additions make.
-/

namespace Statechart

namespace Model

variable {m : Model} {i j : Nat} {n : Node}

/-- A state poses as another one: its id is the label of the other, which has no id itself. -/
def Poses (m : Model) (i j : Nat) : Prop :=
  ∃ n n', m.node? i = some n ∧ m.node? j = some n' ∧ n'.id = none ∧
    n.id = some (n'.kind.name ++ "#" ++ toString j)

/-- No state poses as another one. -/
def Unmistakable (m : Model) : Prop := ∀ i j, m.isState i → m.isState j → ¬ m.Poses i j

/-! ### Two states with one label -/

theorem label_of_id (hn : m.node? i = some n) {id : String} (hid : n.id = some id) :
    m.label i = id := by
  obtain ⟨_, kind, parent, children⟩ := n
  cases hid
  rw [label, hn]

theorem label_of_no_id (hn : m.node? i = some n) (hid : n.id = none) :
    m.label i = n.kind.name ++ "#" ++ toString i := by
  obtain ⟨_, kind, parent, children⟩ := n
  cases hid
  rw [label, hn]

/-- The word for a kind has no mark in it, so the first mark of a label stands before the number. -/
theorem dropWhile_numbered (k : Kind) (i : Nat) :
    (k.name ++ "#" ++ toString i).toList.dropWhile (· ≠ '#') = '#' :: (toString i).toList := by
  have hname : ∀ c ∈ k.name.toList, decide (c ≠ '#') := by
    cases k <;> simp [Kind.name]
  simp only [String.toList_append, List.append_assoc, List.dropWhile_append_of_pos hname]
  rfl

/-- The number can be read off the label of a state without an id. -/
theorem eq_of_numbered {k k' : Kind}
    (h : k.name ++ "#" ++ toString i = k'.name ++ "#" ++ toString j) : i = j := by
  have hlist := congrArg (fun s => s.toList.dropWhile (· ≠ '#')) h
  simp only [dropWhile_numbered, List.cons.injEq, true_and] at hlist
  exact Text.toString_injective (String.toList_inj.1 hlist)

/-- Two states have the same label exactly if one of them poses as the other. -/
theorem Built.label_eq_iff (h : m.Built) (hi : m.isState i) (hj : m.isState j) :
    m.label i = m.label j ↔ i = j ∨ m.Poses i j ∨ m.Poses j i := by
  obtain ⟨k, hk, -⟩ := hasKind_iff.1 hi
  obtain ⟨k', hk', -⟩ := hasKind_iff.1 hj
  obtain ⟨n, hn, rfl⟩ := Option.map_eq_some_iff.1 hk
  obtain ⟨n', hn', rfl⟩ := Option.map_eq_some_iff.1 hk'
  constructor
  · intro hlabel
    cases hid : n.id with
    | some id =>
      rw [label_of_id hn hid] at hlabel
      cases hid' : n'.id with
      | some id' =>
        -- Both have an id, so both are found under it.
        rw [label_of_id hn' hid'] at hlabel
        refine .inl (h.consistent.key_inj hi hj ?_)
        simp [key, hn, hn', hid, hid', hlabel]
      | none =>
        rw [label_of_no_id hn' hid'] at hlabel
        exact .inr (.inl ⟨n, n', hn, hn', hid', hid.trans (congrArg some hlabel)⟩)
    | none =>
      rw [label_of_no_id hn hid] at hlabel
      cases hid' : n'.id with
      | some id' =>
        rw [label_of_id hn' hid'] at hlabel
        exact .inr (.inr ⟨n', n, hn', hn, hid, hid'.trans (congrArg some hlabel.symm)⟩)
      | none =>
        rw [label_of_no_id hn' hid'] at hlabel
        exact .inl (eq_of_numbered hlabel)
  · rintro (rfl | ⟨a, b, ha, hb, hnone, hsome⟩ | ⟨a, b, ha, hb, hnone, hsome⟩)
    · rfl
    · rw [label_of_id ha hsome, label_of_no_id hb hnone]
    · rw [label_of_id ha hsome, label_of_no_id hb hnone]

theorem not_poses_self (m : Model) (i : Nat) : ¬ m.Poses i i := by
  rintro ⟨n, n', hn, hn', hnone, hsome⟩
  rw [hn] at hn'
  cases hn'
  rw [hnone] at hsome
  cases hsome

/-! ### What labels tell -/

/-- In a model where no state poses as another one, labels tell states apart. -/
theorem Built.eq_of_label_eq (h : m.Built) (hm : m.Unmistakable) (hi : m.isState i)
    (hj : m.isState j) (hlabel : m.label i = m.label j) : i = j := by
  rcases (h.label_eq_iff hi hj).1 hlabel with heq | hposes | hposes
  · exact heq
  · exact absurd hposes (hm i j hi hj)
  · exact absurd hposes (hm j i hj hi)

/-- The labels of a list of states tell the list. -/
theorem Built.eq_of_map_label_eq (h : m.Built) (hm : m.Unmistakable) {l l' : List Nat}
    (hl : ∀ s ∈ l, m.isState s) (hl' : ∀ s ∈ l', m.isState s)
    (hlabels : l.map m.label = l'.map m.label) : l = l' := by
  induction l generalizing l' with
  | nil => exact (List.map_eq_nil_iff.1 hlabels.symm).symm
  | cons s rest ih =>
    cases l' with
    | nil => cases hlabels
    | cons s' rest' =>
      obtain ⟨hhead, htail⟩ := List.cons.inj hlabels
      obtain ⟨hs, hrest⟩ := List.forall_mem_cons.1 hl
      obtain ⟨hs', hrest'⟩ := List.forall_mem_cons.1 hl'
      rw [h.eq_of_label_eq hm hs hs' hhead, ih hrest hrest' htail]

/-- Labels tell configurations apart exactly if no state poses as another one. -/
theorem Built.unmistakable_iff (h : m.Built) :
    m.Unmistakable ↔ ∀ c c' : Configuration, (∀ s ∈ c.states, m.isState s) →
      (∀ s ∈ c'.states, m.isState s) → c.ids m = c'.ids m → c = c' := by
  constructor
  · intro hm c c' hc hc' hids
    have hlist := h.eq_of_map_label_eq hm hc hc' hids
    obtain ⟨⟨l, hl⟩⟩ := c
    obtain ⟨⟨l', hl'⟩⟩ := c'
    obtain rfl : l = l' := hlist
    rfl
  · intro hids i j hi hj hposes
    -- The two states alone have the same labels.
    have hlabel : m.label i = m.label j := (h.label_eq_iff hi hj).2 (.inr (.inl hposes))
    have hsame := hids ⟨⟨[i], List.pairwise_singleton ..⟩⟩ ⟨⟨[j], List.pairwise_singleton ..⟩⟩
      (fun s hs => List.mem_singleton.1 hs ▸ hi) (fun s hs => List.mem_singleton.1 hs ▸ hj)
      (congrArg (fun l => [l]) hlabel)
    cases hsame
    exact not_poses_self m i hposes

/-- The name of the event that says that a state is completed tells the state exactly if the state
poses as no other one, and no other one poses as it. -/
theorem Built.doneEvent_iff (h : m.Built) (hi : m.isState i) :
    (∀ j, m.isState j → (doneEvent m j).name = (doneEvent m i).name → j = i) ↔
      ∀ j, m.isState j → ¬ m.Poses i j ∧ ¬ m.Poses j i := by
  have hname : ∀ j, (doneEvent m j).name = (doneEvent m i).name ↔ m.label j = m.label i :=
    fun j => String.append_right_inj "done.state."
  constructor
  · intro hdone j hj
    have hne : ∀ hlabel : m.label j = m.label i, j = i := fun hlabel =>
      hdone j hj ((hname j).2 hlabel)
    refine ⟨fun hposes => ?_, fun hposes => ?_⟩
    · cases hne ((h.label_eq_iff hj hi).2 (.inr (.inr hposes)))
      exact not_poses_self m i hposes
    · cases hne ((h.label_eq_iff hj hi).2 (.inr (.inl hposes)))
      exact not_poses_self m i hposes
  · intro hposes j hj hdone
    rcases (h.label_eq_iff hj hi).1 ((hname j).1 hdone) with heq | hji | hij
    · exact heq
    · exact absurd hji (hposes j hj).2
    · exact absurd hij (hposes j hj).1

/-- In every model that additions make, two states have the same label exactly if one of them poses as
the other: it has an id like `state#1`, which the other, without an id, is labelled with.  If no state
does so, and only then, the labels of the active states tell the configuration; and the event that
says that a state is completed tells the state exactly if the state has no part in such a pair. -/
theorem labels_spec (h : m.Built) :
    (∀ i j, m.isState i → m.isState j →
        (m.label i = m.label j ↔ i = j ∨ m.Poses i j ∨ m.Poses j i)) ∧
      (m.Unmistakable ↔ ∀ c c' : Configuration, (∀ s ∈ c.states, m.isState s) →
        (∀ s ∈ c'.states, m.isState s) → c.ids m = c'.ids m → c = c') ∧
      ∀ i, m.isState i →
        ((∀ j, m.isState j → (doneEvent m j).name = (doneEvent m i).name → j = i) ↔
          ∀ j, m.isState j → ¬ m.Poses i j ∧ ¬ m.Poses j i) :=
  ⟨fun _ _ => h.label_eq_iff, h.unmistakable_iff, fun _ => h.doneEvent_iff⟩

/-! ### A state that poses as another one -/

/-- The second state poses as the first one, which has no id. -/
def posing : Model where
  nodes := #[
    ⟨none, .scxml none, none, [1, 2]⟩,
    ⟨none, .state none, some 0, []⟩,
    ⟨some "state#1", .state none, some 0, []⟩]
  root? := some 0
  index := [("__TID__1", 1), ("state#1", 2)]
  transitions := []

theorem addAll?_posing :
    empty.addAll? (posing.nodes.toList.map fun n => (⟨n.id, n.kind⟩, n.parent)) =
      some posing := by decide +kernel

/-- Two legal configurations have the same labels, and the completion of either state is announced by
the same event. -/
theorem labels_spec_posing :
    posing.Built ∧ posing.Poses 2 1 ∧ posing.label 2 = posing.label 1 ∧
      (doneEvent posing 2).name = (doneEvent posing 1).name ∧
      ∃ c c' : Configuration, c.isLegal posing ∧ c'.isLegal posing ∧
        c.ids posing = c'.ids posing ∧ c ≠ c' := by
  have hbuilt : posing.Built := Built.empty.addAll? addAll?_posing
  have hposes : posing.Poses 2 1 := ⟨_, _, rfl, rfl, rfl, by decide⟩
  have hstate₁ : posing.isState 1 := by decide
  have hstate₂ : posing.isState 2 := by decide
  have hlabel := ((labels_spec hbuilt).1 2 1 hstate₂ hstate₁).2 (.inr (.inl hposes))
  refine ⟨hbuilt, hposes, hlabel, congrArg ("done.state." ++ ·) hlabel,
    ⟨.ofList [1]⟩, ⟨.ofList [2]⟩, by decide +kernel, by decide +kernel, ?_, by decide⟩
  exact congrArg (fun l => [l]) hlabel.symm

end Model

end Statechart
