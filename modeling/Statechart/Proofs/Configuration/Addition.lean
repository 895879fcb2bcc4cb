import Statechart.Proofs.Configuration.Maximality

/-!
# Adding states

`Configuration.add` makes a state active together with everything above it and what it enters by
default.  It takes no state away and adds no region besides the one it comes from, so what it makes
need not be legal.

* `Configuration.attempt`: an addition that may be refused; `Refused` says when and why it is;
* `Configuration.activate`: what an addition gives that is not refused (`mem_activate`);
* `mem_activate_child`: above the added state, only the children on the way down to it become active;
* `legal_activate_iff`: which states can be added to no states;
* `not_legal_activate`: no state can be added to a legal configuration;
* `Configuration.attempt_spec`: this together, and that a second addition changes nothing.
-/

namespace Statechart.Configuration

open Model

/-- A state, or the root. -/
def Addable (m : Model) (t : Nat) : Prop := m.isState t ∨ m.isRoot t

/-- An attempt to add a state: how it ends, and the configuration after it. -/
def attempt (m : Model) (c : Configuration) (t : Nat) : Except Error Unit × Configuration :=
  match c.add m t with
  | .ok d => (.ok (), d)
  | .error e => (.error e, c)

/-- An attempt is refused because there is no such node, or because it is neither a state nor the
root.  It leaves the configuration as it is. -/
inductive Refused (m : Model) (c : Configuration) (t : Nat) :
    Except Error Unit × Configuration → Prop
  | unknown (node : m.kind? t = none) :
      Refused m c t (.error (.illegalConfiguration (.unknownNode t)), c)
  | neverActive {kind : Kind} (node : m.kind? t = some kind) (notRoot : ¬ m.isRoot t)
      (notState : ¬ kind.isState) :
      Refused m c t (.error (.illegalConfiguration (.neverActive kind.name (m.label t))), c)

/-- A configuration with a state, everything above it but the root, and what it enters by default. -/
def activate (m : Model) (c : Configuration) (t : Nat) : Configuration :=
  ⟨(c.states.insertAll ((t :: m.ancestors t).filter fun a => !m.isRoot a)).union
    (m.initialDescendants t)⟩

variable {m : Model} {c : Configuration} {b d p s t : Nat}

theorem mem_activate : s ∈ (c.activate m t).states ↔
    s ∈ c.states ∨ (¬ m.isRoot s ∧ m.Within t s) ∨ s ∈ m.initialDescendants t := by
  have habove : (s ∈ (t :: m.ancestors t).filter fun a => !m.isRoot a) ↔
      ¬ m.isRoot s ∧ m.Within t s := by
    simp only [List.mem_filter, List.mem_cons, Bool.not_eq_true', Bool.not_eq_true, Within,
      Model.isBelow, List.contains_iff_mem]
    exact and_comm.trans (and_congr Iff.rfl (or_congr eq_comm Iff.rfl))
  rw [activate, NodeSet.mem_union, NodeSet.mem_insertAll, habove, or_assoc]

theorem Refused.unchanged {r : Except Error Unit × Configuration} (h : Refused m c t r) :
    r.2 = c := by
  cases h <;> rfl

/-! ### How an attempt ends -/

theorem attempt_of_addable (hm : m.WellFormed) (ht : Addable m t) :
    c.attempt m t = (.ok (), if t ∈ c.states then c else c.activate m t) := by
  have hkind : ∃ kind, m.kind? t = some kind ∧ (m.isRoot t ∨ kind.isState) := by
    rcases ht with hs | hr
    · obtain ⟨kind, hkind, hs⟩ := hasKind_iff.1 hs
      exact ⟨kind, hkind, .inr hs⟩
    · obtain ⟨h0, hpos⟩ := (Model.isRoot_iff hm).1 hr
      obtain ⟨kind, hkind⟩ := exists_kind? (m := m) (i := t) (by omega)
      exact ⟨kind, hkind, .inl hr⟩
  obtain ⟨kind, hkind, hmay⟩ := hkind
  have hnot : ¬ (¬ m.isRoot t ∧ ¬ kind.isState) := fun h => hmay.elim h.1 h.2
  unfold attempt add
  rw [hkind]
  dsimp only
  rw [if_neg hnot]
  by_cases hmem : t ∈ c.states
  · rw [if_pos hmem, if_pos hmem]
  · rw [if_neg hmem, if_neg hmem]
    rfl

theorem refused_attempt (ht : ¬ Addable m t) : Refused m c t (c.attempt m t) := by
  have hroot : ¬ m.isRoot t := fun h => ht (.inr h)
  unfold attempt add
  cases hkind : m.kind? t with
  | none => exact .unknown hkind
  | some kind =>
    have hstate : ¬ kind.isState := fun h => ht (.inl (hasKind_iff.2 ⟨kind, hkind, h⟩))
    dsimp only
    rw [if_pos ⟨hroot, hstate⟩]
    exact .neverActive hkind hroot hstate

/-- A second attempt ends as the first one, and changes nothing. -/
theorem attempt_attempt (hm : m.WellFormed) (c : Configuration) (t : Nat) :
    (c.attempt m t).2.attempt m t = c.attempt m t := by
  by_cases ht : Addable m t
  · simp only [attempt_of_addable hm ht]
    by_cases hmem : t ∈ c.states
    · simp only [if_pos hmem]
    · simp only [if_neg hmem]
      split
      · rfl
      · -- Only the root is inactive even now, and what it enters is already there.
        refine congrArg (Prod.mk (Except.ok ())) (ext_states fun s => ?_)
        rw [mem_activate, mem_activate]
        tauto
  · rw [(refused_attempt ht).unchanged]

/-! ### Adding to no states -/

/-- Of the children of a node above the added state, only the one on the way down becomes active. -/
theorem mem_activate_child (hm : m.WellFormed) (hd : d ∈ m.childStates p) (htd : m.Within t d)
    (hb : b ∈ m.childStates p) : b ∈ (empty.activate m t).states ↔ b = d := by
  obtain ⟨hdp, hds⟩ := hm.mem_childStates.1 hd
  obtain ⟨hbp, -⟩ := hm.mem_childStates.1 hb
  rw [mem_activate]
  constructor
  · rintro (hb | ⟨-, htb⟩ | hb)
    · exact absurd hb (NodeSet.not_mem_empty b)
    · exact hm.child_unique hbp hdp htb htd
    · -- A child entered by default lies below the state, and so would its parent.
      have hpt : m.Within p t := hm.within_parent (hm.of_mem_enterClosure hb).2.1 hbp
      exact absurd (hm.isBelow_of_within hpt (hm.isBelow_of_child hdp htd)) hm.not_isBelow_self
  · rintro rfl
    have hroot : ¬ m.isRoot b := fun h => hm.ne_zero_of_isState hds ((Model.isRoot_iff hm).1 h).1
    exact .inr (.inl ⟨hroot, htd⟩)

theorem isState_of_mem_activate (hv : m.Validated) (ht : Addable m t)
    (hs : s ∈ (empty.activate m t).states) : m.isState s := by
  have hm := hv.wellFormed
  rcases mem_activate.1 hs with hs | ⟨hroot, hts⟩ | hs
  · exact absurd hs (NodeSet.not_mem_empty s)
  · have hstate : s = 0 ∨ m.isState s := by
      rcases ht with ht | ht
      · exact hm.isState_of_within ht hts
      · obtain rfl := hv.isRoot_iff.1 ht
        rcases hts with rfl | hts
        · exact .inl rfl
        · exact absurd (hm.isBelow_lt hts) (Nat.not_lt_zero s)
    exact hstate.resolve_left fun h => hroot (hv.isRoot_iff.2 h)
  · exact (hm.of_mem_enterClosure hs).1

/-- What lies above the added state is active. -/
theorem active_of_within_activate (hv : m.Validated) (hts : m.Within t s) :
    (c.activate m t).Active s := by
  by_cases hroot : m.isRoot s
  · exact .inl (hv.isRoot_iff.1 hroot)
  · exact .inr (mem_activate.2 (.inr (.inl ⟨hroot, hts⟩)))

theorem active_parent_activate (hv : m.Validated) (hs : s ∈ (empty.activate m t).states)
    (hp : m.parent? s = some p) : (empty.activate m t).Active p := by
  have hm := hv.wellFormed
  rcases mem_activate.1 hs with hs | ⟨-, hts⟩ | hs
  · exact absurd hs (NodeSet.not_mem_empty s)
  · exact active_of_within_activate hv
      (hm.within_trans hts (.inr (hm.isBelow_of_parent hp)))
  · rcases (hm.of_mem_enterClosure hs).2.2 p hp with rfl | hpt
    · exact active_of_within_activate hv (.refl p)
    · exact .inr (mem_activate.2 (.inr (.inr hpt)))

/-- The added state and what it enters have the children that they need. -/
theorem filledAt_activate_within (hv : m.Validated) (hs : s = t ∨ s ∈ m.initialDescendants t) :
    m.FilledAt (empty.activate m t).states s := by
  have hm := hv.wellFormed
  have hcomplete := hv.completes_enterClosure (.nil m t)
  refine filledAt_congr (fun b hb => ?_) (hcomplete.filledAt hs)
  have hbt : m.isBelow b t :=
    hm.isBelow_of_parent_within (hm.mem_childStates.1 hb).1 (hs.imp id hcomplete.isBelow)
  have hnot : ¬ m.Within t b := fun h => hm.not_isBelow_self (hm.isBelow_of_within h hbt)
  simp [mem_activate, hnot, empty, initialDescendants]

/-- A node above the added state has the children that it needs if it is not parallel, or has one
region only. -/
theorem filledAt_activate_above (hm : m.WellFormed) (hst : m.isState t) (hts : m.isBelow t s)
    (hone : m.isParallel s → (m.childStates s).length = 1) :
    m.FilledAt (empty.activate m t).states s := by
  obtain ⟨d, hd, htd⟩ := hm.exists_childState_within hst hts
  have hmem : ∀ b ∈ m.childStates s, b ∈ (empty.activate m t).states ↔ b = d :=
    fun b hb => mem_activate_child hm hd htd hb
  unfold FilledAt
  split
  · next hpar =>
    obtain ⟨r, hr⟩ := List.length_eq_one_iff.1 (hone hpar)
    rw [hr] at hd ⊢
    rw [hr] at hmem
    obtain rfl := List.mem_singleton.1 hd
    simp [hmem]
  · exact fun _ => ⟨d, hd, (hmem d hd).2 rfl, fun b hb hbs => (hmem b hb).1 hbs⟩

/-- A state added to no states makes a legal configuration if every parallel state above it has one
region only. -/
theorem legal_activate_iff (hv : m.Validated) (ht : Addable m t) :
    Legal m (empty.activate m t) ↔
      ∀ p, m.isBelow t p → m.isParallel p → (m.childStates p).length = 1 := by
  have hm := hv.wellFormed
  have hstate : ∀ {p}, m.isBelow t p → m.isState t := fun hp => by
    refine ht.resolve_right fun hroot => ?_
    obtain rfl := hv.isRoot_iff.1 hroot
    exact Nat.not_lt_zero _ (hm.isBelow_lt hp)
  constructor
  · intro h p hp hpar
    obtain ⟨d, hd, htd⟩ := hm.exists_childState_within (hstate hp) hp
    have hfilled := h.filledAt (active_of_within_activate hv (.inr hp))
    rw [FilledAt, if_pos hpar] at hfilled
    have hall : ∀ b ∈ m.childStates p, b = d := fun b hb =>
      (mem_activate_child hm hd htd hb).1 (hfilled b hb)
    have hcount : (m.childStates p).count d = 1 := (hm.nodup_childStates p).count.trans (if_pos hd)
    rw [← hcount, List.count_eq_length.2 fun b hb => (hall b hb).symm]
  · intro hone
    refine ⟨isState_of_mem_activate hv ht, active_parent_activate hv, fun {i} hi => ?_⟩
    by_cases hit : m.isBelow t i
    · exact filledAt_activate_above hm (hstate hit) hit (hone i hit)
    · refine filledAt_activate_within hv ?_
      rcases hi with rfl | hi
      · -- The root is not above what has been added, so it is the root that has been added.
        refine .inl (hv.isRoot_iff.1 (ht.resolve_left fun hs => hit ?_)).symm
        exact hm.state_isBelow_zero hs
      · rcases mem_activate.1 hi with hi | ⟨-, rfl | hti⟩ | hi
        · exact absurd hi (NodeSet.not_mem_empty i)
        · exact .inl rfl
        · exact absurd hti hit
        · exact .inr hi

/-! ### Adding to a legal configuration -/

/-- No state can be added to a legal configuration: it has all states that go together. -/
theorem not_legal_activate (hv : m.Validated) (h : Legal m c) (hs : m.isState t)
    (ht : t ∉ c.states) : ¬ Legal m (c.activate m t) := fun h' => by
  have hroot : ¬ m.isRoot t := fun hr => hv.wellFormed.ne_zero_of_isState hs (hv.isRoot_iff.1 hr)
  have hnow : t ∈ (c.activate m t).states := mem_activate.2 (.inr (.inl ⟨hroot, .refl t⟩))
  refine ht (h.mem_of_compatible hv hs fun a ha => ?_)
  exact h'.compatible hv (mem_activate.2 (.inl ha)) hnow

/-- Over a validated model, adding a state or the root to no states succeeds, makes the state active,
and gives a legal configuration exactly if every parallel state above it has one region only.  An
attempt to add anything to any configuration ends alike and changes nothing when it is made again.
Adding an inactive state to a legal configuration succeeds and never gives a legal one.  Whatever is
neither a state nor the root is refused, and the configuration stays as it is. -/
theorem attempt_spec (hv : m.Validated) :
    (∀ t, Addable m t → ∃ c, empty.attempt m t = (.ok (), c) ∧ (¬ m.isRoot t → t ∈ c.states) ∧
      (c.isLegal m ↔ ∀ p, m.isBelow t p → m.isParallel p → (m.childStates p).length = 1)) ∧
    (∀ c t, (attempt m c t).2.attempt m t = c.attempt m t) ∧
    (∀ c t, isLegal m c → m.isState t → t ∉ c.states →
      ∃ d, c.attempt m t = (.ok (), d) ∧ ¬ d.isLegal m) ∧
    ∀ c t, ¬ Addable m t → Refused m c t (c.attempt m t) := by
  refine ⟨fun t ht => ⟨empty.activate m t, ?_, fun hroot => ?_, ?_⟩, attempt_attempt hv.wellFormed,
    fun c t hc hs ht => ⟨c.activate m t, ?_, ?_⟩, fun c t ht => refused_attempt ht⟩
  · rw [attempt_of_addable hv.wellFormed ht]
    exact congrArg (Prod.mk (Except.ok ())) (if_neg (NodeSet.not_mem_empty t))
  · exact mem_activate.2 (.inr (.inl ⟨hroot, .refl t⟩))
  · rw [isLegal_iff hv, legal_activate_iff hv ht]
  · rw [attempt_of_addable hv.wellFormed (.inl hs), if_neg ht]
  · rw [isLegal_iff hv]
    exact not_legal_activate hv ((isLegal_iff hv).1 hc) hs ht

/-- The parallel state `q` is the only region of `p`, so it can be added to no states.  Its regions
`r` and `s` cannot, and nothing can be added once everything is active. -/
theorem attempt_spec_nestedParallel :
    (∃ c, empty.attempt nestedParallel 2 = (.ok (), c) ∧ c.isLegal nestedParallel) ∧
      (∃ c, empty.attempt nestedParallel 3 = (.ok (), c) ∧ ¬ c.isLegal nestedParallel) ∧
      (∃ d, nestedStart.attempt nestedParallel 6 = (.ok (), d) ∧ ¬ d.isLegal nestedParallel) ∧
      Refused nestedParallel nestedStart 5 (nestedStart.attempt nestedParallel 5) := by
  obtain ⟨hempty, -, hlegal, hrefused⟩ := attempt_spec validated_nestedParallel
  refine ⟨?_, ?_, hlegal nestedStart 6 (by decide +kernel) (by decide +kernel) (by decide),
    hrefused nestedStart 5 ?_⟩
  · obtain ⟨c, hc, -, hiff⟩ := hempty 2 (.inl (by decide +kernel))
    have habove : nestedParallel.ancestors 2 = [1, 0] := by decide +kernel
    refine ⟨c, hc, hiff.2 fun p hp hpar => ?_⟩
    rw [Model.isBelow, habove, List.contains_iff_mem] at hp
    rcases List.mem_cons.1 hp with rfl | hp
    · decide +kernel
    · rw [List.mem_singleton.1 hp] at hpar
      exact absurd hpar (Bool.eq_false_iff.1 (by decide +kernel))
  · obtain ⟨c, hc, -, hiff⟩ := hempty 3 (.inl (by decide +kernel))
    refine ⟨c, hc, fun h => ?_⟩
    exact absurd (hiff.1 h 2 (by decide +kernel) (by decide +kernel)) (by decide +kernel)
  · rintro (h | h)
    · exact absurd h (Bool.eq_false_iff.1 (by decide +kernel))
    · exact absurd h (Bool.eq_false_iff.1 (by decide +kernel))

end Statechart.Configuration
