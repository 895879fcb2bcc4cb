import Statechart.Proofs.Configuration.Preemption

/-!
# Taking transitions

`Configuration.take` is the configuration after some transitions, all at once: what they leave goes,
what they enter comes.

* `Legal.replace`: replacing what lies below an active node by a complete set keeps a configuration
  legal;
* `Takeable`: active domains that are pairwise unrelated; `takeable_preempt`: preemption leaves such
  transitions;
* `take_cons`: transitions that are apart can be taken one after the other;
* `Legal.take`: what is taken together leads from a legal configuration to a legal one.
-/

namespace Statechart.Configuration

open Model

/-- The configuration after some transitions, taken all at once. -/
def take (m : Model) (c : Configuration) (ts : List Nat) : Configuration :=
  (c.leave (c.exitSet m ts)).enter (m.entrySet ts)

/-- Transitions whose domains are active and pairwise unrelated. -/
structure Takeable (m : Model) (c : Configuration) (ts : List Nat) : Prop where
  active {t d : Nat} : t ∈ ts → m.domain? t = some d → c.Active d
  apart : ts.Pairwise m.Apart

/-- A node does not lie below the domain of a transition. -/
def Spares (m : Model) (t s : Nat) : Prop := ∀ d, m.domain? t = some d → ¬ m.isBelow s d

variable {m : Model} {c : Configuration} {s t u d : Nat} {ts ts' candidates : List Nat}

theorem mem_take : s ∈ (c.take m ts).states ↔
    (s ∈ c.states ∧ ∀ t ∈ ts, Spares m t s) ∨ ∃ t ∈ ts, s ∈ m.entriesOf t := by
  simp only [take, enter, leave, NodeSet.mem_union, NodeSet.mem_diff, mem_exitSet, mem_entrySet,
    mem_exitsOf, Spares]
  refine or_congr ⟨fun h => ⟨h.1, fun t ht d hd hb => h.2 ⟨t, ht, d, hd, h.1, hb⟩⟩, ?_⟩ Iff.rfl
  rintro ⟨hs, h⟩
  refine ⟨hs, ?_⟩
  rintro ⟨t, ht, d, hd, -, hb⟩
  exact h t ht d hd hb

theorem ext_states {c c' : Configuration} (h : ∀ s, s ∈ c.states ↔ s ∈ c'.states) : c = c' := by
  obtain ⟨S⟩ := c
  obtain ⟨S'⟩ := c'
  exact congrArg mk (NodeSet.ext h)

@[simp] theorem take_nil (m : Model) (c : Configuration) : c.take m [] = c :=
  ext_states fun s => by simp [mem_take]

/-- The order of transitions that are taken together does not matter. -/
theorem take_perm (h : ts.Perm ts') : c.take m ts = c.take m ts' :=
  ext_states fun s => by simp only [mem_take, h.mem_iff]

theorem isBelow_of_mem_entriesOf (hm : m.WellFormed) (hd : m.domain? t = some d)
    (hs : s ∈ m.entriesOf t) : m.isBelow s d := by
  obtain ⟨d', hd', hs⟩ := mem_entriesOf.1 hs
  rw [hd] at hd'
  cases hd'
  exact (hm.of_mem_enterClosure hs).2.1

/-- What a transition enters is spared by one that is apart from it. -/
theorem spares_of_apart (hm : m.WellFormed) (h : m.Apart t u) (hs : s ∈ m.entriesOf t) :
    Spares m u s := fun d' hd' hb => by
  obtain ⟨d, hd, -⟩ := mem_entriesOf.1 hs
  have hbd := isBelow_of_mem_entriesOf hm hd hs
  obtain ⟨hdd, hdd'⟩ := h d hd d' hd'
  exact (hm.isBelow_comparable hbd hb).elim hdd hdd'

/-- Transitions that are apart can be taken one after the other. -/
theorem take_cons (hm : m.WellFormed) (h : ∀ u ∈ ts, m.Apart t u) :
    c.take m (t :: ts) = (c.take m [t]).take m ts := by
  refine ext_states fun s => ?_
  have hspares : s ∈ m.entriesOf t → ∀ u ∈ ts, Spares m u s :=
    fun hs u hu => spares_of_apart hm (h u hu) hs
  simp only [mem_take, List.mem_cons, List.not_mem_nil, or_false, forall_eq_or_imp,
    exists_eq_or_imp, forall_eq, exists_eq_left]
  constructor
  · rintro (⟨hs, ht, hts⟩ | ht | hts)
    · exact .inl ⟨.inl ⟨hs, ht⟩, hts⟩
    · exact .inl ⟨.inr ht, hspares ht⟩
    · exact .inr hts
  · rintro (⟨⟨hs, ht⟩ | ht, hts⟩ | hts)
    · exact .inl ⟨hs, ht, hts⟩
    · exact .inr (.inl ht)
    · exact .inr (.inr hts)

/-- Where no transition of a list has its domain above a state, taking the list changes nothing. -/
theorem mem_take_of_spares (hm : m.WellFormed) (h : ∀ t ∈ ts, Spares m t s) :
    s ∈ (c.take m ts).states ↔ s ∈ c.states := by
  rw [mem_take]
  constructor
  · rintro (⟨hs, -⟩ | ⟨t, ht, hs⟩)
    · exact hs
    · obtain ⟨d, hd, -⟩ := mem_entriesOf.1 hs
      exact absurd (isBelow_of_mem_entriesOf hm hd hs) (h t ht d hd)
  · exact fun hs => .inl ⟨hs, h⟩

/-! ### Legality -/

/-- Replacing what lies below an active node by a set with which the node is complete keeps a
configuration legal. -/
theorem Legal.replace (hm : m.WellFormed) (h : Legal m c) (hactive : c.Active d) {k : NodeSet}
    (hk : m.Completes d k) {c' : Configuration}
    (hc' : ∀ s, s ∈ c'.states ↔ (s ∈ c.states ∧ ¬ m.isBelow s d) ∨ s ∈ k) : Legal m c' := by
  have keep : ∀ {i}, c.Active i → ¬ m.isBelow i d → c'.Active i := fun hi hb =>
    hi.imp id fun hi => (hc' _).2 (.inl ⟨hi, hb⟩)
  constructor
  case isState =>
    intro s hs
    rcases (hc' s).1 hs with ⟨hs, -⟩ | hs
    · exact h.isState hs
    · exact hk.isState hs
  case active_parent =>
    intro s p hs hp
    rcases (hc' s).1 hs with ⟨hs, hb⟩ | hs
    · exact keep (h.active_parent hs hp) fun hpd =>
        hb (hm.isBelow_of_parent_within hp (.inr hpd))
    · rcases hk.parent_mem hs hp with rfl | hpk
      · exact keep hactive hm.not_isBelow_self
      · exact .inr ((hc' p).2 (.inr hpk))
  case filledAt =>
    intro i hi
    by_cases hid : i = d ∨ i ∈ k
    · -- At the node and below it, the children are those of the new set.
      refine filledAt_congr (fun b hb => ?_) (hk.filledAt hid)
      have hbd : m.isBelow b d := hm.isBelow_of_parent_within (hm.mem_childStates.1 hb).1
        (hid.imp id hk.isBelow)
      simp [hc', hbd]
    · -- Elsewhere they are the old ones.
      have hib : ¬ m.isBelow i d := fun hib => by
        rcases hi with rfl | hi
        · exact Nat.not_lt_zero d (hm.isBelow_lt hib)
        · exact ((hc' i).1 hi).elim (fun hi => hi.2 hib) fun hi => hid (.inr hi)
      have hactive' : c.Active i := hi.imp id fun hi =>
        ((hc' i).1 hi).elim And.left fun hi => absurd (hk.isBelow hi) hib
      refine filledAt_congr (fun b hb => ?_) (h.filledAt hactive')
      have hbd : ¬ m.isBelow b d := fun hbd =>
        (hm.within_parent hbd (hm.mem_childStates.1 hb).1).elim (fun h => hid (.inl h)) hib
      have hbk : b ∉ k := fun hbk => hbd (hk.isBelow hbk)
      simp [hc', hbd, hbk]

/-- Taking one transition with an active domain keeps a configuration legal. -/
theorem Legal.take_singleton (hv : m.Validated) (h : Legal m c)
    (hactive : ∀ d, m.domain? t = some d → c.Active d) : Legal m (c.take m [t]) := by
  cases hd : m.domain? t with
  | none =>
    have : c.take m [t] = c := ext_states fun s => by simp [mem_take, mem_entriesOf, Spares, hd]
    rwa [this]
  | some d =>
    have hk := hv.completes_enterClosure (hv.domain?_spec hd).2.2.2
    exact h.replace hv.wellFormed (hactive d hd) hk fun s => by
      simp [mem_take, mem_entriesOf, Spares, hd]

namespace Takeable

theorem perm (h : Takeable m c ts) (hp : ts.Perm ts') : Takeable m c ts' where
  active ht := h.active (hp.mem_iff.2 ht)
  apart := (hp.pairwise_iff fun h => h.symm).1 h.apart

/-- Taking the first transition leaves the domains of the others active. -/
theorem tail (hm : m.WellFormed) (h : Takeable m c (t :: ts)) :
    Takeable m (c.take m [t]) ts := by
  obtain ⟨happart, hts⟩ := List.pairwise_cons.1 h.apart
  refine ⟨fun {u d'} hu hd' => ?_, hts⟩
  refine (h.active (List.mem_cons_of_mem t hu) hd').imp id fun hd'c => ?_
  refine (mem_take_of_spares hm fun v hv d hd hb => ?_).2 hd'c
  rw [List.mem_singleton.1 hv] at hd
  exact (happart u hu d hd d' hd').2 (.inr hb)

theorem prefix_of (h : Takeable m c ts) {l : List Nat} (hl : l <+: ts) : Takeable m c l where
  active ht := h.active (hl.subset ht)
  apart := h.apart.sublist hl.sublist

/-- Transitions that can be taken together can be taken one after the other. -/
theorem foldl_take (hm : m.WellFormed) (h : Takeable m c ts) :
    ts.foldl (fun c t => c.take m [t]) c = c.take m ts := by
  induction ts generalizing c with
  | nil => rw [List.foldl_nil, take_nil]
  | cons t ts ih =>
    rw [List.foldl_cons, ih (h.tail hm), ← take_cons hm (List.pairwise_cons.1 h.apart).1]

end Takeable

/-- Taking transitions together keeps a configuration legal. -/
theorem Legal.take (hv : m.Validated) (h : Legal m c) (ht : Takeable m c ts) :
    Legal m (c.take m ts) := by
  have hm := hv.wellFormed
  -- One transition at a time: each leaves the domains of the later ones active.
  rw [← ht.foldl_take hm]
  induction ts generalizing c with
  | nil => exact h
  | cons t ts ih =>
    exact ih (h.take_singleton hv fun d => ht.active (List.mem_cons_self ..)) (ht.tail hm)

/-- What preemption leaves of transitions of active states can be taken together. -/
theorem takeable_preempt (hv : m.Validated) (h : Legal m c)
    (hc : ∀ t ∈ candidates, ∃ s, m.source? t = some s ∧ s ∈ c.states) :
    Takeable m c (c.preempt m candidates) where
  active ht hd := by
    obtain ⟨s, hs, hsc⟩ := hc _ (mem_of_mem_preempt ht)
    exact h.active_domain hv hs hsc hd
  apart := by
    refine List.Pairwise.imp_of_mem (fun {t u} ht hu hconflict => ?_) pairwise_not_conflicts
    obtain ⟨s, hs, hsc⟩ := hc t (mem_of_mem_preempt ht)
    obtain ⟨s', hs', hsc'⟩ := hc u (mem_of_mem_preempt hu)
    exact apart_of_not_conflicts hv h hs hsc hs' hsc' hconflict

/-- The targets of a transition that is taken are active afterwards. -/
theorem target_mem_take (hv : m.Validated) (ht : t ∈ ts) (hs : m.source? t = some s)
    (hstate : m.isState s) {r : Nat} (hr : r ∈ m.resolvedTargets t) :
    r ∈ (c.take m ts).states := by
  obtain ⟨d, hd⟩ := hv.exists_domain hs hstate (List.ne_nil_of_mem hr)
  refine mem_take.2 (.inr ⟨t, ht, mem_entriesOf.2 ⟨d, hd, ?_⟩⟩)
  exact hv.required_mem_enterClosure (hv.domain?_spec hd).2.2.2 hr

/-! ### Selected transitions -/

/-- The configuration with which the chart with a parallel region in a parallel state starts. -/
def nestedStart : Configuration := ⟨.ofList [1, 2, 3, 4, 7, 8]⟩

theorem exists_source_nestedStart :
    ∀ t ∈ [11, 9, 5], ∃ s, nestedParallel.source? t = some s ∧ s ∈ nestedStart.states := by
  simp only [List.forall_mem_cons]
  exact ⟨⟨1, rfl, by decide⟩, ⟨8, rfl, by decide⟩, ⟨4, rfl, by decide⟩, by simp⟩

/-- Taking what preemption leaves of transitions of active states leads from a legal configuration
to a legal one in which their targets are active, and changes only what lies below a domain. -/
theorem isLegal_take_preempt (hv : m.Validated) (h : c.isLegal m)
    (hc : ∀ t ∈ candidates, ∃ s, m.source? t = some s ∧ s ∈ c.states) :
    (c.take m (c.preempt m candidates)).isLegal m ∧
      (∀ t ∈ c.preempt m candidates, ∀ r ∈ m.resolvedTargets t,
        r ∈ (c.take m (c.preempt m candidates)).states) ∧
      ∀ s, (∀ t ∈ c.preempt m candidates, ∀ d, m.domain? t = some d → ¬ m.isBelow s d) →
        (s ∈ (c.take m (c.preempt m candidates)).states ↔ s ∈ c.states) := by
  have hl := (isLegal_iff hv).1 h
  refine ⟨(isLegal_iff hv).2 (hl.take hv (takeable_preempt hv hl hc)), fun t ht r hr => ?_,
    fun s hs => mem_take_of_spares hv.wellFormed hs⟩
  obtain ⟨s, hs, hsc⟩ := hc t (mem_of_mem_preempt ht)
  exact target_mem_take hv ht hs (hl.isState hsc) hr

/-- Both regions of the inner parallel state move; the transition out of the outer one is dropped. -/
theorem isLegal_take_preempt_nestedStart :
    nestedStart.preempt nestedParallel [11, 9, 5] = [5, 9] ∧
      (nestedStart.take nestedParallel [5, 9]).isLegal nestedParallel ∧
      (∀ t ∈ [5, 9], ∀ r ∈ nestedParallel.resolvedTargets t,
        r ∈ (nestedStart.take nestedParallel [5, 9]).states) ∧
      ∀ s, (∀ t ∈ [5, 9], ∀ d, nestedParallel.domain? t = some d → ¬ nestedParallel.isBelow s d) →
        (s ∈ (nestedStart.take nestedParallel [5, 9]).states ↔ s ∈ nestedStart.states) := by
  have hpreempt : nestedStart.preempt nestedParallel [11, 9, 5] = [5, 9] := by decide +kernel
  have h :=
    isLegal_take_preempt validated_nestedParallel (by decide +kernel) exists_source_nestedStart
  rw [hpreempt] at h
  exact ⟨hpreempt, h⟩

/-- Taking them one after the other, in any order, leads to the same configuration through legal
ones. -/
theorem foldl_take_eq_of_perm (hv : m.Validated) (h : c.isLegal m)
    (hc : ∀ t ∈ candidates, ∃ s, m.source? t = some s ∧ s ∈ c.states)
    (hp : ts.Perm (c.preempt m candidates)) :
    ts.foldl (fun c t => c.take m [t]) c = c.take m (c.preempt m candidates) ∧
      ∀ l, l <+: ts → (l.foldl (fun c t => c.take m [t]) c).isLegal m := by
  have hm := hv.wellFormed
  have hl := (isLegal_iff hv).1 h
  have ht := (takeable_preempt hv hl hc).perm hp.symm
  refine ⟨(ht.foldl_take hm).trans (take_perm hp), fun l hlts => ?_⟩
  rw [(ht.prefix_of hlts).foldl_take hm]
  exact (isLegal_iff hv).2 (hl.take hv (ht.prefix_of hlts))

theorem foldl_take_eq_of_perm_nestedStart :
    [9, 5].Perm (nestedStart.preempt nestedParallel [11, 9, 5]) ∧
      [9, 5].foldl (fun c t => c.take nestedParallel [t]) nestedStart =
        nestedStart.take nestedParallel (nestedStart.preempt nestedParallel [11, 9, 5]) ∧
      ∀ l, l <+: [9, 5] →
        (l.foldl (fun c t => c.take nestedParallel [t]) nestedStart).isLegal nestedParallel := by
  have hp : [9, 5].Perm (nestedStart.preempt nestedParallel [11, 9, 5]) := by
    rw [show nestedStart.preempt nestedParallel [11, 9, 5] = [5, 9] by decide +kernel]
    decide
  exact ⟨hp,
    foldl_take_eq_of_perm validated_nestedParallel (by decide +kernel) exists_source_nestedStart hp⟩

end Statechart.Configuration
