import Statechart.Proofs.Configuration.Taking

/-!
# What preemption decides

Preemption goes through the candidates in document order and keeps each one that does not conflict
with one it has kept before.  Its result can be told without the walk.

* `Configuration.Survivors`: an increasing list of candidates, no two in conflict, such that every
  other candidate conflicts with an earlier one in the list;
* `survivors_iff`: preemption leaves the one list of this kind;
* `Legal.conflicts_iff_of_domains`, `conflicts_iff_of_targetless`: when transitions of active states
  conflict in a legal configuration;
* `preempt_decides`: all of this together, with what follows for repeated, permuted and repeatedly
  preempted candidates.
-/

namespace Statechart

namespace Model

variable {m : Model} {t d d' a b p : Nat}

/-- A transition without targets has no domain. -/
theorem domain?_of_targetless (h : m.resolvedTargets t = []) : m.domain? t = none := by
  simp [domain?, h]

/-- Nodes in the subtrees of two children of one node are unrelated. -/
theorem WellFormed.unrelated_of_siblings (hm : m.WellFormed) (ha : m.parent? a = some p)
    (hb : m.parent? b = some p) (hne : a ≠ b) (hda : m.Within d a) (hdb : m.Within d' b) :
    m.Unrelated d d' where
  left h := hne (hm.child_unique ha hb hda (hm.within_trans h hdb))
  right h := hne (hm.child_unique ha hb (hm.within_trans h hda) hdb)

end Model

namespace Configuration

open Model

variable {m : Model} {c : Configuration} {s s' t u d d' : Nat} {candidates kept other : List Nat}

/-! ### The walk through the candidates -/

/-- An increasing list of candidates of which no two conflict, such that every other candidate
conflicts with a smaller one in the list. -/
structure Survivors (m : Model) (c : Configuration) (candidates kept : List Nat) : Prop where
  sorted : kept.Pairwise (· < ·)
  mem_candidates {t : Nat} : t ∈ kept → t ∈ candidates
  compatible {t u : Nat} : t ∈ kept → u ∈ kept → t ≠ u → ¬ c.conflicts m t u
  preempted {t : Nat} : t ∈ candidates → t ∉ kept → ∃ u ∈ kept, u < t ∧ c.conflicts m t u

theorem mem_foldl_keep_of_mem (h : t ∈ kept) (l : List Nat) : t ∈ l.foldl (c.keep m) kept := by
  induction l generalizing kept with
  | nil => exact h
  | cons u l ih =>
    refine ih ?_
    unfold keep
    split
    · exact h
    · exact List.mem_append_left [u] h

/-- What the walk drops conflicts with something kept before. -/
theorem exists_conflict_of_dropped {l : List Nat} (hl : l.Pairwise (· < ·)) (ht : t ∈ l)
    (hdropped : t ∉ l.foldl (c.keep m) []) :
    ∃ u ∈ l.foldl (c.keep m) [], u < t ∧ c.conflicts m t u := by
  obtain ⟨before, after, rfl⟩ := List.append_of_mem ht
  -- The transition is dropped when the walk comes to it, as it would be kept for good.
  rw [List.foldl_append, List.foldl_cons] at hdropped ⊢
  have hdrop : t ∉ c.keep m (before.foldl (c.keep m) []) t :=
    fun h => hdropped (mem_foldl_keep_of_mem h after)
  unfold keep at hdrop
  split at hdrop
  · next hany =>
    obtain ⟨u, hu, hconflict⟩ := List.any_eq_true.1 hany
    have hbefore : u ∈ before := (foldl_keep_sublist [] before).subset hu
    have hlt : u < t := (List.pairwise_append.1 hl).2.2 u hbefore t (List.mem_cons_self ..)
    have hkept : u ∈ c.keep m (before.foldl (c.keep m) []) t := by
      unfold keep
      rwa [if_pos hany]
    exact ⟨u, mem_foldl_keep_of_mem hkept after, hlt, hconflict⟩
  · simp at hdrop

theorem survivors_preempt (m : Model) (c : Configuration) (candidates : List Nat) :
    Survivors m c candidates (c.preempt m candidates) where
  sorted := pairwise_lt_preempt
  mem_candidates := mem_of_mem_preempt
  compatible ht hu hne :=
    have : Std.Symm fun t u => ¬ c.conflicts m t u := ⟨fun _ _ h => mt conflicts_comm.1 h⟩
    pairwise_not_conflicts.forall ht hu hne
  preempted ht := exists_conflict_of_dropped (NodeSet.ofList candidates).sorted
    (NodeSet.mem_ofList.2 ht)

namespace Survivors

/-- The smallest candidate is in conflict with no smaller one. -/
theorem mem_of_le (h : Survivors m c candidates kept) (ht : t ∈ candidates)
    (hle : ∀ u ∈ candidates, t ≤ u) : t ∈ kept := by
  by_contra hdropped
  obtain ⟨u, hu, hlt, -⟩ := h.preempted ht hdropped
  exact absurd (hle u (h.mem_candidates hu)) (Nat.not_le.2 hlt)

/-- If two such lists agree on what is smaller, what is in one is in the other. -/
theorem mem_of_agree (h : Survivors m c candidates kept) (h' : Survivors m c candidates other)
    (hbefore : ∀ u < t, u ∈ other → u ∈ kept) (ht : t ∈ kept) : t ∈ other := by
  by_contra hdropped
  obtain ⟨u, hu, hlt, hconflict⟩ := h'.preempted (h.mem_candidates ht) hdropped
  exact h.compatible ht (hbefore u hlt hu) (Nat.ne_of_gt hlt) hconflict

/-- There is one such list: whether a candidate is in it depends on the smaller ones. -/
theorem unique (h : Survivors m c candidates kept) (h' : Survivors m c candidates other) :
    kept = other := by
  refine NodeSet.eq_of_sorted h.sorted h'.sorted fun t => ?_
  induction t using Nat.strongRecOn with
  | ind t ih =>
    exact ⟨h.mem_of_agree h' fun u hu => (ih u hu).2, h'.mem_of_agree h fun u hu => (ih u hu).1⟩

/-- Only which candidates there are matters. -/
theorem congr (h : Survivors m c candidates kept) (hsame : ∀ t, t ∈ other ↔ t ∈ candidates) :
    Survivors m c other kept where
  sorted := h.sorted
  mem_candidates ht := (hsame _).2 (h.mem_candidates ht)
  compatible := h.compatible
  preempted ht := h.preempted ((hsame _).1 ht)

/-- Nothing is dropped from it. -/
theorem self (h : Survivors m c candidates kept) : Survivors m c kept kept where
  sorted := h.sorted
  mem_candidates := id
  compatible := h.compatible
  preempted ht hdropped := absurd ht hdropped

end Survivors

theorem survivors_iff : Survivors m c candidates kept ↔ kept = c.preempt m candidates := by
  constructor
  · exact fun h => h.unique (survivors_preempt m c candidates)
  · rintro rfl
    exact survivors_preempt m c candidates

theorem preempt_preempt (m : Model) (c : Configuration) (candidates : List Nat) :
    c.preempt m (c.preempt m candidates) = c.preempt m candidates :=
  (survivors_iff.1 (survivors_preempt m c candidates).self).symm

theorem preempt_congr (h : ∀ t, t ∈ other ↔ t ∈ candidates) :
    c.preempt m other = c.preempt m candidates :=
  (survivors_iff.1 ((survivors_preempt m c candidates).congr h)).symm

theorem preempt_eq_nil_iff : c.preempt m candidates = [] ↔ candidates = [] := by
  constructor
  · intro hnil
    have h := survivors_preempt m c candidates
    rw [hnil] at h
    refine List.eq_nil_iff_forall_not_mem.2 fun t ht => ?_
    obtain ⟨u, hu, -⟩ := h.preempted ht (List.not_mem_nil)
    cases hu
  · rintro rfl
    rfl

/-! ### Conflicts in a legal configuration -/

theorem not_mem_exitsOf_of_targetless (h : m.resolvedTargets t = []) : s ∉ c.exitsOf m t := by
  rw [mem_exitsOf, domain?_of_targetless h]
  rintro ⟨d, hd, -⟩
  cases hd

/-- What a transition leaves lies below its domain. -/
theorem isBelow_of_mem_exitsOf (hd : m.domain? t = some d) (h : s ∈ c.exitsOf m t) :
    m.isBelow s d := by
  obtain ⟨e, he, -, hbelow⟩ := mem_exitsOf.1 h
  cases hd.symm.trans he
  exact hbelow

/-- If transitions conflict, their domains have something within them in common: a state that both
leave, or the source of one that the other leaves. -/
theorem exists_within_domains_of_conflicts (hv : m.Validated) (hd : m.domain? t = some d)
    (hd' : m.domain? u = some d') (h : c.conflicts m t u) : ∃ x, m.Within x d ∧ m.Within x d' := by
  rcases conflicts_iff.1 h with ⟨x, hx, hx'⟩ | ⟨x, hsource, hx⟩ | ⟨x, hsource, hx⟩
  · exact ⟨x, .inr (isBelow_of_mem_exitsOf hd hx), .inr (isBelow_of_mem_exitsOf hd' hx')⟩
  · exact ⟨x, hv.within_domain hd hsource, .inr (isBelow_of_mem_exitsOf hd' hx)⟩
  · exact ⟨x, .inr (isBelow_of_mem_exitsOf hd hx), hv.within_domain hd' hsource⟩

/-- Transitions of active states conflict exactly if their domains are related. -/
theorem Legal.conflicts_iff_of_domains (hv : m.Validated) (h : Legal m c)
    (hs : m.source? t = some s) (hsc : s ∈ c.states) (hs' : m.source? u = some s')
    (hsc' : s' ∈ c.states) (hd : m.domain? t = some d) (hd' : m.domain? u = some d') :
    c.conflicts m t u ↔ m.Within d d' ∨ m.Within d' d := by
  constructor
  · intro hconflict
    obtain ⟨x, hx, hx'⟩ := exists_within_domains_of_conflicts hv hd hd' hconflict
    exact hv.wellFormed.within_comparable hx hx'
  · intro hrelated
    by_contra hconflict
    obtain ⟨hdd', hd'd⟩ := apart_of_not_conflicts hv h hs hsc hs' hsc' hconflict d hd d' hd'
    exact hrelated.elim hdd' hd'd

/-- A transition without targets leaves nothing, so it conflicts with those that leave its source. -/
theorem conflicts_iff_of_targetless (ht : m.resolvedTargets t = []) (hs : m.source? t = some s)
    (hsc : s ∈ c.states) (hd' : m.domain? u = some d') :
    c.conflicts m t u ↔ m.isBelow s d' := by
  rw [conflicts_iff]
  constructor
  · rintro (⟨x, hx, -⟩ | ⟨x, hx, hxu⟩ | ⟨x, -, hx⟩)
    · exact absurd hx (not_mem_exitsOf_of_targetless ht)
    · cases hs.symm.trans hx
      exact isBelow_of_mem_exitsOf hd' hxu
    · exact absurd hx (not_mem_exitsOf_of_targetless ht)
  · exact fun hbelow => .inr (.inl ⟨s, hs, mem_exitsOf.2 ⟨d', hd', hsc, hbelow⟩⟩)

/-- Preemption leaves the one increasing list of candidates of which no two conflict, such that every
other candidate conflicts with a smaller one in it.  So preempting again changes nothing, neither do
the order of the candidates and repetitions, nothing is left only of nothing, and the smallest
candidate is always left.  In a legal configuration, candidates of active states that have targets
conflict exactly if their domains are equal or one is above the other, one without targets conflicts
with one that has some exactly if its source lies below the other's domain, and candidates whose
domains lie in different regions of a parallel state never conflict. -/
theorem preempt_decides (m : Model) (c : Configuration) (candidates : List Nat) :
    (∀ kept, Survivors m c candidates kept ↔ kept = c.preempt m candidates) ∧
      c.preempt m (c.preempt m candidates) = c.preempt m candidates ∧
      (∀ other, (∀ t, t ∈ other ↔ t ∈ candidates) → c.preempt m other = c.preempt m candidates) ∧
      (c.preempt m candidates = [] ↔ candidates = []) ∧
      (∀ t ∈ candidates, (∀ u ∈ candidates, t ≤ u) → t ∈ c.preempt m candidates) ∧
      (m.Validated → c.isLegal m →
        (∀ t ∈ candidates, ∃ s, m.source? t = some s ∧ s ∈ c.states) →
          ∀ t ∈ candidates, ∀ u ∈ candidates, m.resolvedTargets u ≠ [] →
            ∃ d', m.domain? u = some d' ∧
              (m.resolvedTargets t ≠ [] → ∃ d, m.domain? t = some d ∧
                (c.conflicts m t u ↔ m.Within d d' ∨ m.Within d' d) ∧
                ∀ p a b, m.isParallel p → m.parent? a = some p → m.parent? b = some p → a ≠ b →
                  m.Within d a → m.Within d' b → ¬ c.conflicts m t u) ∧
              (m.resolvedTargets t = [] →
                ∀ s, m.source? t = some s → (c.conflicts m t u ↔ m.isBelow s d'))) := by
  refine ⟨fun kept => survivors_iff, preempt_preempt m c candidates, fun other => preempt_congr,
    preempt_eq_nil_iff, fun t => (survivors_preempt m c candidates).mem_of_le,
    fun hv hlegal hc t ht u hu hune => ?_⟩
  have hl := (isLegal_iff hv).1 hlegal
  obtain ⟨s, hs, hsc⟩ := hc t ht
  obtain ⟨s', hs', hsc'⟩ := hc u hu
  obtain ⟨d', hd'⟩ := hv.exists_domain hs' (hl.isState hsc') hune
  refine ⟨d', hd', fun htne => ?_, fun hnil x hx => ?_⟩
  · obtain ⟨d, hd⟩ := hv.exists_domain hs (hl.isState hsc) htne
    have hiff := hl.conflicts_iff_of_domains hv hs hsc hs' hsc' hd hd'
    refine ⟨d, hd, hiff, fun p a b _ ha hb hne hda hdb => ?_⟩
    obtain ⟨hdd', hd'd⟩ := hv.wellFormed.unrelated_of_siblings ha hb hne hda hdb
    exact fun hconflict => (hiff.1 hconflict).elim hdd' hd'd
  · cases hs.symm.trans hx
    exact conflicts_iff_of_targetless hnil hs hsc hd'

/-- Of the transitions of the chart with nested parallel states, the one out of the outer parallel
state conflicts with both others, which do not conflict with each other. -/
theorem preempt_decides_nestedStart :
    nestedParallel.Validated ∧ nestedStart.isLegal nestedParallel ∧
      Survivors nestedParallel nestedStart [11, 9, 5, 9] [5, 9] ∧
      ¬ nestedStart.conflicts nestedParallel 5 9 ∧ nestedStart.conflicts nestedParallel 11 5 := by
  have hlegal : nestedStart.isLegal nestedParallel := by decide +kernel
  have hsource : ∀ t ∈ [11, 9, 5, 9],
      ∃ s, nestedParallel.source? t = some s ∧ s ∈ nestedStart.states := by
    intro t ht
    refine exists_source_nestedStart t ?_
    simpa [or_comm, or_left_comm] using ht
  obtain ⟨hiff, -, -, -, -, hconflicts⟩ := preempt_decides nestedParallel nestedStart [11, 9, 5, 9]
  have hpair := hconflicts validated_nestedParallel hlegal hsource
  refine ⟨validated_nestedParallel, hlegal, (hiff _).2 (by decide +kernel), ?_, ?_⟩
  · obtain ⟨d', hd', htargets, -⟩ := hpair 5 (by simp) 9 (by simp) (by decide +kernel)
    obtain ⟨d, hd, -, hregions⟩ := htargets (by decide +kernel)
    have h3 : nestedParallel.domain? 5 = some 3 := by decide +kernel
    have h7 : nestedParallel.domain? 9 = some 7 := by decide +kernel
    cases h7.symm.trans hd'
    cases h3.symm.trans hd
    exact hregions 2 3 7 (by decide +kernel) (by decide +kernel) (by decide +kernel) (by decide)
      (.refl 3) (.refl 7)
  · obtain ⟨d', hd', htargets, -⟩ := hpair 11 (by simp) 5 (by simp) (by decide +kernel)
    obtain ⟨d, hd, hrelated, -⟩ := htargets (by decide +kernel)
    have h0 : nestedParallel.domain? 11 = some 0 := by decide +kernel
    have h3 : nestedParallel.domain? 5 = some 3 := by decide +kernel
    cases h3.symm.trans hd'
    cases h0.symm.trans hd
    exact hrelated.2 (.inr (.inr (by decide +kernel)))

end Configuration

end Statechart
