import Statechart.Proofs.Model.Shape

/-!
# How a closure continues

A closure hands what is required of it down to the children it enters, and turns to default targets
where nothing is required any more.

* `Model.Demands`: the nodes that a closure comes to, each with what is required below it;
* `Demands.mem_enterClosure_iff`: below such a node, the closure is the closure of that node;
* `Demands.source`: what is required there was required from the start, or is a default target of a
  node further up below which nothing was required;
* `WellFormed.enterClosure_congr`: only which states are required matters;
* `Validated.enterClosure_continues`: what a closure holds, and where it is as by default;
* `passing`: a state that is entered only because a default target lies below it.
-/

namespace Statechart.Model

/-- The nodes that a closure comes to, each with the states required below it. -/
inductive Demands (m : Model) (n : Nat) (required : List Nat) : Nat → List Nat → Prop
  | here : Demands m n required n required
  | down {x c : Nat} {below : List Nat} (above : Demands m n required x below)
      (child : c ∈ m.childStates x) (enters : m.Enters x below c) :
      Demands m n required c ((m.wanted x below).filter (m.isBelow · c))

/-- A set of states holds below a node what the node enters by default. -/
def DefaultBelow (m : Model) (s : NodeSet) (x : Nat) : Prop :=
  ∀ z, m.isBelow z x → (z ∈ s ↔ z ∈ m.initialDescendants x)

/-- A node is on the way from a node `y` above it to a default target of `y`: nothing is required
below `y`, and below it the set holds what `y` enters by default. -/
structure OnDefaultWay (m : Model) (s : NodeSet) (required : List Nat) (y x : Nat) : Prop where
  isBelow : m.isBelow x y
  sequential : ¬ m.isParallel y
  free : ∀ r ∈ required, ¬ m.isBelow r y
  default : m.DefaultBelow s y
  target : ∃ d ∈ m.defaultTargets y, m.isBelow d x

variable {m : Model} {n x z r c p : Nat} {required required' below : List Nat}

namespace Demands

/-- Below a node that a closure comes to, it is the closure of that node. -/
theorem mem_enterClosure_iff (hm : m.WellFormed) (h : m.Demands n required x below)
    (hz : m.isBelow z x) : z ∈ m.enterClosure n required ↔ z ∈ m.enterClosure x below := by
  induction h with
  | here => exact Iff.rfl
  | down _ child enters ih =>
    rw [ih (hm.isBelow_of_child (hm.mem_childStates.1 child).1 (.inr hz))]
    exact hm.mem_enterClosure_below child enters hz

/-- What is required below such a node lies below it. -/
theorem isBelow (hf : m.Fitting n required) (h : m.Demands n required x below) (hr : r ∈ below) :
    m.isBelow r x := by
  cases h with
  | here => exact hf.isBelow hr
  | down _ _ _ => exact (List.mem_filter.1 hr).2

/-- What was required and lies below such a node is still required there. -/
theorem mem_of_isBelow (hm : m.WellFormed) (h : m.Demands n required x below) (hr : r ∈ required)
    (hbelow : m.isBelow r x) : r ∈ below := by
  induction h with
  | here => exact hr
  | down _ child _ ih =>
    have hparent := ih (hm.isBelow_of_child (hm.mem_childStates.1 child).1 (.inr hbelow))
    exact List.mem_filter.2 ⟨mem_wanted hparent, hbelow⟩

/-- Where nothing is required any more, a closure goes on as by default. -/
theorem defaultBelow (hm : m.WellFormed) (h : m.Demands n required x []) :
    m.DefaultBelow (m.enterClosure n required) x :=
  fun _ hz => h.mem_enterClosure_iff hm hz

/-- What is required at a node was so from the start, or is a default target of a node above it that
nothing was required of. -/
theorem source (hm : m.WellFormed) (h : m.Demands n required x below) (hr : r ∈ below) :
    r ∈ required ∨ ∃ y, m.Demands n required y [] ∧ m.isBelow x y ∧ ¬ m.isParallel y ∧
      r ∈ m.defaultTargets y := by
  induction h with
  | here => exact .inl hr
  | @down x c below above child _ ih =>
    have hc := (hm.mem_childStates.1 child).1
    have hwanted := (List.mem_filter.1 hr).1
    unfold wanted at hwanted
    split at hwanted
    · refine (ih hwanted).imp_right ?_
      rintro ⟨y, hy, hxy, hpar, hdefault⟩
      exact ⟨y, hy, hm.isBelow_of_parent_within hc (.inr hxy), hpar, hdefault⟩
    · next hnone =>
      rw [not_or, not_not] at hnone
      obtain ⟨hpar, rfl⟩ := hnone
      exact .inr ⟨x, above, hm.isBelow_of_parent hc, hpar, hwanted⟩

/-- A closure holds the nodes it comes to. -/
theorem mem (hm : m.WellFormed) (h : m.Demands n required x below) :
    x = n ∨ x ∈ m.enterClosure n required := by
  cases h with
  | here => exact .inl rfl
  | down above child enters =>
    refine .inr ((above.mem_enterClosure_iff hm ?_).2 ?_)
    · exact hm.isBelow_of_parent (hm.mem_childStates.1 child).1
    · exact (hm.childState_mem_enterClosure child).2 enters

end Demands

/-- A set of states that makes a node complete holds everything between the node and a state of it. -/
theorem Completes.mem_of_isBelow (hm : m.WellFormed) {s : NodeSet} (h : m.Completes n s)
    (hz : z ∈ s) (hzx : m.isBelow z x) (hx : m.isBelow x n) : x ∈ s := by
  induction z using Nat.strongRecOn with
  | ind z ih =>
    obtain ⟨p, hp, hpx⟩ := hm.isBelow_iff.1 hzx
    have hpn : p ≠ n := by
      rintro rfl
      exact hm.not_isBelow_self (hm.isBelow_of_within hpx hx)
    have hmem := (h.parent_mem hz hp).resolve_left hpn
    rcases hpx with rfl | hpx
    · exact hmem
    · exact ih p (hm.parent_lt hp) hmem hpx

namespace WellFormed

/-- A closure comes to every node that it holds. -/
theorem exists_demands (hm : m.WellFormed) (hx : x = n ∨ x ∈ m.enterClosure n required) :
    ∃ below, m.Demands n required x below := by
  -- Induction on the number of the node: its parent has a smaller one.
  induction x using Nat.strongRecOn with
  | ind x ih =>
    rcases hx with rfl | hx
    · exact ⟨required, .here⟩
    · obtain ⟨hs, hbelow, hup⟩ := hm.of_mem_enterClosure hx
      obtain ⟨p, hp, -⟩ := hm.isBelow_iff.1 hbelow
      obtain ⟨above, hdemands⟩ := ih p (hm.parent_lt hp) (hup p hp)
      have hchild : x ∈ m.childStates p := hm.mem_childStates.2 ⟨hp, hs⟩
      rw [hdemands.mem_enterClosure_iff hm (hm.isBelow_of_parent hp),
        hm.childState_mem_enterClosure hchild] at hx
      exact ⟨_, hdemands.down hchild hx⟩

/-- Only which states are required matters, not in which order or how often. -/
theorem enterClosure_congr (hm : m.WellFormed) (h : ∀ r, r ∈ required ↔ r ∈ required') :
    m.enterClosure n required = m.enterClosure n required' :=
  (SameShape.refl m).enterClosure hm h

/-- Of states that can be active together, none lies below another. -/
theorem not_isBelow_of_fitting (hm : m.WellFormed) (hf : m.Fitting n required) (hr : r ∈ required)
    (hx : x ∈ required) : ¬ m.isBelow x r := by
  by_cases hne : x = r
  · rw [hne]
    exact hm.not_isBelow_self
  · have : Std.Symm fun a b => m.areOrthogonal a b = true := ⟨fun _ _ => hm.areOrthogonal_symm⟩
    have horthogonal := hf.orthogonal.forall hx hr hne
    simp only [areOrthogonal, Bool.and_eq_true, Bool.not_eq_true'] at horthogonal
    simp [horthogonal.1.1.2]

end WellFormed

/-! ### A state on the way to a default target -/

/-- The state `s` enters `deep` by default, in the region `mid` of the parallel state `p`; of itself
`mid` would enter `other`. -/
def passing : Model where
  nodes := #[
    ⟨none, .scxml none, none, [1]⟩,
    ⟨some "s", .state none, some 0, [2, 4]⟩,
    ⟨none, .initial, some 1, [3]⟩,
    ⟨none, .transition ⟨[], none, ["deep"], .external⟩, some 2, []⟩,
    ⟨some "p", .parallel, some 1, [5, 8]⟩,
    ⟨some "mid", .state none, some 4, [6, 7]⟩,
    ⟨some "other", .state none, some 5, []⟩,
    ⟨some "deep", .state none, some 5, []⟩,
    ⟨some "side", .state none, some 4, []⟩]
  root? := some 0
  index := [("s", 1), ("p", 4), ("mid", 5), ("other", 6), ("deep", 7), ("side", 8)]
  transitions := [3]

theorem addAll?_passing :
    empty.addAll? (passing.nodes.toList.map fun n => (⟨n.id, n.kind⟩, n.parent)) =
      some passing := by decide +kernel

theorem validated_passing : passing.Validated where
  built := Built.empty.addAll? addAll?_passing
  valid := by decide +kernel

theorem childStates_passing : passing.childStates 4 = [5, 8] := by decide +kernel

/-- Entering `s` for nothing in particular passes `mid`, which does not continue as by default. -/
theorem not_defaultBelow_mid : 5 ∈ passing.enterClosure 1 [] ∧
    ¬ passing.DefaultBelow (passing.enterClosure 1 []) 5 := by
  have hclosure : (passing.enterClosure 1 []).toList = [4, 5, 7, 8] := by decide +kernel
  have hdefault : (passing.initialDescendants 5).toList = [6] := by decide +kernel
  simp only [DefaultBelow, NodeSet.mem_def, hclosure, hdefault]
  refine ⟨by decide, fun h => ?_⟩
  have hdeep : 7 ∈ [6] := (h 7 (by decide +kernel)).1 (by decide)
  simp at hdeep

/-- A compound state, and a region of a parallel state, may continue otherwise than by default though
nothing is required below it; and a transition, which is not a state, is not entered for. -/
theorem enterClosure_passing :
    passing.Validated ∧ passing.isState 1 ∧ 5 ∈ passing.enterClosure 1 [] ∧ passing.isCompound 5 ∧
      passing.isParallel 4 ∧ 5 ∈ passing.childStates 4 ∧
      ¬ passing.DefaultBelow (passing.enterClosure 1 []) 5 ∧
      passing.isBelow 3 1 ∧ 3 ∉ passing.enterClosure 1 [3] := by
  obtain ⟨hmid, hnot⟩ := not_defaultBelow_mid
  have hnone : (passing.enterClosure 1 [3]).toList = [] := by decide +kernel
  refine ⟨validated_passing, by decide +kernel, hmid, by decide +kernel, by decide +kernel,
    by simp [childStates_passing], hnot, by decide +kernel, ?_⟩
  simp [NodeSet.mem_def, hnone]

namespace Validated

/-- Below a node with nothing required below it, a closure is as by default, unless it only passes
the node on its way to a default target. -/
theorem defaultBelow_or (hv : m.Validated) (hf : m.Fitting n required)
    (hx : x = n ∨ x ∈ m.enterClosure n required) (hfree : ∀ r ∈ required, ¬ m.isBelow r x) :
    m.DefaultBelow (m.enterClosure n required) x ∨
      ∃ y, (y = n ∨ y ∈ m.enterClosure n required) ∧
        m.OnDefaultWay (m.enterClosure n required) required y x := by
  have hm := hv.wellFormed
  obtain ⟨below, hdemands⟩ := hm.exists_demands hx
  cases below with
  | nil => exact .inl (hdemands.defaultBelow hm)
  | cons d below =>
    have hd : d ∈ d :: below := List.mem_cons_self ..
    have hdx := hdemands.isBelow hf hd
    rcases hdemands.source hm hd with hr | ⟨y, hy, hxy, hpar, htarget⟩
    · exact absurd hdx (hfree d hr)
    · refine .inr ⟨y, hy.mem hm, hxy, hpar, fun r hr hry => ?_, hy.defaultBelow hm, d, htarget, hdx⟩
      cases hy.mem_of_isBelow hm hr hry

/-- If every node above a node has something required below it, a closure does not just pass it. -/
theorem defaultBelow_of_required (hv : m.Validated) (hf : m.Fitting n required)
    (hx : x = n ∨ x ∈ m.enterClosure n required) (hfree : ∀ r ∈ required, ¬ m.isBelow r x)
    (habove : ∀ y, m.isBelow x y → ∃ r ∈ required, m.isBelow r y) :
    m.DefaultBelow (m.enterClosure n required) x := by
  refine (hv.defaultBelow_or hf hx hfree).resolve_right ?_
  rintro ⟨y, -, hway⟩
  obtain ⟨r, hr, hry⟩ := habove y hway.isBelow
  exact hway.free r hr hry

/-- The closure of states that can be active together below a node makes the node complete and holds
these states with everything between.  Below a node of it with none of them below, it holds what the
node enters by default, unless the node is on the way from a node of this kind further up to one of
its default targets; so it does below each of the states, and in the regions without any of them of
a parallel state that has some of them below.  The order of the states does not matter. -/
theorem enterClosure_continues (hv : m.Validated) (hf : m.Fitting n required) :
    m.Completes n (m.enterClosure n required) ∧
      (∀ r ∈ required, r ∈ m.enterClosure n required ∧
        ∀ x, m.isBelow r x → m.isBelow x n → x ∈ m.enterClosure n required) ∧
      (∀ x, x = n ∨ x ∈ m.enterClosure n required → (∀ r ∈ required, ¬ m.isBelow r x) →
        m.DefaultBelow (m.enterClosure n required) x ∨
          ∃ y, (y = n ∨ y ∈ m.enterClosure n required) ∧
            m.OnDefaultWay (m.enterClosure n required) required y x) ∧
      (∀ r ∈ required, m.DefaultBelow (m.enterClosure n required) r) ∧
      (∀ p c, (p = n ∨ p ∈ m.enterClosure n required) → m.isParallel p → c ∈ m.childStates p →
        (∃ r ∈ required, m.isBelow r p) → (∀ r ∈ required, ¬ m.Within r c) →
          c ∈ m.enterClosure n required ∧ m.DefaultBelow (m.enterClosure n required) c) ∧
      ∀ required', required'.Perm required →
        m.enterClosure n required' = m.enterClosure n required := by
  have hm := hv.wellFormed
  have hcompletes := hv.completes_enterClosure hf
  refine ⟨hcompletes, fun r hr => ⟨hv.required_mem_enterClosure hf hr, fun x hrx hxn => ?_⟩,
    fun x => hv.defaultBelow_or hf, fun r hr => ?_, fun p c hp hpar hc hsome hnone => ?_,
    fun other hperm => hm.enterClosure_congr fun r => hperm.mem_iff⟩
  · exact hcompletes.mem_of_isBelow hm (hv.required_mem_enterClosure hf hr) hrx hxn
  · refine hv.defaultBelow_of_required hf (.inr (hv.required_mem_enterClosure hf hr))
      (fun x hx => hm.not_isBelow_of_fitting hf hr hx) fun y hry => ⟨r, hr, hry⟩
  · have hmem : c ∈ m.enterClosure n required := by
      have hfilled := hcompletes.filledAt hp
      rw [FilledAt, if_pos hpar] at hfilled
      exact hfilled c hc
    refine ⟨hmem, hv.defaultBelow_of_required hf (.inr hmem) (fun r hr h => hnone r hr (.inr h)) ?_⟩
    intro y hcy
    obtain ⟨r, hr, hrp⟩ := hsome
    have hpy : m.Within p y := hm.within_parent hcy (hm.mem_childStates.1 hc).1
    exact ⟨r, hr, hpy.elim (fun h => h ▸ hrp) (hm.isBelow_trans hrp)⟩

/-- Entering `s` for `other` enters both regions, and `side` as by default; entering it for nothing
passes `mid` on the way to `deep`. -/
theorem enterClosure_continues_passing :
    passing.Validated ∧ passing.Fitting 1 [6] ∧
      passing.Completes 1 (passing.enterClosure 1 [6]) ∧
      6 ∈ passing.enterClosure 1 [6] ∧
      passing.DefaultBelow (passing.enterClosure 1 [6]) 8 ∧
      ∃ y, passing.OnDefaultWay (passing.enterClosure 1 []) [] y 5 := by
  have hf : passing.Fitting 1 [6] := fitting_singleton (by decide +kernel) (by decide +kernel)
  obtain ⟨hcompletes, hrequired, -, -, hregions, -⟩ :=
    enterClosure_continues validated_passing hf
  obtain ⟨-, -, hfree, -, -, -⟩ := enterClosure_continues validated_passing (.nil passing 1)
  have hp : 4 ∈ passing.enterClosure 1 [6] :=
    (hrequired 6 (by simp)).2 4 (by decide +kernel) (by decide +kernel)
  have hapart : ¬ passing.Within 6 8 := by
    rintro (h | h)
    · cases h
    · exact absurd h (by decide +kernel)
  have hside := hregions 4 8 (.inr hp) (by decide +kernel) (by simp [childStates_passing])
    ⟨6, by simp, by decide +kernel⟩ (by simpa using hapart)
  obtain ⟨hmid, hnot⟩ := not_defaultBelow_mid
  obtain ⟨y, -, hway⟩ := (hfree 5 (.inr hmid) (by simp)).resolve_left hnot
  exact ⟨validated_passing, hf, hcompletes, (hrequired 6 (by simp)).1, hside.2, y, hway⟩

end Validated

end Statechart.Model
