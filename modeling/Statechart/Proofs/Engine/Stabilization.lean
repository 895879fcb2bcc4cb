import Mathlib.Logic.Function.Iterate
import Statechart.Proofs.Engine.Coherence

/-!
# Stabilizations

A stabilization begins when an engine is started, or when an external event has taken transitions,
and lasts until the engine waits or stops.  The limit bounds the microsteps that take transitions in
it.

* `Engine.Begins`, `Engine.Within`: where a stabilization begins, and what lies within it, whatever
  the host does between its steps;
* `Engine.Tally`: how one step of a stabilization counts (`Engine.tally_of_steps`);
* `Engine.counted_of_within`: how many microsteps a stabilization has taken;
* `Engine.stabilizeFrom_error_iff`: it fails exactly if it exceeds its limit without halting;
* `Engine.step_withLimit`: a step that does not exceed a limit is the same under a higher one;
* `Engine.stabilization_limited`: all this for every engine that a session leads to.
-/

namespace Statechart

/-- The same with another limit. -/
def Setup.withLimit {κ σ : Type} (su : Setup κ σ) (limit : Nat) : Setup κ σ :=
  { su with options := { su.options with maxMicrosteps := limit } }

namespace Engine

variable {κ σ : Type} [Context κ] {su : Setup κ σ} {e b x : Engine κ σ}

/-- A move takes an engine that does not stabilize to `b`, which does. -/
def Begins (su : Setup κ σ) (e b : Engine κ σ) : Prop :=
  ∃ vs v, (moveAll su e vs).phase ≠ .stabilizing ∧ b = move su (moveAll su e vs) v ∧
    b.phase = .stabilizing

/-- What `b` leads to by moves of engines that stabilize. -/
inductive Within (su : Setup κ σ) (b : Engine κ σ) : Engine κ σ → Prop
  | begin : Within su b b
  | move {x : Engine κ σ} (h : Within su b x) (hp : x.phase = .stabilizing) (v : Move κ) :
      Within su b (move su x v)

/-- Since `b` one more microstep has taken transitions than the limit allows, and the chart has not
halted. -/
def Exceeds (su : Setup κ σ) (b x : Engine κ σ) : Prop :=
  x.stats.microsteps = b.stats.microsteps + su.options.maxMicrosteps + 1 ∧ x.halted = false

/-! ### How a step counts -/

/-- What a step of a stabilization does to its count. -/
inductive Tally (su : Setup κ σ) (e : Engine κ σ) (r : Except Error Outcome × Engine κ σ) : Prop
  /-- The stabilization goes on, with at most one more microstep, which the limit allows. -/
  | onward (hr : ∃ outcome, r.1 = .ok outcome) (hp : r.2.phase = .stabilizing)
      (hn : r.2.stats.microsteps + e.settling = e.stats.microsteps + r.2.settling)
      (hl : r.2.settling = e.settling ∨ r.2.settling ≤ su.options.maxMicrosteps)
  /-- The configuration is stable. -/
  | settled (hr : ∃ outcome, r.1 = .ok outcome) (hp : r.2.phase = .waiting)
      (hn : r.2.stats.microsteps = e.stats.microsteps)
  /-- The chart halts with the next microstep. -/
  | halted (hr : ∃ outcome, r.1 = .ok outcome) (hp : r.2.phase = .stopped)
      (hn : r.2.stats.microsteps = e.stats.microsteps + 1) (hh : r.2.halted = true)
  /-- The next microstep exceeds the limit. -/
  | exceeded (hr : r.1 = .error (.stabilizationLimit su.options.maxMicrosteps))
      (hp : r.2.phase = .stopped) (hn : r.2.stats.microsteps = e.stats.microsteps + 1)
      (hh : r.2.halted = false) (hl : su.options.maxMicrosteps ≤ e.settling)

theorem tally_of_steps (hp : e.phase = .stabilizing) {r : Except Error Outcome × Engine κ σ}
    (hs : Steps su e r) : Tally su e r := by
  have hacted : ∀ {event y}, Turns su e event y →
      (acted su event y).stats.microsteps = e.stats.microsteps + 1 := fun ht => by
    rw [microsteps_acted, ht.microsteps]
  cases hs with
  | settle =>
    have hstats : (prepared su none e).stats = e.stats := stats_prepared
    exact .settled ⟨_, rfl⟩ rfl (congrArg (·.microsteps) hstats)
  | @skip event y _ ht =>
    have hstats : (prepared su (some event) y).stats = y.stats := stats_prepared
    have hset : (prepared su (some event) y).settling = e.settling :=
      settling_prepared.trans ht.settling
    have hphase : (prepared su (some event) y).phase = .stabilizing :=
      phase_prepared.trans (ht.phase.trans hp)
    refine .onward ⟨_, rfl⟩ hphase ?_ (.inl hset)
    dsimp only
    rw [hset, hstats, ht.microsteps]
  | @count event y _ ht _ _ hl =>
    have hphase : (acted su event y).phase = .stabilizing := phase_acted.trans (ht.phase.trans hp)
    have hn := hacted ht
    exact .onward ⟨_, rfl⟩ hphase (by dsimp only; omega) (.inr hl)
  | limit _ ht _ hh hl => exact .exceeded rfl rfl (hacted ht) hh hl
  | halt ht _ hh => exact .halted ⟨_, rfl⟩ rfl (hacted ht) hh
  -- The other ways through a step are those of a waiting engine and of one that processes an event.
  | close hp' | dequeue hp' | idle hp' | lose hp' | ignore hp' | respond hp' => simp [hp] at hp'

theorem tally (hv : su.model.Validated) (ht : Truthful su e) (hp : e.phase = .stabilizing) :
    Tally su e (step su e) :=
  tally_of_steps hp (steps_of_truthful hv ht (by simp [hp]))

/-! ### What a stabilization has counted -/

/-- The count starts anew with each stabilization. -/
theorem settling_of_begins (hv : su.model.Validated) {v : Move κ} (ht : Truthful su e)
    (hne : e.phase ≠ .stabilizing) (hp : (move su e v).phase = .stabilizing) :
    (move su e v).settling = 0 := by
  cases v with
  | enter =>
    simp only [move] at hp ⊢
    by_cases hstopped : e.phase = .stopped
    · rw [if_pos hstopped, enterInitial_eq hv] at hp ⊢
      dsimp only at hp ⊢
      split at hp
      · cases hp
      · next hrun =>
        rw [if_neg hrun]
        rfl
    · rw [if_neg hstopped] at hp
      exact absurd hp hne
  | step =>
    by_cases hstopped : e.phase = .stopped
    · rw [move_step_stopped hstopped] at hp
      exact absurd hp hne
    · have hs := steps_of_truthful hv ht hstopped
      change (step su e).2.phase = .stabilizing at hp
      change (step su e).2.settling = 0
      generalize step su e = r at hs hp
      cases hs with
      | respond => rfl
      | close | dequeue | lose | ignore | limit | halt => cases hp
      | idle => exact absurd hp hne
      | settle hp' | skip hp' | count hp' => exact absurd hp' hne
  | shutdown =>
    simp only [move] at hp
    split at hp
    · cases hp
    · exact absurd hp hne
  | push event =>
    simp only [move, push] at hp
    split at hp <;> exact absurd hp hne
  | closeQueue | reopenQueue | writeContext => exact absurd hp hne

/-- A move of an engine that stabilizes is a step, or keeps phase, counts and flag. -/
theorem move_cases_stabilizing (su : Setup κ σ) (hp : x.phase = .stabilizing) (v : Move κ) :
    v = .step ∨ (move su x v).phase = x.phase ∧ (move su x v).settling = x.settling ∧
      (move su x v).stats = x.stats ∧ (move su x v).halted = x.halted := by
  cases v with
  | step => exact .inl rfl
  | enter | shutdown => simp [move, hp]
  | push event =>
    simp only [move, push]
    split <;> simp
  | closeQueue | reopenQueue | writeContext => exact .inr ⟨rfl, rfl, rfl, rfl⟩

/-- What a stabilization has counted: the microsteps since its beginning, of which the limit allows
one more only in an engine that no longer stabilizes. -/
structure Counted (su : Setup κ σ) (b x : Engine κ σ) : Prop where
  bounded : x.stats.microsteps ≤ b.stats.microsteps + su.options.maxMicrosteps + 1
  counting : x.phase = .stabilizing →
    x.stats.microsteps = b.stats.microsteps + x.settling ∧ x.settling ≤ su.options.maxMicrosteps

omit [Context κ] in
theorem Counted.of_tally {r : Except Error Outcome × Engine κ σ} (hp : x.phase = .stabilizing)
    (h : Counted su b x) (ht : Tally su x r) : Counted su b r.2 := by
  obtain ⟨hn, hl⟩ := h.counting hp
  cases ht with
  | onward hr hp' hn' hl' => exact ⟨by omega, fun _ => ⟨by omega, by omega⟩⟩
  | settled hr hp' hn' => exact ⟨by omega, fun h' => by simp [hp'] at h'⟩
  | halted hr hp' hn' | exceeded hr hp' hn' => exact ⟨by omega, fun h' => by simp [hp'] at h'⟩

theorem Truthful.of_begins (hv : su.model.Validated) (he : Truthful su e) (hb : Begins su e b) :
    Truthful su b := by
  obtain ⟨vs, v, -, rfl, -⟩ := hb
  exact (moveAll_induction he fun v _ _ hx => hx.move hv v).move hv v

theorem Truthful.of_within (hv : su.model.Validated) (hb : Truthful su b) (hx : Within su b x) :
    Truthful su x := by
  induction hx with
  | begin => exact hb
  | move _ _ v ih => exact ih.move hv v

theorem counted_of_begins (hv : su.model.Validated) (he : Truthful su e) (hb : Begins su e b) :
    Counted su b b := by
  obtain ⟨vs, v, hne, rfl, hp⟩ := hb
  have hset := settling_of_begins hv (moveAll_induction he fun v _ _ hx => hx.move hv v) hne hp
  exact ⟨by omega, fun _ => ⟨by omega, by omega⟩⟩

/-- A stabilization counts right, whatever the host does between its steps. -/
theorem counted_of_within (hv : su.model.Validated) (hb : Truthful su b) (hc : Counted su b b)
    (hx : Within su b x) : Counted su b x := by
  induction hx with
  | begin => exact hc
  | @move x hx hp v ih =>
    rcases move_cases_stabilizing su hp v with rfl | ⟨hphase, hset, hstats, -⟩
    · exact ih.of_tally hp (tally hv (hb.of_within hv hx) hp)
    · refine ⟨hstats ▸ ih.bounded, fun hp' => ?_⟩
      rw [hset, hstats]
      exact ih.counting hp

/-- An engine that stabilizes does so since some beginning. -/
theorem exists_begins (he : e.phase ≠ .stabilizing) (vs : List (Move κ))
    (hp : (moveAll su e vs).phase = .stabilizing) :
    ∃ b, Begins su e b ∧ Within su b (moveAll su e vs) := by
  induction vs using List.reverseRecOn with
  | nil => exact absurd hp he
  | append_singleton ws v ih =>
    rw [moveAll_append] at hp ⊢
    by_cases hp' : (moveAll su e ws).phase = .stabilizing
    · obtain ⟨b, hb, hx⟩ := ih hp'
      exact ⟨b, hb, hx.move hp' v⟩
    · exact ⟨_, ⟨ws, v, hp', rfl, hp⟩, .begin⟩

/-! ### When a stabilization fails -/

/-- Only a stabilization can fail. -/
theorem stabilizing_of_step_error (hv : su.model.Validated) (ht : Truthful su x) {err : Error}
    (h : (step su x).1 = .error err) : x.phase = .stabilizing := by
  by_cases hp : x.phase = .stopped
  · simp [step, hp] at h
  · have hs := steps_of_truthful hv ht hp
    generalize step su x = r at hs h
    cases hs with
    | limit hp' => exact hp'
    | _ => cases h

theorem step_error_iff (hv : su.model.Validated) (ht : Truthful su x) (hc : Counted su b x)
    (hp : x.phase = .stabilizing) (err : Error) :
    (step su x).1 = .error err ↔
      err = .stabilizationLimit su.options.maxMicrosteps ∧ Exceeds su b (step su x).2 := by
  obtain ⟨hn, hl⟩ := hc.counting hp
  have htally := tally hv ht hp
  unfold Exceeds
  generalize step su x = r at htally
  cases htally with
  | onward hr _ hn' hl' | settled hr _ hn' =>
    obtain ⟨outcome, hr⟩ := hr
    simp only [hr, reduceCtorEq, false_iff]
    rintro ⟨-, hn'', -⟩
    omega
  | halted hr _ _ hh =>
    obtain ⟨outcome, hr⟩ := hr
    simp [hr, hh]
  | exceeded hr _ hn' hh hl' =>
    simp only [hr, hh, Except.error.injEq, and_true]
    exact ⟨fun h => ⟨h.symm, by omega⟩, fun h => h.1.symm⟩

/-- A stabilization fails exactly if it exceeds its limit. -/
theorem stabilizeFrom_error_iff (hv : su.model.Validated) (ht : Truthful su x) (hc : Counted su b x)
    (hp : x.phase = .stabilizing) (n : Nat) (err : Error) :
    (stabilizeFrom su x n).1 = .error err ↔
      err = .stabilizationLimit su.options.maxMicrosteps ∧
        Exceeds su b (stabilizeFrom su x n).2 := by
  fun_induction stabilizeFrom su x n with
  | case1 x n hp err' x' hs =>
    have h := step_error_iff hv ht hc hp err
    rw [hs] at h
    simpa using h
  | case2 x n hp outcome x' hs ih =>
    have ht' := ht.step hv
    have hc' := hc.of_tally hp (tally hv ht hp)
    have hiff := step_error_iff hv ht hc hp err
    rw [hs] at ht' hc' hiff
    by_cases hp' : x'.phase = .stabilizing
    · exact ih ht' hc' hp'
    · -- The step has ended the stabilization, without an error.
      rw [stabilizeFrom_of_ne hp']
      simpa using hiff
  | case3 x n hne => exact absurd hp hne

/-- Some number of steps ends a stabilization. -/
theorem exists_iterate_step_ne (su : Setup κ σ) (x : Engine κ σ) :
    ∃ j, ((next su)^[j] x).phase ≠ .stabilizing := by
  fun_induction stabilizeTrail su x with
  | case1 x hp ih =>
    obtain ⟨j, hj⟩ := ih
    exact ⟨j + 1, hj⟩
  | case2 x hp => exact ⟨0, hp⟩

/-! ### Higher limits -/

section HigherLimits

variable {limit : Nat} (hle : su.options.maxMicrosteps ≤ limit)
include hle

omit [Context κ] in
theorem afterMicrostep_withLimit {name : Option String} {n : Nat}
    (h : (afterMicrostep su name n e).1 ≠ .error (.stabilizationLimit su.options.maxMicrosteps)) :
    afterMicrostep (su.withLimit limit) name n e = afterMicrostep su name n e := by
  unfold afterMicrostep at h ⊢
  split
  · rfl
  · next hh =>
    rw [if_neg hh] at h
    split
    · next hn =>
      rw [if_pos hn] at h
      dsimp only at h ⊢
      have hlimit : ¬ su.options.maxMicrosteps < e.settling + 1 := fun hlt => h (by rw [if_pos hlt])
      have hhigher : ¬ (su.withLimit limit).options.maxMicrosteps < e.settling + 1 :=
        Nat.not_lt.2 (Nat.le_trans (Nat.not_lt.1 hlimit) hle)
      rw [if_neg hlimit, if_neg hhigher]
    · rfl

omit hle in
/-- The limit does not matter to a microstep. -/
theorem guardedMicrostep_withLimit (event : Option Event) :
    guardedMicrostep (su.withLimit limit) event e = guardedMicrostep su event e := rfl

theorem consume_withLimit
    (h : (consume su e).1 ≠ .error (.stabilizationLimit su.options.maxMicrosteps)) :
    consume (su.withLimit limit) e = consume su e := by
  unfold consume at h ⊢
  split
  · rfl
  · next event rest hq =>
    rw [hq] at h
    dsimp only at h ⊢
    rw [guardedMicrostep_withLimit]
    split
    · rfl
    · next hm =>
      rw [hm] at h
      exact afterMicrostep_withLimit hle h

theorem stabilizeOnce_withLimit
    (h : (stabilizeOnce su e).1 ≠ .error (.stabilizationLimit su.options.maxMicrosteps)) :
    stabilizeOnce (su.withLimit limit) e = stabilizeOnce su e := by
  unfold stabilizeOnce at h ⊢
  rw [guardedMicrostep_withLimit]
  split
  · rfl
  · next n _ hm =>
    rw [hm] at h
    dsimp only at h
    split
    · next hn =>
      rw [if_pos hn] at h
      exact afterMicrostep_withLimit hle h
    · next hn =>
      rw [if_neg hn] at h
      exact consume_withLimit hle h

omit hle in
/-- Nor does it matter to what a start enters. -/
theorem enterInitial_withLimit : enterInitial (su.withLimit limit) e = enterInitial su e := rfl

/-- A step that does not exceed a limit is the same under a higher one. -/
theorem step_withLimit
    (h : (step su e).1 ≠ .error (.stabilizationLimit su.options.maxMicrosteps)) :
    step (su.withLimit limit) e = step su e := by
  unfold step at h ⊢
  split
  · rfl
  · next hp =>
    rw [hp] at h
    exact stabilizeOnce_withLimit hle h
  · rfl
  · rfl

/-- So is every step of a stabilization that ends without exceeding it, and the stabilization. -/
theorem stabilizeFrom_withLimit (n : Nat)
    (h : (stabilizeFrom su e n).1 ≠ .error (.stabilizationLimit su.options.maxMicrosteps)) :
    (∀ y ∈ e :: stabilizeTrail su e, y.phase = .stabilizing →
        step (su.withLimit limit) y = step su y) ∧
      stabilizeTrail (su.withLimit limit) e = stabilizeTrail su e ∧
      stabilizeFrom (su.withLimit limit) e n = stabilizeFrom su e n := by
  fun_induction stabilizeFrom su e n with
  | case1 e n hp err e' hs =>
    have hstep : step (su.withLimit limit) e = step su e :=
      step_withLimit hle (by rw [hs]; simpa using h)
    have hend : ∀ su : Setup κ σ, stabilizeTrail su e' = [] := fun su =>
      stabilizeTrail_of_ne (by simp [phase_of_step_error hs])
    refine ⟨fun y hy hp' => ?_, ?_, ?_⟩
    · rw [stabilizeTrail_of_stabilizing hp, hs, hend, List.mem_cons, List.mem_singleton] at hy
      rcases hy with rfl | rfl
      · exact hstep
      · simp [phase_of_step_error hs] at hp'
    · simp only [stabilizeTrail_of_stabilizing hp, hstep, hs, hend]
    · have herr : (step (su.withLimit limit) e).1 = .error err := by rw [hstep, hs]
      rw [stabilizeFrom_of_error hp herr, hstep, hs]
  | case2 e n hp outcome e' hs ih =>
    obtain ⟨hsteps, htrail, hfrom⟩ := ih h
    have hstep : step (su.withLimit limit) e = step su e := step_withLimit hle (by simp [hs])
    refine ⟨fun y hy hp' => ?_, ?_, ?_⟩
    · rw [stabilizeTrail_of_stabilizing hp, hs, List.mem_cons] at hy
      rcases hy with rfl | hy
      · exact hstep
      · exact hsteps y hy hp'
    · simp only [stabilizeTrail_of_stabilizing hp, hstep, hs, htrail]
    · have hok : (step (su.withLimit limit) e).1 = .ok outcome := by rw [hstep, hs]
      rw [stabilizeFrom_of_ok hp hok, hstep, hs]
      exact hfrom
  | case3 e n hp =>
    refine ⟨fun y hy hp' => ?_, ?_, stabilizeFrom_of_ne hp⟩
    · rw [stabilizeTrail_of_ne hp, List.mem_singleton] at hy
      exact absurd hp' (hy ▸ hp)
    · rw [stabilizeTrail_of_ne hp, stabilizeTrail_of_ne hp]

end HigherLimits

/-! ### Sessions -/

/-- An engine that a session leads to stabilizes since some beginning, and no other one can fail.
From there, it takes at most one microstep with transitions more than its limit.  Some number of
steps ends the stabilization; it fails, and stops the engine, exactly if that one microstep more is
taken and does not halt the chart; and if it does not fail, it goes the same way under every higher
limit. -/
theorem stabilization_limited (hv : su.model.Validated) (context : κ) (memory : σ) :
    ∃ e, create su context memory = .ok e ∧
      (∀ actions : List (Action κ), ∀ x, x ∈ sessionTrail su e actions ∨
        x = performAll su e actions →
          (x.phase = .stabilizing → ∃ b, Begins su e b ∧ Within su b x) ∧
          ∀ err, (step su x).1 = .error err → x.phase = .stabilizing) ∧
      ∀ b x, Begins su e b → Within su b x →
        x.stats.microsteps ≤ b.stats.microsteps + su.options.maxMicrosteps + 1 ∧
        (x.phase = .stabilizing →
          (∃ j, ((next su)^[j] x).phase ≠ .stabilizing) ∧
          (∀ err, (step su x).1 = .error err ↔
            err = .stabilizationLimit su.options.maxMicrosteps ∧ Exceeds su b (step su x).2) ∧
          (∀ err, (stabilize su x).1 = .error err ↔
            err = .stabilizationLimit su.options.maxMicrosteps ∧ Exceeds su b (stabilize su x).2) ∧
          (Exceeds su b (step su x).2 → (step su x).2.phase = .stopped) ∧
          (Exceeds su b (stabilize su x).2 → (stabilize su x).2.phase = .stopped) ∧
          ((stabilize su x).1 ≠ .error (.stabilizationLimit su.options.maxMicrosteps) →
            ∀ limit, su.options.maxMicrosteps ≤ limit →
              (∀ y ∈ x :: stabilizeTrail su x, y.phase = .stabilizing →
                step (su.withLimit limit) y = step su y) ∧
              stabilizeTrail (su.withLimit limit) x = stabilizeTrail su x ∧
              stabilize (su.withLimit limit) x = stabilize su x)) := by
  have hfresh : Truthful su (fresh context memory) := truthful_fresh context memory
  refine ⟨fresh context memory, create_eq hv context memory, fun actions x hx => ?_, fun b x hb hx => ?_⟩
  · obtain ⟨vs, -, rfl⟩ := exists_moveAll_session hx
    have ht : Truthful su (moveAll su (fresh context memory) vs) :=
      moveAll_induction hfresh fun v _ _ hx => hx.move hv v
    exact ⟨exists_begins (by simp [fresh]) vs, fun err => stabilizing_of_step_error hv ht⟩
  · have hbt := hfresh.of_begins hv hb
    have ht := hbt.of_within hv hx
    have hc := counted_of_within hv hbt (counted_of_begins hv hfresh hb) hx
    refine ⟨hc.bounded, fun hp => ⟨exists_iterate_step_ne su x, step_error_iff hv ht hc hp,
      stabilizeFrom_error_iff hv ht hc hp 0, fun hex => ?_, fun hex => ?_,
      fun h limit hle => stabilizeFrom_withLimit hle 0 h⟩⟩
    · have herr := (step_error_iff hv ht hc hp _).2 ⟨rfl, hex⟩
      exact phase_of_step_error (Prod.ext herr rfl)
    · have herr := (stabilizeFrom_error_iff hv ht hc hp 0 _).2 ⟨rfl, hex⟩
      refine (phase_stabilizeFrom su x 0 (by simp [hp])).resolve_right fun h => ?_
      obtain ⟨⟨k, hk⟩, -⟩ := h
      rw [herr] at hk
      cases hk

end Engine

/-! ### A chart that goes on by itself -/

namespace Model

/-- The state `a` gives way to `b`, and `b` to `c`, without an event. -/
def cascading : Model where
  nodes := #[
    ⟨none, .scxml none, none, [1, 3, 5]⟩,
    ⟨some "a", .state none, some 0, [2]⟩,
    ⟨none, .transition ⟨[], none, ["b"], .external⟩, some 1, []⟩,
    ⟨some "b", .state none, some 0, [4]⟩,
    ⟨none, .transition ⟨[], none, ["c"], .external⟩, some 3, []⟩,
    ⟨some "c", .state none, some 0, []⟩]
  root? := some 0
  index := [("a", 1), ("b", 3), ("c", 5)]
  transitions := [2, 4]

theorem addAll?_cascading :
    empty.addAll? (cascading.nodes.toList.map fun n => (⟨n.id, n.kind⟩, n.parent)) =
      some cascading := by
  decide +kernel

theorem validated_cascading : cascading.Validated where
  built := Built.empty.addAll? addAll?_cascading
  valid := by decide +kernel

end Model

namespace Engine

/-- An engine over a chart that goes from `a` through `b` to `c` by itself, with a limit. -/
def cascadingSetup (limit : Nat) : Setup Scope Cache :=
  ⟨Model.cascading, ⟨limit, true⟩, .standard Scope⟩

theorem validated_cascadingSetup (limit : Nat) : (cascadingSetup limit).model.Validated :=
  Model.validated_cascading

/-- The engine when it has been started. -/
def cascadingStart : Engine Scope Cache := (enterInitial (cascadingSetup 1) blank.reset).2

/-- The engine after its first microstep. -/
def cascadingNext (limit : Nat) : Engine Scope Cache :=
  (step (cascadingSetup limit) cascadingStart).2

theorem begins_cascadingStart (limit : Nat) :
    Begins (cascadingSetup limit) (fresh .empty .empty) cascadingStart := by
  have hstart : move (cascadingSetup limit) blank .enter = cascadingStart := by
    have hentered : enterInitial ((cascadingSetup 1).withLimit limit) blank.reset =
        enterInitial (cascadingSetup 1) blank.reset := enterInitial_withLimit
    have hstopped : blank.phase = .stopped := rfl
    rw [move, if_pos hstopped]
    exact congrArg Prod.snd hentered
  have hp : cascadingStart.phase = .stabilizing := by decide +kernel
  exact ⟨[], .enter, by simp [moveAll, fresh], hstart.symm, hp⟩

theorem within_cascadingNext (limit : Nat) :
    Within (cascadingSetup limit) cascadingStart (cascadingNext limit) :=
  .move .begin (by decide +kernel) .step

/-- The second microstep exceeds a limit of one, but no higher one. -/
theorem stabilization_limited_cascading :
    (step (cascadingSetup 1) (cascadingNext 1)).1 = .error (.stabilizationLimit 1) ∧
      (step (cascadingSetup 1) (cascadingNext 1)).2.phase = .stopped ∧
      (stabilize (cascadingSetup 2) (cascadingNext 2)).1 = .ok 1 ∧
      ∀ limit, 2 ≤ limit → stabilize (cascadingSetup limit) (cascadingNext 2) =
        stabilize (cascadingSetup 2) (cascadingNext 2) := by
  have hspec := fun limit =>
    stabilization_limited (validated_cascadingSetup limit) Scope.empty Cache.empty
  simp only [create_eq (validated_cascadingSetup _), Except.ok.injEq, exists_eq_left'] at hspec
  obtain ⟨-, h⟩ := (hspec 1).2 _ _ (begins_cascadingStart 1) (within_cascadingNext 1)
  obtain ⟨-, hfails, -, hstops, -, -⟩ := h (by decide +kernel)
  have hexceeds : Exceeds (cascadingSetup 1) cascadingStart
      (step (cascadingSetup 1) (cascadingNext 1)).2 := by
    unfold Exceeds
    constructor <;> decide +kernel
  have hok : (stabilize (cascadingSetup 2) (cascadingNext 2)).1 = .ok 1 := by
    have hfirst : (step (cascadingSetup 2) (cascadingNext 2)).1 = .ok (.microstep none 1) := by
      decide +kernel
    have hsecond : (step (cascadingSetup 2) (step (cascadingSetup 2) (cascadingNext 2)).2).1 =
        .ok .settled := by
      decide +kernel
    have hwaiting : (step (cascadingSetup 2)
        (step (cascadingSetup 2) (cascadingNext 2)).2).2.phase = .waiting := by
      decide +kernel
    rw [stabilize, stabilizeFrom_of_ok (by decide +kernel) hfirst,
      stabilizeFrom_of_ok (by decide +kernel) hsecond,
      stabilizeFrom_of_ne (by rw [hwaiting]; exact Phase.noConfusion)]
    rfl
  refine ⟨(hfails _).2 ⟨rfl, hexceeds⟩, hstops hexceeds, hok, fun limit hle => ?_⟩
  obtain ⟨-, h⟩ := (hspec 2).2 _ _ (begins_cascadingStart 2) (within_cascadingNext 2)
  obtain ⟨-, -, -, -, -, hsame⟩ := h (by decide +kernel)
  exact (hsame (by simp [hok]) limit hle).2.2

end Engine

end Statechart
