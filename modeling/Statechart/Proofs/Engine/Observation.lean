import Statechart.Proofs.Engine.Draining

/-!
# What the observer of a run sees

`run` processes the events that wait, one after the other, until the queue is closed or the chart
has halted; the host closes the queue as soon as no event waits.  The observer sees the
configuration after each macrostep that has taken a microstep.

* `Engine.served`: the engine after some calls of `processNext`;
* `Engine.sight`, `Engine.sights`: what there is to see of one macrostep, and of several;
* `Engine.Paced`: as many configurations have been published as microsteps have been taken, as by
  every step (`Engine.paced_of_steps`), so that the observer misses none (`Engine.observe_eq`);
* `Engine.Processed`: how a call of `processNext` can end that finds an event;
* `Engine.Underway`: a run after some macrosteps.  It takes one more, and goes on or ends
  (`Underway.succ`), or there is none (`Underway.ended`);
* `Engine.run_conducted`: all this for every engine that a session leads to.
-/

namespace Statechart

namespace Engine

variable {κ σ : Type} {su : Setup κ σ} {e x y : Engine κ σ} {event : Event} {rest : List Event}
  {closes : List Configuration → Bool} {seen : List Configuration} {shown n k : Nat} {err : Error}

/-! ### Microsteps and publications -/

/-- Since `e`, as many configurations have been published as microsteps have been taken. -/
def Paced (e y : Engine κ σ) : Prop :=
  ∃ n, y.stats.microsteps = e.stats.microsteps + n ∧
    y.stats.configurations = e.stats.configurations + n

theorem Paced.of_eq (h : y.stats = e.stats) : Paced e y := ⟨0, by rw [h]; rfl, by rw [h]; rfl⟩

theorem Paced.trans {z : Engine κ σ} (h : Paced e y) (h' : Paced y z) : Paced e z := by
  obtain ⟨n, hm, hc⟩ := h
  obtain ⟨n', hm', hc'⟩ := h'
  exact ⟨n + n', by omega, by omega⟩

variable [Context κ]

theorem Turns.configurations {event : Option Event} (h : Turns su e event y) :
    y.stats.configurations = e.stats.configurations := by
  cases h with
  | eventless => rfl
  | internal =>
    have hstats : (prepared su none e).stats = e.stats := stats_prepared
    exact congrArg (·.configurations) hstats
  | external => rfl

theorem Turns.paced_prepared {event : Option Event} (h : Turns su e event y) :
    Paced e (prepared su event y) := by
  have hstats : (prepared su event y).stats = y.stats := stats_prepared
  exact ⟨0, by rw [hstats, h.microsteps]; rfl, by rw [hstats, h.configurations]; rfl⟩

/-- A microstep that takes transitions publishes one configuration. -/
theorem Turns.paced_acted {event : Option Event} (h : Turns su e event y) :
    Paced e (acted su event y) := by
  refine ⟨1, by rw [microsteps_acted, h.microsteps], ?_⟩
  have hstats : (prepared su event y).stats = y.stats := stats_prepared
  rw [acted, configurations_advance, hstats, h.configurations]

theorem paced_of_steps {r : Except Error Outcome × Engine κ σ} (h : Steps su e r) :
    Paced e r.2 := by
  cases h with
  | close | dequeue | idle | lose => exact .of_eq rfl
  | @ignore event hp hc =>
    have ht : Turns su e (some event) e.takenUp := .external hp hc
    exact ht.paced_prepared
  | @respond event hp hc =>
    have ht : Turns su e (some event) e.takenUp := .external hp hc
    exact ht.paced_acted
  | settle =>
    have hstats : (prepared su none e).stats = e.stats := stats_prepared
    exact .of_eq hstats
  | skip _ ht => exact ht.paced_prepared
  | count _ ht | limit _ ht | halt ht => exact ht.paced_acted

theorem paced_iterate (hv : su.model.Validated) (ht : Truthful su e) (n : Nat) :
    Truthful su ((next su)^[n] e) ∧ Paced e ((next su)^[n] e) := by
  induction n with
  | zero => exact ⟨ht, .of_eq rfl⟩
  | succ n ih =>
    obtain ⟨htn, hpaced⟩ := ih
    rw [Function.iterate_succ_apply']
    refine ⟨htn.step hv, hpaced.trans ?_⟩
    by_cases hp : ((next su)^[n] e).phase = .stopped
    · have hstep : next su ((next su)^[n] e) = (next su)^[n] e := move_step_stopped hp
      rw [hstep]
      exact .of_eq rfl
    · exact paced_of_steps (steps_of_truthful hv htn hp)

/-- A step that stops an engine in the midst of its work without failing has halted the chart. -/
theorem halted_of_steps {r : Except Error Outcome × Engine κ σ} (hs : Steps su e r)
    (hb : ¬ AtBoundary e) (hok : ∀ err, r.1 ≠ .error err) (hp : r.2.phase = .stopped) :
    r.2.halted = true ∧ e.stats.microsteps < r.2.stats.microsteps := by
  cases hs with
  | close hp' | dequeue hp' | idle hp' => exact absurd (.inl hp') hb
  | lose | ignore | respond | settle => cases hp
  | skip hp' ht =>
    rw [phase_prepared, ht.phase, hp'] at hp
    cases hp
  | @count event y hp' ht =>
    have hphase : (acted su event y).phase = .stabilizing := phase_acted.trans (ht.phase.trans hp')
    exact absurd (hphase.symm.trans hp) Phase.noConfusion
  | limit => exact absurd rfl (hok _)
  | @halt event y ht hs hh =>
    refine ⟨hh, ?_⟩
    have hcount : (acted su event y).stats.microsteps = e.stats.microsteps + 1 := by
      rw [microsteps_acted, ht.microsteps]
    exact Nat.lt_of_lt_of_eq (Nat.lt_succ_self _) hcount.symm

/-- Work that stops an engine without failing has halted the chart. -/
theorem halted_of_settle (hv : su.model.Validated) (ht : Truthful su e) (hb : ¬ AtBoundary e)
    (hok : (settle su e).1 = .ok ()) (hp : (settle su e).2.phase = .stopped) :
    (settle su e).2.halted = true ∧ e.stats.microsteps < (settle su e).2.stats.microsteps := by
  obtain ⟨n, hn⟩ := exists_steppedTo_settle su e
  cases n with
  | zero => exact absurd hn.finishes.atBoundary hb
  | succ m =>
    have hlast : (settle su e).2 = (step su ((next su)^[m] e)).2 := by
      rw [hn.engine, Function.iterate_succ_apply']
      rfl
    have hbusy : ¬ AtBoundary ((next su)^[m] e) := hn.finishes.busy (Nat.lt_succ_self m)
    obtain ⟨htm, d, hm, -⟩ := paced_iterate hv ht m
    have hs := steps_of_truthful hv htm fun hstopped => hbusy (.inr hstopped)
    have hnofail : ∀ err, (step su ((next su)^[m] e)).1 ≠ .error err := by
      intro err hfails
      have herr := (hn.error_iff err).2 ⟨m, Nat.lt_succ_self m, hfails⟩
      rw [hok] at herr
      cases herr
    rw [hlast] at hp ⊢
    obtain ⟨hh, hlt⟩ := halted_of_steps hs hbusy hnofail hp
    exact ⟨hh, by omega⟩

/-! ### One macrostep -/

/-- How a call of `processNext` can end if `rest` waits behind the event that it finds. -/
inductive Processed (su : Setup κ σ) (e : Engine κ σ) (rest : List Event) : Prop
  /-- The event is processed, and the others go on waiting. -/
  | onward (hr : (processNext su e).1 = .ok true) (hp : (processNext su e).2.phase = .waiting)
      (hq : (processNext su e).2.external = ⟨rest, false⟩)
  /-- The chart has halted. -/
  | halted (hr : (processNext su e).1 = .ok true) (hp : (processNext su e).2.phase = .stopped)
      (hh : (processNext su e).2.halted = true)
      (hn : e.stats.microsteps < (processNext su e).2.stats.microsteps)
  /-- The stabilization has failed. -/
  | failed {err : Error} (hr : (processNext su e).1 = .error err)
      (hp : (processNext su e).2.phase = .stopped)

theorem processed_of_queued (hv : su.model.Validated) (ht : Truthful su e) (hp : e.phase = .waiting)
    (hq : e.external = ⟨event :: rest, false⟩) :
    Truthful su (processNext su e).2 ∧ Paced e (processNext su e).2 ∧ Processed su e rest := by
  have haccept : next su e = e.accept event ⟨rest, false⟩ := next_of_queued hp hq
  have hprocess := processNext_of_queued su hp hq
  obtain ⟨n, hn⟩ := exists_steppedTo_settle su (next su e)
  have hengine : (processNext su e).2 = (settle su (next su e)).2 := by rw [hprocess]
  obtain ⟨htruthful, hpaced⟩ : Truthful su (processNext su e).2 ∧ Paced e (processNext su e).2 := by
    rw [hengine, hn.engine]
    exact paced_iterate hv ht (n + 1)
  refine ⟨htruthful, hpaced, ?_⟩
  have hphase := phase_settle su (next su e)
  rw [← hengine] at hphase
  rcases hr : (settle su (next su e)).1 with err | u
  · rw [hr] at hprocess hphase
    have hfails : (processNext su e).1 = .error err := by rw [hprocess]; rfl
    refine .failed hfails (hphase.resolve_right fun h => ?_)
    cases h.1
  · rw [hr] at hprocess
    have hok : (processNext su e).1 = .ok true := by rw [hprocess]; rfl
    rcases hphase with hstopped | ⟨-, hwaiting⟩
    · have hnext : Truthful su (next su e) := ht.step hv
      have hbusy : ¬ AtBoundary (next su e) := by simp [AtBoundary, haccept, accept]
      rw [hengine] at hstopped
      obtain ⟨hh, hlt⟩ := halted_of_settle hv hnext hbusy hr hstopped
      rw [← hengine] at hh hlt hstopped
      rw [haccept] at hlt
      exact .halted hok hstopped hh hlt
    · have hone := processed_one hv ht (Prod.ext hok rfl)
      obtain ⟨-, event', rest', n', hq', -, -, -, -, hleft⟩ := hone
      rw [hq] at hq'
      cases hq'
      rcases hleft with ⟨-, hrest⟩ | ⟨hstopped, -⟩
      · exact .onward hok hwaiting hrest
      · rw [hwaiting] at hstopped
        cases hstopped

/-! ### What there is to see -/

/-- The engine after some calls of `processNext`. -/
def served (su : Setup κ σ) (e : Engine κ σ) (n : Nat) : Engine κ σ :=
  performAll su e (List.replicate n .processNext)

/-- What there is to see of the next macrostep: the configuration after it, if it is completed and
has taken a microstep. -/
def sight (su : Setup κ σ) (e : Engine κ σ) : List Configuration :=
  match processNext su e with
  | (.ok true, y) => if e.stats.microsteps < y.stats.microsteps then [y.configuration] else []
  | _ => []

/-- What there is to see of the next macrosteps, in their order. -/
def sights (su : Setup κ σ) (e : Engine κ σ) (n : Nat) : List Configuration :=
  (List.range n).flatMap fun i => sight su (served su e i)

/-- The observer of a run sees the last of some macrosteps, and closes the queue. -/
def ClosedAfter (su : Setup κ σ) (closes : List Configuration → Bool) (x : Engine κ σ) : Nat → Prop
  | 0 => False
  | n + 1 => sight su (served su x n) ≠ [] ∧ closes (sights su x (n + 1)) = true

theorem served_succ (su : Setup κ σ) (e : Engine κ σ) (n : Nat) :
    served su e (n + 1) = (processNext su (served su e n)).2 := by
  rw [served, List.replicate_succ', performAll, List.foldl_append]
  rfl

theorem sights_succ (su : Setup κ σ) (e : Engine κ σ) (n : Nat) :
    sights su e (n + 1) = sights su e n ++ sight su (served su e n) := by
  rw [sights, List.range_succ, List.flatMap_append, List.flatMap_singleton]
  rfl

theorem sight_of_ok (hr : (processNext su e).1 = .ok true) : sight su e =
    if e.stats.microsteps < (processNext su e).2.stats.microsteps
    then [(processNext su e).2.configuration] else [] := by
  unfold sight
  generalize processNext su e = p at hr ⊢
  obtain ⟨r, y⟩ := p
  cases hr
  rfl

theorem sight_of_error (hr : (processNext su e).1 = .error err) : sight su e = [] := by
  unfold sight
  generalize processNext su e = p at hr ⊢
  obtain ⟨r, y⟩ := p
  cases hr
  rfl

/-- The observer notices every macrostep that there is to see, and no other one. -/
theorem sight_ne_nil_iff (hr : (processNext su e).1 = .ok true)
    (hpaced : Paced e (processNext su e).2) : sight su e ≠ [] ↔
      (processNext su e).2.stats.configurations ≠ e.stats.configurations := by
  obtain ⟨n, hm, hc⟩ := hpaced
  rw [sight_of_ok hr]
  split
  · simp only [ne_eq, List.cons_ne_nil, not_false_eq_true, true_iff]
    omega
  · simp only [ne_eq, not_true_eq_false, false_iff, not_not]
    omega

/-- It sees what there is to see. -/
theorem observe_eq (hr : (processNext su e).1 = .ok true) (hpaced : Paced e (processNext su e).2)
    (seen : List Configuration) :
    (processNext su e).2.observe seen e.stats.configurations = seen ++ sight su e := by
  have hnotices := sight_ne_nil_iff hr hpaced
  rw [sight_of_ok hr] at hnotices ⊢
  unfold observe
  split
  · next hne =>
    split
    · rfl
    · next hlt =>
      rw [if_neg hlt] at hnotices
      exact absurd rfl (hnotices.2 hne)
  · next heq =>
    split
    · next hlt =>
      rw [if_pos hlt] at hnotices
      exact absurd (hnotices.1 (List.cons_ne_nil _ _)) heq
    · rw [List.append_nil]

/-! ### One round of a run -/

theorem settle_of_ok (hp : e.phase = .waiting) (hq : e.external = ⟨event :: rest, false⟩)
    (hr : (processNext su e).1 = .ok true) :
    settle su (next su e) = (.ok (), (processNext su e).2) := by
  rw [processNext_of_queued su hp hq] at hr ⊢
  rcases hs : settle su (next su e) with ⟨err | u, y⟩
  · rw [hs] at hr
    cases hr
  · rfl

theorem settle_of_error (hp : e.phase = .waiting) (hq : e.external = ⟨event :: rest, false⟩)
    (hr : (processNext su e).1 = .error err) :
    settle su (next su e) = (.error err, (processNext su e).2) := by
  rw [processNext_of_queued su hp hq] at hr ⊢
  rcases hs : settle su (next su e) with ⟨err' | u, y⟩
  · rw [hs] at hr
    cases hr
    rfl
  · rw [hs] at hr
    cases hr

theorem trail_processNext (hp : e.phase = .waiting) :
    trail su e .processNext = next su e :: settleTrail su (next su e) :=
  if_neg (not_not.2 hp)

theorem sessionTrail_replicate_succ (su : Setup κ σ) (x : Engine κ σ) (k : Nat) :
    sessionTrail su x (List.replicate (k + 1) .processNext) =
      sessionTrail su x (List.replicate k .processNext) ++
        trail su (served su x k) .processNext := by
  induction k generalizing x with
  | zero => exact List.append_nil _
  | succ k ih =>
    have hfirst : ∀ n, sessionTrail su x (List.replicate (n + 1) .processNext) =
        trail su x .processNext ++
          sessionTrail su (processNext su x).2 (List.replicate n .processNext) := fun _ => rfl
    rw [hfirst, ih, ← List.append_assoc, ← hfirst]
    rfl

theorem settle_of_waiting (hp : e.phase = .waiting) : settle su e = (.ok (), e) := by
  have hrest : stabilize su e = (.ok 0, e) := stabilizeFrom_of_ne (by simp [hp])
  rw [settle, if_neg (by simp [hp])]
  dsimp only
  rw [hrest]

theorem round_of_queued (hp : e.phase = .waiting) (hq : e.external = ⟨event :: rest, false⟩) :
    round su closes seen e.stats.configurations e =
      (true, ⟨seen, .ok (), next su e⟩) := by
  simp [next_of_queued hp hq, round, settle_of_waiting hp, observe, hp, hq, ExternalQueue.pop]

theorem round_of_idle (h : e.Idle) : round su closes seen e.stats.configurations e =
    (false, ⟨seen, .ok (), e.shutdown⟩) := by
  simp [round, settle_of_waiting h.1, observe, h.1, h.2, ExternalQueue.pop]

theorem round_of_failed {y : Engine κ σ} (hs : settle su e = (.error err, y)) :
    round su closes seen shown e = (false, ⟨seen, .error err, y⟩) := by
  rw [round, hs]

theorem round_of_stopped {y : Engine κ σ} (hs : settle su e = (.ok (), y))
    (hp : y.phase = .stopped) :
    round su closes seen shown e = (false, ⟨y.observe seen shown, .ok (), y⟩) := by
  rw [round, hs]
  dsimp only
  rw [if_pos hp]

theorem round_of_closed {y : Engine κ σ} (hs : settle su e = (.ok (), y)) (hp : y.phase = .waiting)
    (hc : y.stats.configurations ≠ shown ∧ closes (y.observe seen shown) = true) :
    round su closes seen shown e = (false, ⟨y.observe seen shown, .ok (), y.shutdown⟩) := by
  rw [round, hs]
  dsimp only
  rw [if_neg (by simp [hp]), if_pos hc]
  rfl

/-- A round that comes to wait, with the queue still open, goes on as the next one does. -/
theorem round_of_waiting {y : Engine κ σ} (hs : settle su e = (.ok (), y)) (hp : y.phase = .waiting)
    (hc : ¬ (y.stats.configurations ≠ shown ∧ closes (y.observe seen shown) = true)) :
    round su closes seen shown e =
      round su closes (y.observe seen shown) y.stats.configurations y := by
  have hsame : y.observe (y.observe seen shown) y.stats.configurations = y.observe seen shown :=
    if_neg (not_not.2 rfl)
  have hrun : y.phase ≠ .stopped := by simp [hp]
  rw [round, hs, round, settle_of_waiting hp]
  dsimp only
  rw [hsame, if_neg hrun, if_neg hc, if_neg hrun, if_neg fun h => h.1 rfl]

theorem runFrom_eq_of_round {seen' : List Configuration} {shown' : Nat} {y : Engine κ σ}
    (h : round su closes seen shown e = round su closes seen' shown' y) :
    runFrom su closes seen shown e = runFrom su closes seen' shown' y := by
  rcases hr : round su closes seen' shown' y with ⟨_ | _, r⟩
  · rw [runFrom_of_round_false (h.trans hr), runFrom_of_round_false hr]
  · rw [runFrom_of_round_true (h.trans hr), runFrom_of_round_true hr]

theorem runTrail_eq_of_round {seen' : List Configuration} {shown' : Nat} {y : Engine κ σ}
    (h : round su closes seen shown e = round su closes seen' shown' y)
    (hp : y.phase = .waiting) :
    runTrail su closes seen shown e =
      settleTrail su e ++ runTrail su closes seen' shown' y := by
  have hnil : settleTrail su y = [] := by
    rw [settleTrail_of_ne (by simp [hp]), stabilizeTrail_of_ne (by simp [hp])]
  rcases hr : round su closes seen' shown' y with ⟨_ | _, r⟩
  · rw [runTrail_of_round_false (h.trans hr), runTrail_of_round_false hr, hnil]
    rfl
  · rw [runTrail_of_round_true (h.trans hr), runTrail_of_round_true hr, hnil]
    rfl

/-! ### A whole run -/

/-- After `i` macrosteps of a run the engine waits, the next event is there, and the observer has
not closed the queue. -/
structure Awaits (su : Setup κ σ) (closes : List Configuration → Bool) (x : Engine κ σ) (i : Nat) :
    Prop where
  within : i < x.external.events.length
  waiting : (served su x i).phase = .waiting
  queue : (served su x i).external = ⟨x.external.events.drop i, false⟩
  stillOpen : ¬ ClosedAfter su closes x i

/-- How a run can end after `n` macrosteps. -/
inductive Ending (su : Setup κ σ) (closes : List Configuration → Bool) (x : Engine κ σ) (n : Nat)
    (r : Run κ σ) : Prop
  /-- The queue is closed: by the observer, or by the host because no event waits. -/
  | closed (hp : (served su x n).phase = .waiting)
      (hc : ClosedAfter su closes x n ∨ n = x.external.events.length)
      (he : r.engine = (served su x n).shutdown) (hr : r.result = .ok ())
  /-- The chart has halted, and the observer has seen the configuration in which it has. -/
  | halted (hp : (served su x n).phase = .stopped) (hh : (served su x n).halted = true)
      (he : r.engine = served su x n) (hr : r.result = .ok ())
      (hlast : r.observed.getLast? = some r.engine.configuration)
  /-- The last macrostep has not been completed. -/
  | failed {k : Nat} {err : Error} (hn : n = k + 1)
      (hf : (processNext su (served su x k)).1 = .error err)
      (he : r.engine = served su x n) (hr : r.result = .error err)

/-- A run consists of `n` macrosteps, and an end.  It takes the steps that `n` calls of
`processNext` take, and the observer sees what there is to see of them. -/
structure Conducted (su : Setup κ σ) (closes : List Configuration → Bool) (x : Engine κ σ)
    (n : Nat) : Prop where
  awaits : ∀ i < n, Awaits su closes x i
  trail_eq : trail su x (.run closes) =
    sessionTrail su x (List.replicate n .processNext) ++ [(run su closes x).engine]
  observed : (run su closes x).observed = sights su x n
  ending : Ending su closes x n (run su closes x)

/-- A run after `k` macrosteps, if it has not ended before. -/
structure Underway (su : Setup κ σ) (closes : List Configuration → Bool) (x : Engine κ σ)
    (k : Nat) : Prop where
  truthful : Truthful su (served su x k)
  within : k ≤ x.external.events.length
  waiting : (served su x k).phase = .waiting
  queue : (served su x k).external = ⟨x.external.events.drop k, false⟩
  stillOpen : ¬ ClosedAfter su closes x k
  awaits : ∀ i < k, Awaits su closes x i
  run_eq : run su closes x = runFrom su closes (sights su x k)
    (served su x k).stats.configurations (served su x k)
  trail_eq : trail su x (.run closes) = sessionTrail su x (List.replicate k .processNext) ++
    runTrail su closes (sights su x k) (served su x k).stats.configurations (served su x k)

namespace Underway

theorem zero (ht : Truthful su x) (hp : x.phase = .waiting) (hopen : x.external.closed = false) :
    Underway su closes x 0 where
  truthful := ht
  within := Nat.zero_le _
  waiting := hp
  queue := by
    show x.external = ⟨x.external.events, false⟩
    rw [← hopen]
  stillOpen := id
  awaits i hi := absurd hi (Nat.not_lt_zero i)
  run_eq := if_neg (by simp [hp])
  trail_eq := if_neg (by simp [hp])

/-- Without an event that waits, the host closes the queue. -/
theorem ended (h : Underway su closes x k) (hk : k = x.external.events.length) :
    Conducted su closes x k := by
  have hidle : (served su x k).Idle := ⟨h.waiting, by rw [h.queue, hk, List.drop_length]⟩
  have hround : round su closes (sights su x k) (served su x k).stats.configurations
      (served su x k) = (false, ⟨sights su x k, .ok (), (served su x k).shutdown⟩) :=
    round_of_idle hidle
  have hrun := h.run_eq.trans (runFrom_of_round_false hround)
  refine ⟨h.awaits, ?_, by rw [hrun], .closed h.waiting (.inr hk) (by rw [hrun]) (by rw [hrun])⟩
  rw [h.trail_eq, runTrail_of_round_false hround, hrun,
    settleTrail_of_ne (by simp [h.waiting]), stabilizeTrail_of_ne (by simp [h.waiting])]
  rfl

theorem awaits_succ (h : Underway su closes x k) (hk : k < x.external.events.length) :
    ∀ i < k + 1, Awaits su closes x i := by
  intro i hi
  rcases Nat.lt_succ_iff_lt_or_eq.1 hi with hi | rfl
  · exact h.awaits i hi
  · exact ⟨hk, h.waiting, h.queue, h.stillOpen⟩

theorem queued (h : Underway su closes x k) (hk : k < x.external.events.length) :
    ∃ event, (served su x k).external = ⟨event :: x.external.events.drop (k + 1), false⟩ :=
  ⟨x.external.events[k], by rw [h.queue, List.drop_eq_getElem_cons hk]⟩

/-- With an event that waits, the run takes it. -/
theorem taken (h : Underway su closes x k) (hk : k < x.external.events.length) :
    run su closes x = runFrom su closes (sights su x k) (served su x k).stats.configurations
        (next su (served su x k)) ∧
      trail su x (.run closes) = sessionTrail su x (List.replicate k .processNext) ++
        next su (served su x k) :: runTrail su closes (sights su x k)
          (served su x k).stats.configurations (next su (served su x k)) := by
  obtain ⟨event, hq⟩ := h.queued hk
  have hstats : (next su (served su x k)).stats = (served su x k).stats := by
    rw [next_of_queued h.waiting hq]
    rfl
  have hround : round su closes (sights su x k) (served su x k).stats.configurations
      (served su x k) = (true, ⟨sights su x k, .ok (), next su (served su x k)⟩) :=
    round_of_queued h.waiting hq
  rw [h.run_eq, h.trail_eq, runFrom_of_round_true hround, runTrail_of_round_true hround,
    settleTrail_of_ne (by simp [h.waiting]), stabilizeTrail_of_ne (by simp [h.waiting]), hstats]
  exact ⟨rfl, rfl⟩

/-- A round that is the last one after this event. -/
theorem last (h : Underway su closes x k) (hk : k < x.external.events.length) {r : Run κ σ}
    (hround : round su closes (sights su x k) (served su x k).stats.configurations
      (next su (served su x k)) = (false, r))
    (hobserved : r.observed = sights su x (k + 1)) (hend : Ending su closes x (k + 1) r) :
    Conducted su closes x (k + 1) := by
  obtain ⟨hrun, htrail⟩ := h.taken hk
  rw [runFrom_of_round_false hround] at hrun
  rw [runTrail_of_round_false hround] at htrail
  refine ⟨h.awaits_succ hk, ?_, hrun ▸ hobserved, hrun ▸ hend⟩
  rw [htrail, sessionTrail_replicate_succ, trail_processNext h.waiting, hrun]
  simp

/-- With an event that waits, the run takes one more macrostep, and goes on or ends. -/
theorem succ (hv : su.model.Validated) (h : Underway su closes x k)
    (hk : k < x.external.events.length) :
    Underway su closes x (k + 1) ∨ Conducted su closes x (k + 1) := by
  have hp := h.waiting
  obtain ⟨event, hq⟩ := h.queued hk
  obtain ⟨htruthful, hpaced, hprocessed⟩ := processed_of_queued hv h.truthful hp hq
  have hsights := sights_succ su x k
  have hserved := served_succ su x k
  cases hprocessed with
  | failed hr =>
    rw [sight_of_error hr, List.append_nil] at hsights
    exact .inr (h.last hk (round_of_failed (settle_of_error hp hq hr)) hsights.symm
      (.failed rfl hr hserved.symm rfl))
  | halted hr hstopped hh hn =>
    have hsees := observe_eq hr hpaced (sights su x k)
    rw [← hsights] at hsees
    have hround : round su closes (sights su x k) (served su x k).stats.configurations
        (next su (served su x k)) =
          (false, ⟨sights su x (k + 1), .ok (), (processNext su (served su x k)).2⟩) := by
      rw [round_of_stopped (settle_of_ok hp hq hr) hstopped, hsees]
    have hlast : (sights su x (k + 1)).getLast? =
        some (processNext su (served su x k)).2.configuration := by
      rw [hsights, sight_of_ok hr, if_pos hn, List.getLast?_concat]
    rw [← hserved] at hstopped hh
    exact .inr (h.last hk hround rfl (.halted hstopped hh hserved.symm rfl hlast))
  | onward hr hwaiting hrest =>
    have hs := settle_of_ok hp hq hr
    have hsees := observe_eq hr hpaced (sights su x k)
    rw [← hsights] at hsees
    have hcloses : ClosedAfter su closes x (k + 1) ↔
        (processNext su (served su x k)).2.stats.configurations ≠
            (served su x k).stats.configurations ∧
          closes ((processNext su (served su x k)).2.observe (sights su x k)
            (served su x k).stats.configurations) = true := by
      rw [hsees, ← sight_ne_nil_iff hr hpaced]
      rfl
    by_cases hc : ClosedAfter su closes x (k + 1)
    · have hround := round_of_closed hs hwaiting (hcloses.1 hc)
      rw [hsees] at hround
      rw [← hserved] at hwaiting
      exact .inr (h.last hk hround rfl (.closed hwaiting (.inl hc) (by rw [hserved]) rfl))
    · have hround := round_of_waiting hs hwaiting (mt hcloses.2 hc)
      obtain ⟨hrun, htrail⟩ := h.taken hk
      rw [hsees] at hround
      rw [runFrom_eq_of_round hround, ← hserved] at hrun
      rw [runTrail_eq_of_round hround hwaiting, ← hserved] at htrail
      refine .inl ⟨hserved ▸ htruthful, hk, hserved ▸ hwaiting, by rw [hserved, hrest], hc,
        h.awaits_succ hk, hrun, ?_⟩
      rw [htrail, sessionTrail_replicate_succ, trail_processNext hp]
      simp

end Underway

/-- A run of an engine that waits consists of some macrosteps. -/
theorem exists_conducted (hv : su.model.Validated) (h : Underway su closes x k) :
    ∃ n, Conducted su closes x n := by
  induction hlen : x.external.events.length - k generalizing k with
  | zero => exact ⟨k, h.ended (by have := h.within; omega)⟩
  | succ d ih =>
    rcases h.succ hv (by omega) with hnext | hend
    · exact ih hnext (by omega)
    · exact ⟨_, hend⟩

/-- If an engine of a session waits, with any events in its open queue, then a run of it with any
observer takes the steps that some calls of `processNext` take, until the queue is closed or the
chart has halted.  The observer sees, in their order, the configurations after the macrosteps that
have taken a microstep, and nothing else. -/
theorem run_conducted (hv : su.model.Validated) (context : κ) (memory : σ) :
    ∃ e, create su context memory = .ok e ∧ ∀ actions : List (Action κ),
      ∀ x, x ∈ sessionTrail su e actions ∨ x = performAll su e actions →
        x.phase = .waiting → x.external.closed = false →
          ∀ closes, ∃ n, Conducted su closes x n := by
  refine ⟨fresh context memory, create_eq hv context memory,
    fun actions x hx hp hopen closes => ?_⟩
  have ht : Truthful su x :=
    session_induction hx (truthful_fresh context memory) fun v _ x h => h.move hv v
  exact exists_conducted hv (.zero ht hp hopen)

/-- The first request for the chart that serves them takes microsteps. -/
theorem sight_crowdedEngine : ∃ config, config.states.toList = [7] ∧
    sight servingSetup crowdedEngine = [config] := by
  have hbefore : crowdedEngine.stats.microsteps = 0 := by
    rw [crowdedEngine_eq]
    decide +kernel
  have hafter : 0 < ((next servingSetup)^[3] servingEngine).stats.microsteps := by
    rw [servingEngine_eq]
    decide +kernel
  refine ⟨_, (Prod.mk.inj next_servingEngine).2, ?_⟩
  rw [sight_of_ok (congrArg Prod.fst processNext_crowdedEngine), processNext_crowdedEngine, hbefore,
    if_pos hafter]

/-- An observer that closes the queue as soon as it is called has seen the first request, and the
second one is dropped. -/
theorem run_conducted_crowded :
    crowdedEngine.phase = .waiting ∧ crowdedEngine.external.closed = false ∧
      Conducted servingSetup (fun _ => true) crowdedEngine 1 ∧
      (run servingSetup (fun _ => true) crowdedEngine).observed.map (·.states.toList) = [[7]] ∧
      (run servingSetup (fun _ => true) crowdedEngine).engine.external = ⟨[], true⟩ := by
  obtain ⟨event, event', hq⟩ := exists_queued_crowdedEngine
  have hopen : crowdedEngine.external.closed = false := by rw [hq]
  have hlength : crowdedEngine.external.events.length = 2 := by rw [hq]; rfl
  obtain ⟨config, hstates, hsight⟩ := sight_crowdedEngine
  have hsights : sights servingSetup crowdedEngine 1 = [config] := by
    rw [sights_succ]
    exact hsight
  have hcloses : ClosedAfter servingSetup (fun _ => true) crowdedEngine 1 := by
    refine ⟨?_, rfl⟩
    show sight servingSetup crowdedEngine ≠ []
    simp [hsight]
  have hdone : (served servingSetup crowdedEngine 1).phase = .waiting := by
    show (processNext servingSetup crowdedEngine).2.phase = .waiting
    rw [processNext_crowdedEngine]
    exact (Prod.mk.inj next_servingEngine).1
  obtain ⟨e, hcreate, h⟩ := run_conducted validated_servingSetup Scope.empty Cache.empty
  rw [create_eq validated_servingSetup] at hcreate
  cases hcreate
  obtain ⟨n, hn⟩ := h _ crowdedEngine (.inr rfl) phase_crowdedEngine hopen fun _ => true
  obtain rfl : n = 1 := by
    match n with
    | 0 =>
      cases hn.ending with
      | closed _ hc => rcases hc with hc | hc; exacts [hc.elim, absurd hc (by omega)]
      | halted hp => exact absurd (phase_crowdedEngine.symm.trans hp) Phase.noConfusion
      | failed hf => cases hf
    | 1 => rfl
    | _ + 2 => exact absurd hcloses (hn.awaits 1 (by omega)).stillOpen
  refine ⟨phase_crowdedEngine, hopen, hn, by rw [hn.observed, hsights, ← hstates]; rfl, ?_⟩
  cases hn.ending with
  | closed _ _ he => rw [he]; rfl
  | halted hp => exact absurd (hdone.symm.trans hp) Phase.noConfusion
  | failed hf hr =>
    cases hf
    have hok := congrArg Prod.fst processNext_crowdedEngine
    exact absurd (hok.symm.trans hr) (by simp)

end Engine

end Statechart
