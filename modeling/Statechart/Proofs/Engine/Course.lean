import Mathlib.Data.List.Induction
import Statechart.Proofs.Engine.Session

/-!
# Courses

Whatever a host does with an engine comes down to a few moves, one after the other.

* `Move`, `Engine.move`: the moves, and what they do;
* `Engine.moveAll`, `Engine.course`: the engine after some moves, and all engines on the way;
* `Engine.mem_course`: an engine on a course is one after some of its moves;
* `Engine.exists_course_session`: the trail of a session is a course, of moves that its actions may
  consist of;
* `Engine.session_induction`: so what every such move keeps is kept by a session;
* `Engine.StartsAtOnce`: engines that find nothing to do when they have been started.  The rest of a
  session then goes on from `Engine.started`.
-/

namespace Statechart

/-- What can happen to an engine between two steps of the run loop, and a step itself. -/
inductive Move (κ : Type)
  /-- A stopped engine enters its initial configuration. -/
  | enter
  | step
  /-- A waiting engine stops. -/
  | shutdown
  | push (event : Event)
  | closeQueue
  | reopenQueue
  | writeContext (change : κ → κ)

/-- The moves that an action may consist of.  An event that is refused because the engine is stopped
counts as a step of that engine, which does nothing. -/
def Action.moves {κ : Type} : Action κ → List (Move κ)
  | .start => [.enter, .step]
  | .stop => [.step, .shutdown]
  | .step => [.step]
  | .stabilize => [.step]
  | .processNext => [.step]
  | .run _ => [.step, .shutdown]
  | .inject event => [.step, .push event]
  | .push event => [.push event]
  | .closeQueue => [.closeQueue]
  | .reopenQueue => [.reopenQueue]
  | .writeContext change => [.writeContext change]

namespace Engine

variable {κ σ : Type} [Context κ] {su : Setup κ σ} {e e' : Engine κ σ} {l l' : List (Engine κ σ)}

/-- The engine after a step. -/
def next (su : Setup κ σ) (e : Engine κ σ) : Engine κ σ := (step su e).2

/-- The engine after a move. -/
def move (su : Setup κ σ) (e : Engine κ σ) : Move κ → Engine κ σ
  | .enter => if e.phase = .stopped then (enterInitial su e.reset).2 else e
  | .step => (step su e).2
  | .shutdown => if e.phase = .waiting then e.shutdown else e
  | .push event => (e.push event).2
  | .closeQueue => e.closeQueue
  | .reopenQueue => e.reopenQueue
  | .writeContext change => e.writeContext change

/-- The engine after some moves. -/
def moveAll (su : Setup κ σ) (e : Engine κ σ) (vs : List (Move κ)) : Engine κ σ :=
  vs.foldl (move su) e

/-- The engines after each of some moves. -/
def course (su : Setup κ σ) (e : Engine κ σ) : List (Move κ) → List (Engine κ σ)
  | [] => []
  | v :: vs => move su e v :: course su (move su e v) vs

/-! ### Moves, one after the other -/

theorem moveAll_append (e : Engine κ σ) (vs ws : List (Move κ)) :
    moveAll su e (vs ++ ws) = moveAll su (moveAll su e vs) ws := List.foldl_append

theorem course_append (e : Engine κ σ) (vs ws : List (Move κ)) :
    course su e (vs ++ ws) = course su e vs ++ course su (moveAll su e vs) ws := by
  induction vs generalizing e with
  | nil => rfl
  | cons v vs ih => exact congrArg (_ :: ·) (ih (move su e v))

/-- An engine on a course is the one after some of its moves. -/
theorem mem_course {vs : List (Move κ)} {x : Engine κ σ} :
    x ∈ course su e vs ↔ ∃ ws, ws <+: vs ∧ ws ≠ [] ∧ x = moveAll su e ws := by
  induction vs generalizing e with
  | nil => simp [course]
  | cons v vs ih =>
    rw [course, List.mem_cons, ih]
    constructor
    · rintro (rfl | ⟨ws, hws, -, rfl⟩)
      · exact ⟨[v], ⟨vs, rfl⟩, List.cons_ne_nil _ _, rfl⟩
      · exact ⟨v :: ws, List.cons_prefix_cons.2 ⟨rfl, hws⟩, List.cons_ne_nil _ _, rfl⟩
    · rintro ⟨ws, hws, hne, rfl⟩
      obtain ⟨w, ws, rfl⟩ := List.exists_cons_of_ne_nil hne
      obtain ⟨rfl, hrest⟩ := List.cons_prefix_cons.1 hws
      cases ws with
      | nil => exact .inl rfl
      | cons w' ws => exact .inr ⟨w' :: ws, hrest, List.cons_ne_nil _ _, rfl⟩

/-- What comes first on a course is the course of some of its moves. -/
theorem exists_prefix_course {vs : List (Move κ)} {x : Engine κ σ}
    (h : l ++ [x] <+: course su e vs) :
    ∃ us, us <+: vs ∧ l ++ [x] = course su e us ∧ x = moveAll su e us := by
  induction vs using List.reverseRecOn with
  | nil => simp [course] at h
  | append_singleton ws v ih =>
    rw [course_append] at h
    rcases List.prefix_concat_iff.1 h with h | h
    · refine ⟨ws ++ [v], List.prefix_refl _, h.trans (course_append e ws [v]).symm, ?_⟩
      rw [moveAll_append]
      exact List.singleton_inj.1 (List.append_inj_right' h rfl)
    · obtain ⟨us, hus, hl, hx⟩ := ih h
      exact ⟨us, hus.trans (List.prefix_append _ _), hl, hx⟩

/-- A course ends with the engine after all its moves. -/
theorem exists_course_eq_append (su : Setup κ σ) (e : Engine κ σ) (vs : List (Move κ)) :
    ∃ l, e :: course su e vs = l ++ [moveAll su e vs] := by
  induction vs generalizing e with
  | nil => exact ⟨[], rfl⟩
  | cons v vs ih =>
    obtain ⟨l, hl⟩ := ih (move su e v)
    exact ⟨e :: l, congrArg (e :: ·) hl⟩

/-- A course leads where its moves lead. -/
theorem Leads.eq_moveAll {vs : List (Move κ)} (h : Leads e (course su e vs) e') :
    e' = moveAll su e vs := by
  induction vs generalizing e with
  | nil =>
    cases h
    rfl
  | cons v vs ih =>
    cases h with
    | cons _ h => exact ih h

/-- A list of engines is the course of some moves of the given kinds. -/
def Courses (su : Setup κ σ) (kinds : List (Move κ)) (e : Engine κ σ) (l : List (Engine κ σ)) :
    Prop :=
  ∃ vs, (∀ v ∈ vs, v ∈ kinds) ∧ l = course su e vs

namespace Courses

variable {kinds kinds' : List (Move κ)}

theorem nil (e : Engine κ σ) : Courses su kinds e [] := ⟨[], by simp, rfl⟩

theorem cons {v : Move κ} (hv : v ∈ kinds) (he : move su e v = e') (h : Courses su kinds e' l) :
    Courses su kinds e (e' :: l) := by
  obtain ⟨vs, hvs, rfl⟩ := h
  subst he
  exact ⟨v :: vs, List.forall_mem_cons.2 ⟨hv, hvs⟩, rfl⟩

theorem single {v : Move κ} (hv : v ∈ kinds) (he : move su e v = e') :
    Courses su kinds e [e'] := cons hv he (nil e')

theorem append (h : Courses su kinds e l) (hl : Leads e l e') (h' : Courses su kinds e' l') :
    Courses su kinds e (l ++ l') := by
  obtain ⟨vs, hvs, rfl⟩ := h
  obtain ⟨ws, hws, rfl⟩ := h'
  rw [hl.eq_moveAll, ← course_append]
  exact ⟨vs ++ ws, List.forall_mem_append.2 ⟨hvs, hws⟩, rfl⟩

theorem mono (h : Courses su kinds e l) (hsub : ∀ v ∈ kinds, v ∈ kinds') :
    Courses su kinds' e l := by
  obtain ⟨vs, hvs, rfl⟩ := h
  exact ⟨vs, fun v hv => hsub v (hvs v hv), rfl⟩

end Courses

/-! ### A stabilization, step by step -/

theorem stabilizeTrail_of_stabilizing (hp : e.phase = .stabilizing) :
    stabilizeTrail su e = (step su e).2 :: stabilizeTrail su (step su e).2 := by
  rw [stabilizeTrail, dif_pos hp]

theorem stabilizeFrom_of_error {n : Nat} {err : Error} (hp : e.phase = .stabilizing)
    (hs : (step su e).1 = .error err) : stabilizeFrom su e n = (.error err, (step su e).2) := by
  rw [stabilizeFrom, dif_pos hp]
  split <;> simp_all

theorem stabilizeFrom_of_ok {n : Nat} {outcome : Outcome} (hp : e.phase = .stabilizing)
    (hs : (step su e).1 = .ok outcome) : stabilizeFrom su e n =
      stabilizeFrom su (step su e).2 (if outcome.executed then n + 1 else n) := by
  rw [stabilizeFrom, dif_pos hp]
  split <;> simp_all

theorem stabilizeFrom_of_ne {n : Nat} (hp : e.phase ≠ .stabilizing) :
    stabilizeFrom su e n = (.ok n, e) := by
  rw [stabilizeFrom, dif_neg hp]

theorem stabilize_of_ne (hp : e.phase ≠ .stabilizing) : stabilize su e = (.ok 0, e) :=
  stabilizeFrom_of_ne hp

/-- A stabilization that finds nothing to do is one step. -/
theorem stabilize_of_settled (hp : e.phase = .stabilizing) (hs : (step su e).1 = .ok .settled)
    (hne : (next su e).phase ≠ .stabilizing) : stabilize su e = (.ok 0, next su e) := by
  rw [stabilize, stabilizeFrom_of_ok hp hs]
  exact stabilizeFrom_of_ne hne

/-- The engine after the initial states have been entered and one step has been taken. -/
def started (su : Setup κ σ) (e : Engine κ σ) : Engine κ σ := next su (enterInitial su e.reset).2

/-- A stopped engine that can be started, and finds nothing to do when its initial states have been
entered. -/
structure StartsAtOnce (su : Setup κ σ) (e : Engine κ σ) : Prop where
  stopped : e.phase = .stopped
  entered : (enterInitial su e.reset).1 = .ok ()
  stabilizing : (enterInitial su e.reset).2.phase = .stabilizing
  settled : (step su (enterInitial su e.reset).2).1 = .ok .settled
  waiting : (started su e).phase = .waiting

instance decidableStartsAtOnce (su : Setup κ σ) (e : Engine κ σ) : Decidable (StartsAtOnce su e) :=
  decidable_of_iff (e.phase = .stopped ∧ (enterInitial su e.reset).1 = .ok () ∧
      (enterInitial su e.reset).2.phase = .stabilizing ∧
      (step su (enterInitial su e.reset).2).1 = .ok .settled ∧ (started su e).phase = .waiting)
    ⟨fun ⟨hp, hentered, hstabilizing, hsettled, hw⟩ => ⟨hp, hentered, hstabilizing, hsettled, hw⟩,
      fun h => ⟨h.stopped, h.entered, h.stabilizing, h.settled, h.waiting⟩⟩

namespace StartsAtOnce

theorem start (h : StartsAtOnce su e) : start su e = (.ok (), started su e) := by
  have hentered : enterInitial su e.reset = (.ok (), (enterInitial su e.reset).2) :=
    Prod.ext h.entered rfl
  have hne : (started su e).phase ≠ .stabilizing := by
    rw [h.waiting]
    exact Phase.noConfusion
  rw [Engine.start, if_neg (not_not.2 h.stopped), hentered]
  dsimp only
  rw [stabilize_of_settled h.stabilizing h.settled hne]
  rfl

theorem performAll (h : StartsAtOnce su e) (actions : List (Action κ)) :
    performAll su e (.start :: actions) = performAll su (started su e) actions := by
  have hstart : (perform su e .start).2 = started su e := congrArg Prod.snd h.start
  rw [← hstart]
  rfl

end StartsAtOnce

/-- The processing of an event: a step that takes it, one that processes it, and a stabilization. -/
theorem processNext_of_stabilize {name : String} {outcome : Outcome} {n : Nat}
    (hp : e.phase = .waiting) (htaken : (step su e).1 = .ok (.dequeued name))
    (hdone : (step su (next su e)).1 = .ok outcome)
    (hrest : stabilize su (next su (next su e)) = (.ok n, e')) :
    processNext su e = (.ok true, e') := by
  have htaken' : step su e = (.ok (.dequeued name), next su e) := Prod.ext htaken rfl
  have hdone' : step su (next su e) = (.ok outcome, next su (next su e)) := Prod.ext hdone rfl
  rw [processNext, if_neg (not_not.2 hp), htaken']
  dsimp only
  rw [hdone']
  dsimp only
  rw [hrest]

/-! ### In which phase a step leaves an engine -/

omit [Context κ] in
theorem phase_afterMicrostep (su : Setup κ σ) (name : Option String) (n : Nat) (e : Engine κ σ) :
    (afterMicrostep su name n e).2.phase = .stopped ∨
      (afterMicrostep su name n e).2.phase = e.phase := by
  rcases afterMicrostep_cases su name n e with h | ⟨-, -, h⟩ | ⟨-, h⟩
  · exact .inl h
  · exact .inr (by rw [h])
  · exact .inr (by rw [h])

theorem phase_guardedMicrostep {event : Option Event} {r : Except Error Nat}
    (h : guardedMicrostep su event e = (r, e')) : e'.phase = .stopped ∨ e'.phase = e.phase := by
  cases r with
  | error err => exact .inl (guardedMicrostep_error h)
  | ok n => exact .inr (microstep_frame (guardedMicrostep_ok h)).1

theorem phase_consume_ne (h : e.phase ≠ .processing) : (consume su e).2.phase ≠ .processing := by
  unfold consume
  split
  · simp
  · next event rest hq =>
    dsimp only
    split
    · next hm =>
      rcases phase_guardedMicrostep hm with h' | h' <;> simp_all
    · next n e₁ hm =>
      rcases phase_afterMicrostep su (some event.name) n e₁ with h' | h' <;>
        rcases phase_guardedMicrostep hm with h'' | h'' <;> simp_all

/-- Only a waiting engine begins to process an event. -/
theorem phase_step_ne (su : Setup κ σ) (h : e.phase ≠ .waiting) :
    (step su e).2.phase ≠ .processing := by
  unfold step
  split
  · next hp => simp [hp]
  · next hp =>
    unfold stabilizeOnce
    split
    · next hm => rcases phase_guardedMicrostep hm with h' | h' <;> simp_all
    · next n e₁ hm =>
      have hp₁ : e₁.phase ≠ .processing := by
        rcases phase_guardedMicrostep hm with h' | h' <;> simp_all
      split
      · rcases phase_afterMicrostep su none n e₁ with h' | h' <;> simp_all
      · exact phase_consume_ne hp₁
  · contradiction
  · unfold processCurrent
    split
    · simp
    · dsimp only
      split
      · next hm => simp [guardedMicrostep_error hm]
      · split
        · simp
        · dsimp only
          split <;> simp

theorem phase_stabilizeFrom (su : Setup κ σ) (e : Engine κ σ) (n : Nat)
    (h : e.phase ≠ .processing) :
    (stabilizeFrom su e n).2.phase = .stopped ∨
      ((∃ k, (stabilizeFrom su e n).1 = .ok k) ∧ (stabilizeFrom su e n).2.phase = .waiting) := by
  fun_induction stabilizeFrom su e n with
  | case1 e n hp err e' hs => exact .inl (phase_of_step_error hs)
  | case2 e n hp outcome e' hs ih =>
    have hne := phase_step_ne su (e := e) (by simp [hp])
    rw [hs] at hne
    exact ih hne
  | case3 e n hp =>
    cases hphase : e.phase <;> simp_all

/-- An engine that has finished what it was doing waits or has stopped, and it has stopped if it
failed. -/
theorem phase_settle (su : Setup κ σ) (e : Engine κ σ) :
    (settle su e).2.phase = .stopped ∨
      ((settle su e).1 = .ok () ∧ (settle su e).2.phase = .waiting) := by
  unfold settle
  split
  · next err e₁ hs =>
    split at hs
    · exact .inl (phase_of_step_error hs)
    · cases hs
  · next r e₁ hs =>
    have hp₁ : e₁.phase ≠ .processing := by
      split at hs
      · next hp =>
        have hne := phase_step_ne su (e := e) (by simp [hp])
        rwa [hs] at hne
      · next hp =>
        cases hs
        exact hp
    have h := phase_stabilizeFrom su e₁ 0 hp₁
    split
    · next hr =>
      rw [← stabilize, hr] at h
      exact h.imp id fun h => by obtain ⟨⟨k, hk⟩, -⟩ := h; cases hk
    · next hr =>
      rw [← stabilize, hr] at h
      exact h.imp id fun h => ⟨rfl, h.2⟩

/-! ### Trails are courses -/

theorem courses_stabilizeTrail (su : Setup κ σ) (e : Engine κ σ) :
    Courses su [.step] e (stabilizeTrail su e) := by
  fun_induction stabilizeTrail su e with
  | case1 e hp ih => exact .cons (List.mem_singleton.2 rfl) rfl ih
  | case2 e hp => exact .nil e

theorem courses_settleTrail (su : Setup κ σ) (e : Engine κ σ) :
    Courses su [.step] e (settleTrail su e) := by
  unfold settleTrail
  split
  · exact .cons (List.mem_singleton.2 rfl) rfl (courses_stabilizeTrail ..)
  · exact courses_stabilizeTrail ..

theorem move_step_stopped (h : e.phase = .stopped) : move su e .step = e := by
  simp only [move, step, h]

theorem move_shutdown_waiting (h : e.phase = .waiting) : move su e .shutdown = e.shutdown :=
  if_pos h

/-- After it has settled, an engine makes one more move in a round. -/
theorem exists_move_round (su : Setup κ σ) (closes : List Configuration → Bool)
    (seen : List Configuration) (shown : Nat) (e : Engine κ σ) :
    ∃ v ∈ [Move.step, .shutdown],
      move su (settle su e).2 v = (round su closes seen shown e).2.engine := by
  have hphase := phase_settle su e
  unfold round
  split
  · next hs =>
    -- The engine has failed, so it has stopped, and a step does nothing.
    rw [hs] at hphase ⊢
    have hp := hphase.resolve_right fun h => by cases h.1
    exact ⟨.step, by simp, move_step_stopped hp⟩
  · next e₁ hs =>
    rw [hs] at hphase ⊢
    dsimp only at hphase ⊢
    split
    · next hp => exact ⟨.step, by simp, move_step_stopped hp⟩
    · next hp =>
      have hwaiting := (hphase.resolve_left hp).2
      split
      · exact ⟨.shutdown, by simp, move_shutdown_waiting hwaiting⟩
      · split
        · next event queue hpop =>
          -- Taking an event is what a step of a waiting engine does.
          refine ⟨.step, by simp, ?_⟩
          have hopen : e₁.external.closed = false := by
            by_contra hc
            rw [Bool.not_eq_false] at hc
            simp [ExternalQueue.pop, hc] at hpop
          simp only [move, step_waiting hwaiting, await, hopen, hpop]
          rfl
        · exact ⟨.shutdown, by simp, move_shutdown_waiting hwaiting⟩

theorem courses_runTrail (su : Setup κ σ) (closes : List Configuration → Bool)
    (seen : List Configuration) (shown : Nat) (e : Engine κ σ) :
    Courses su [.step, .shutdown] e (runTrail su closes seen shown e) := by
  have hsettle : ∀ e, Courses su [.step, .shutdown] e (settleTrail su e) := fun e =>
    (courses_settleTrail su e).mono (by simp)
  fun_induction runTrail su closes seen shown e with
  | case1 seen shown e r h ih =>
    obtain ⟨v, hv, hmove⟩ := exists_move_round su closes seen shown e
    rw [h] at hmove
    exact (hsettle e).append (leads_settleTrail su e) (.cons hv hmove ih)
  | case2 seen shown e r h =>
    obtain ⟨v, hv, hmove⟩ := exists_move_round su closes seen shown e
    rw [h] at hmove
    exact (hsettle e).append (leads_settleTrail su e) (.single hv hmove)

theorem courses_start (su : Setup κ σ) (e : Engine κ σ) :
    Courses su [.enter, .step] e (trail su e .start) := by
  rw [trail]
  split
  · exact .nil e
  · next hp =>
    refine .cons (v := .enter) (by simp) (if_pos (not_not.1 hp)) ?_
    exact (courses_stabilizeTrail ..).mono (by simp)

theorem courses_stop (su : Setup κ σ) (e : Engine κ σ) :
    Courses su [.step, .shutdown] e (trail su e .stop) := by
  rw [trail]
  split
  · exact .nil e
  · next hp =>
    refine ((courses_settleTrail su e).mono (by simp)).append (leads_settleTrail su e) ?_
    have hphase := phase_settle su e
    rw [perform, stop, if_neg hp]
    split
    · next hs =>
      rw [hs] at hphase ⊢
      exact .single (v := .step) (by simp)
        (move_step_stopped (hphase.resolve_right fun h => by cases h.1))
    · next hs =>
      rw [hs] at hphase ⊢
      dsimp only at hphase ⊢
      split
      · next hp' => exact .single (v := .step) (by simp) (move_step_stopped hp')
      · next hp' =>
        exact .single (v := .shutdown) (by simp)
          (move_shutdown_waiting (hphase.resolve_left hp').2)

theorem courses_inject (su : Setup κ σ) (event : Event) (e : Engine κ σ) :
    Courses su [.step, .push event] e [(e.inject event).2] := by
  unfold inject
  split
  · next hp => exact .single (v := .step) (by simp) (move_step_stopped hp)
  · exact .single (v := .push event) (by simp) rfl

/-- The trail of an action is a course of its moves. -/
theorem courses_trail (su : Setup κ σ) (e : Engine κ σ) (a : Action κ) :
    Courses su a.moves e (trail su e a) := by
  cases a with
  | start => exact courses_start su e
  | stop => exact courses_stop su e
  | step => exact .single (List.mem_singleton.2 rfl) rfl
  | stabilize => exact courses_stabilizeTrail su e
  | processNext =>
    rw [trail]
    split
    · exact .nil e
    · exact .cons (List.mem_singleton.2 rfl) rfl (courses_settleTrail ..)
  | run closes =>
    rw [trail]
    split
    · exact .nil e
    · exact courses_runTrail ..
  | inject event => exact courses_inject su event e
  | push event => exact .single (List.mem_singleton.2 rfl) rfl
  | closeQueue => exact .single (List.mem_singleton.2 rfl) rfl
  | reopenQueue => exact .single (List.mem_singleton.2 rfl) rfl
  | writeContext change => exact .single (List.mem_singleton.2 rfl) rfl

/-! ### Sessions are courses -/

/-- The moves that some actions may consist of. -/
def movesOf (actions : List (Action κ)) : List (Move κ) := actions.flatMap Action.moves

theorem courses_sessionTrail (su : Setup κ σ) (e : Engine κ σ) (actions : List (Action κ)) :
    Courses su (movesOf actions) e (sessionTrail su e actions) := by
  induction actions generalizing e with
  | nil => exact .nil e
  | cons a rest ih =>
    have hhead : Courses su (movesOf (a :: rest)) e (trail su e a) :=
      (courses_trail su e a).mono fun v hv => List.mem_append_left _ hv
    exact hhead.append (leads_trail su e a)
      ((ih _).mono fun v hv => List.mem_append_right _ hv)

/-- A session is a course of moves that its actions may consist of. -/
theorem exists_course_session (su : Setup κ σ) (e : Engine κ σ) (actions : List (Action κ)) :
    ∃ vs, (∀ v ∈ vs, v ∈ movesOf actions) ∧ sessionTrail su e actions = course su e vs ∧
      performAll su e actions = moveAll su e vs := by
  obtain ⟨vs, hvs, htrail⟩ := courses_sessionTrail su e actions
  have hlead := leads_sessionTrail su e actions
  rw [htrail] at hlead
  exact ⟨vs, hvs, htrail, hlead.eq_moveAll⟩

/-- A session ends with the engine that its actions give. -/
theorem exists_sessionTrail_eq_append (su : Setup κ σ) (e : Engine κ σ)
    (actions : List (Action κ)) :
    ∃ l, e :: sessionTrail su e actions = l ++ [performAll su e actions] := by
  obtain ⟨vs, -, htrail, hlast⟩ := exists_course_session su e actions
  rw [htrail, hlast]
  exact exists_course_eq_append su e vs

theorem moveAll_induction {P : Engine κ σ → Prop} {vs : List (Move κ)} (he : P e)
    (hmove : ∀ v ∈ vs, ∀ x, P x → P (move su x v)) : P (moveAll su e vs) := by
  induction vs generalizing e with
  | nil => exact he
  | cons v vs ih =>
    obtain ⟨hv, hvs⟩ := List.forall_mem_cons.1 hmove
    exact ih (hv e he) hvs

/-- An engine of a session is one after some moves that its actions may consist of. -/
theorem exists_moveAll_session {actions : List (Action κ)} {x : Engine κ σ}
    (hx : x ∈ sessionTrail su e actions ∨ x = performAll su e actions) :
    ∃ vs, (∀ v ∈ vs, v ∈ movesOf actions) ∧ x = moveAll su e vs := by
  obtain ⟨vs, hvs, htrail, hlast⟩ := exists_course_session su e actions
  rcases hx with hx | hx
  · rw [htrail] at hx
    obtain ⟨ws, hws, -, rfl⟩ := mem_course.1 hx
    exact ⟨ws, fun v hv => hvs v (hws.subset hv), rfl⟩
  · exact ⟨vs, hvs, hx.trans hlast⟩

/-- What the moves of a session keep holds of every engine of it. -/
theorem session_induction {P : Engine κ σ → Prop} {actions : List (Action κ)} {x : Engine κ σ}
    (hx : x ∈ sessionTrail su e actions ∨ x = performAll su e actions) (he : P e)
    (hmove : ∀ v ∈ movesOf actions, ∀ x, P x → P (move su x v)) : P x := by
  obtain ⟨vs, hvs, rfl⟩ := exists_moveAll_session hx
  exact moveAll_induction he fun v hv => hmove v (hvs v hv)

end Engine

end Statechart
