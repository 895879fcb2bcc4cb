import Statechart.Proofs.Engine.Session

/-!
# Sessions with a validated model

An engine over a validated model is `Engine.Sound` when the configuration it shows is legal, and it
shows one while it runs.  Every step keeps it sound and fails only in ways that a host brings about.

* `Error.isOperational`: the errors that sessions can meet;
* `Sound.step`: one step of the run loop;
* `Sound.perform`, `Sound.trail`: one action, with all its steps;
* `Sound.sessionTrail`, `Sound.sessionErrors`: a whole session, from which it follows that all it
  publishes is legal.
-/

namespace Statechart

/-- An operation in the wrong phase, an endless stabilization or a closed queue. -/
def Error.isOperational : Error → Bool
  | .refused _ _ | .stabilizationLimit _ | .queueClosed => true
  | _ => false

namespace Engine

variable {κ σ : Type} {su : Setup κ σ} {event : Option Event} {e e' : Engine κ σ} {err : Error}

/-- A running engine shows a configuration, and what an engine shows is legal. -/
structure Sound (su : Setup κ σ) (e : Engine κ σ) : Prop where
  shows : e.phase ≠ .stopped → 0 < e.stats.configurations
  legal : 0 < e.stats.configurations → e.configuration.Legal su.model

/-- What an operation of a sound engine gives: a sound engine, and an error only if the host brings
it about. -/
structure Proper {α : Type} (su : Setup κ σ) (p : Except Error α × Engine κ σ) : Prop where
  sound : Sound su p.2
  operational {err : Error} : p.1 = .error err → err.isOperational

theorem Sound.of_keeps (h : Sound su e) (hk : Keeps e e')
    (hp : e'.phase ≠ .stopped → e.phase ≠ .stopped) : Sound su e' where
  shows h' := by
    rw [hk.2]
    exact h.shows (hp h')
  legal h' := by
    rw [hk.1]
    exact h.legal (hk.2 ▸ h')

theorem Sound.shutdown (h : Sound su e) : Sound su e.shutdown :=
  h.of_keeps keeps_shutdown fun h' => absurd rfl h'

theorem Sound.legal_of_running (h : Sound su e) (hp : e.phase ≠ .stopped) :
    e.configuration.Legal su.model := h.legal (h.shows hp)

theorem Proper.ok {α : Type} {a : α} (h : Sound su e) : Proper su (Except.ok a, e) where
  sound := h
  operational h := by cases h

theorem Proper.error {α : Type} (h : Sound su e) (herr : err.isOperational) :
    Proper su ((Except.error err : Except Error α), e) where
  sound := h
  operational h := by
    cases h
    exact herr

theorem Proper.sound_of_ok {α : Type} {p : Except Error α × Engine κ σ} {a : α} (h : Proper su p)
    (hp : p = (.ok a, e)) : Sound su e := by
  have := h.sound
  rwa [hp] at this

/-- An error that is handed on is still expected. -/
theorem Proper.of_error {α β : Type} {p : Except Error α × Engine κ σ} (h : Proper su p)
    (hp : p = (.error err, e)) : Proper su ((Except.error err : Except Error β), e) := by
  rw [hp] at h
  exact .error h.sound (h.operational rfl)

theorem Proper.answer {α : Type} {p : Except Error α × Engine κ σ} (h : Proper su p) :
    Sound su p.2 ∧ ∀ err ∈ failure? p.1, err.isOperational := by
  refine ⟨h.sound, fun err herr => h.operational ?_⟩
  obtain ⟨r, e⟩ := p
  cases r with
  | error err' =>
    cases herr
    rfl
  | ok a => cases herr

/-! ### Parts that take no transitions -/

/-- A new engine is sound: it has shown nothing yet. -/
theorem exists_create (hv : su.model.Validated) (context : κ) (memory : σ) :
    ∃ e, create su context memory = .ok e ∧ Sound su e ∧ e.stats.configurations = 0 := by
  simp only [create, hv.valid]
  exact ⟨_, rfl, ⟨fun h => absurd rfl h, fun h => absurd h (Nat.lt_irrefl 0)⟩, rfl⟩

theorem Sound.reset (h : Sound su e) (hp : e.phase = .stopped) : Sound su e.reset :=
  h.of_keeps ⟨rfl, rfl⟩ fun h' => absurd hp h'

theorem Sound.await (h : Sound su e) (hp : e.phase ≠ .stopped) : Proper su e.await := by
  rcases await_cases e with ⟨-, h'⟩ | ⟨event, queue, -, h'⟩ | ⟨-, h'⟩
  · rw [h']
    exact .ok (h.of_keeps keeps_shutdown fun _ => hp)
  · rw [h']
    exact .ok (h.of_keeps (keeps_accept ..) fun _ => hp)
  · rw [h']
    exact .ok h

theorem Sound.afterMicrostep (h : Sound su e) (hp : e.phase ≠ .stopped) (name : Option String)
    (n : Nat) : Proper su (afterMicrostep su name n e) where
  sound := h.of_keeps (keeps_afterMicrostep ..) fun _ => hp
  operational {err} herr := by
    rw [(afterMicrostep_error (Prod.ext herr rfl)).1]
    rfl

theorem Sound.push (h : Sound su e) (event : Event) : Proper su (e.push event) := by
  unfold Engine.push
  split
  · exact .ok (h.of_keeps ⟨rfl, rfl⟩ id)
  · exact .error h rfl

theorem Sound.inject (h : Sound su e) (event : Event) : Proper su (e.inject event) := by
  unfold Engine.inject
  split
  · exact .error h rfl
  · exact h.push event

/-! ### Trails of sound engines -/

/-- A trail of sound engines leads to a sound one. -/
theorem Leads.sound {l : List (Engine κ σ)} (hl : Leads e l e') (h : Sound su e)
    (htrail : ∀ x ∈ l, Sound su x) : Sound su e' := by
  induction hl with
  | nil => exact h
  | cons _ _ ih =>
    obtain ⟨h', hrest⟩ := List.forall_mem_cons.1 htrail
    exact ih h' hrest

/-- What is published on a trail of sound engines is legal. -/
theorem legal_of_mem_published {l : List (Engine κ σ)} (hl : Leads e l e')
    (htrail : ∀ x ∈ l, Sound su x) {c : Configuration} (hc : c ∈ published e l) :
    c.Legal su.model := by
  induction hl with
  | nil => cases hc
  | @cons e e₁ e₂ l hf _ ih =>
    obtain ⟨h₁, hrest⟩ := List.forall_mem_cons.1 htrail
    rw [published, List.mem_append] at hc
    rcases hc with hc | hc
    · split at hc
      · cases hc
      · next hne =>
        rw [List.mem_singleton.1 hc]
        exact h₁.legal (by
          rcases hf with hk | hn
          · exact absurd hk.2 hne
          · omega)
    · exact ih hrest hc

/-! ### One step -/

variable [Context κ]

/-- A microstep of a sound engine that runs does not fail. -/
theorem Sound.guardedMicrostep (hv : su.model.Validated) (h : Sound su e) (hp : e.phase ≠ .stopped)
    (event : Option Event) :
    ∃ n e', guardedMicrostep su event e = (.ok n, e') ∧ Sound su e' ∧ e'.phase ≠ .stopped := by
  have hlegal := h.legal_of_running hp
  rcases microstep_cases hv hlegal event with ⟨-, hstep⟩ | ⟨-, hstep⟩
  · refine ⟨_, _, by rw [Engine.guardedMicrostep, hstep], ?_, by rwa [phase_prepared]⟩
    exact h.of_keeps keeps_prepared fun _ => hp
  · refine ⟨_, _, by rw [Engine.guardedMicrostep, hstep], ⟨fun _ => ?_, fun _ => ?_⟩, ?_⟩
    · rw [configurations_advance]
      exact Nat.succ_pos _
    · rw [configuration_advance, configuration_prepared]
      exact legal_take_selected hv hlegal event
    · rwa [phase_advance, phase_prepared]

theorem Sound.consume (hv : su.model.Validated) (h : Sound su e) (hp : e.phase ≠ .stopped) :
    Proper su (consume su e) := by
  unfold Engine.consume
  split
  · exact .ok (h.of_keeps ⟨rfl, rfl⟩ fun _ => hp)
  · next event rest hq =>
    dsimp only
    have hpopped : Sound su
        { e with
          store := { e.store with internal := rest }
          stats := { e.stats with internalEvents := e.stats.internalEvents + 1 } } :=
      h.of_keeps ⟨rfl, rfl⟩ fun _ => hp
    obtain ⟨n, e₁, hstep, h₁, hp₁⟩ := hpopped.guardedMicrostep hv hp (some event)
    rw [hstep]
    exact h₁.afterMicrostep hp₁ ..

theorem Sound.stabilizeOnce (hv : su.model.Validated) (h : Sound su e) (hp : e.phase ≠ .stopped) :
    Proper su (stabilizeOnce su e) := by
  obtain ⟨n, e₁, hstep, h₁, hp₁⟩ := h.guardedMicrostep hv hp none
  rw [Engine.stabilizeOnce, hstep]
  dsimp only
  split
  · exact h₁.afterMicrostep hp₁ ..
  · exact h₁.consume hv hp₁

theorem Sound.processCurrent (hv : su.model.Validated) (h : Sound su e) (hp : e.phase ≠ .stopped) :
    Proper su (processCurrent su e) := by
  unfold Engine.processCurrent
  split
  · exact .ok (h.of_keeps ⟨rfl, rfl⟩ fun _ => hp)
  · next event hcurrent =>
    dsimp only
    have htaken : Sound su
        { e with
          current := none
          stats := { e.stats with macrosteps := e.stats.macrosteps + 1 } } :=
      h.of_keeps ⟨rfl, rfl⟩ fun _ => hp
    obtain ⟨n, e₁, hstep, h₁, hp₁⟩ := htaken.guardedMicrostep hv hp (some event)
    rw [hstep]
    dsimp only
    split
    · exact .ok (h₁.of_keeps keeps_shutdown fun _ => hp₁)
    · exact .ok (h₁.of_keeps ⟨rfl, rfl⟩ fun _ => hp₁)

/-- A step keeps an engine sound, and fails only if a stabilization does not end. -/
theorem Sound.step (hv : su.model.Validated) (h : Sound su e) : Proper su (step su e) := by
  unfold Engine.step
  split
  · exact .ok h
  · next hp => exact h.stabilizeOnce hv (by simp [hp])
  · next hp => exact h.await (by simp [hp])
  · next hp => exact h.processCurrent hv (by simp [hp])

/-! ### One action -/

/-- A start enters a legal configuration, whatever the engine was before. -/
theorem proper_enterInitial (hv : su.model.Validated) (e : Engine κ σ) :
    Proper su (enterInitial su e) := by
  have hlegal := Configuration.legal_initialDescendants hv
  rw [enterInitial_eq hv]
  refine .ok ⟨fun _ => ?_, fun _ => ?_⟩
  · split <;> exact Nat.succ_pos _
  · split <;> exact hlegal

theorem Sound.stabilizeTrail (hv : su.model.Validated) (h : Sound su e) :
    ∀ x ∈ stabilizeTrail su e, Sound su x := by
  fun_induction Engine.stabilizeTrail su e with
  | case1 e hp ih =>
    have hstep := (h.step hv).sound
    exact List.forall_mem_cons.2 ⟨hstep, ih hstep⟩
  | case2 => simp

theorem Sound.settleTrail (hv : su.model.Validated) (h : Sound su e) :
    ∀ x ∈ settleTrail su e, Sound su x := by
  unfold Engine.settleTrail
  split
  · have hstep := (h.step hv).sound
    exact List.forall_mem_cons.2 ⟨hstep, hstep.stabilizeTrail hv⟩
  · exact h.stabilizeTrail hv

theorem Sound.stabilize (hv : su.model.Validated) (h : Sound su e) :
    Proper su (stabilize su e) where
  sound := (leads_stabilize su e).sound h (h.stabilizeTrail hv)
  operational {err} herr := by
    unfold Engine.stabilize at herr
    -- Induction along the steps, whatever the number of those taken before.
    generalize 0 = n at herr
    fun_induction stabilizeFrom su e n with
    | case1 e n hp err' e' hs =>
      cases herr
      exact (h.step hv).operational (by rw [hs])
    | case2 e n hp outcome e' hs ih =>
      have hstep := (h.step hv).sound
      rw [hs] at hstep
      exact ih hstep herr
    | case3 => cases herr

theorem Sound.settle (hv : su.model.Validated) (h : Sound su e) : Proper su (settle su e) := by
  have hfirst : Proper su
      (if e.phase = .processing then Engine.step su e else (.ok .idle, e)) := by
    split
    · exact h.step hv
    · exact .ok h
  unfold Engine.settle
  split
  · next hf => exact hfirst.of_error hf
  · next hf =>
    have hrest := (hfirst.sound_of_ok hf).stabilize hv
    split
    · next hs => exact hrest.of_error hs
    · next hs => exact .ok (hrest.sound_of_ok hs)

theorem Sound.start (hv : su.model.Validated) (h : Sound su e) : Proper su (start su e) := by
  unfold Engine.start
  split
  · exact .error h rfl
  · have henter := proper_enterInitial hv e.reset
    split
    · next he => exact henter.of_error he
    · next he =>
      have hrest := (henter.sound_of_ok he).stabilize hv
      split
      · next hs => exact hrest.of_error hs
      · next hs => exact .ok (hrest.sound_of_ok hs)

theorem Sound.stop (hv : su.model.Validated) (h : Sound su e) : Proper su (stop su e) := by
  unfold Engine.stop
  split
  · exact .error h rfl
  · have hsettle := h.settle hv
    split
    · next hs => exact hsettle.of_error hs
    · next hs =>
      have h₁ := hsettle.sound_of_ok hs
      refine .ok ?_
      split
      · exact h₁
      · exact h₁.shutdown

theorem Sound.processNext (hv : su.model.Validated) (h : Sound su e) :
    Proper su (processNext su e) := by
  unfold Engine.processNext
  split
  · exact .error h rfl
  · have htake := h.step hv
    split
    · next ht => exact htake.of_error ht
    · next ht =>
      have hprocess := (htake.sound_of_ok ht).step hv
      split
      · next hs => exact hprocess.of_error hs
      · next hs =>
        have hrest := (hprocess.sound_of_ok hs).stabilize hv
        split
        · next hr => exact hrest.of_error hr
        · next hr => exact .ok (hrest.sound_of_ok hr)
    · next ht => exact .ok (htake.sound_of_ok ht)

/-- A round of a run keeps an engine sound. -/
theorem Sound.round (hv : su.model.Validated) (h : Sound su e)
    (closes : List Configuration → Bool) (seen : List Configuration) (shown : Nat) :
    Proper su ((round su closes seen shown e).2.result, (round su closes seen shown e).2.engine) := by
  have hsettle := h.settle hv
  unfold Engine.round
  split
  · next hs => exact hsettle.of_error hs
  · next hs =>
    have h₁ := hsettle.sound_of_ok hs
    dsimp only
    split
    · exact .ok h₁
    · next hp =>
      -- The engine has not stopped, so it may take an event or be shut down.
      split
      · exact .ok (h₁.of_keeps ⟨rfl, rfl⟩ fun _ => hp)
      · split
        · exact .ok (h₁.of_keeps (keeps_accept ..) fun _ => hp)
        · exact .ok h₁.shutdown

theorem Sound.runFrom (hv : su.model.Validated) (h : Sound su e)
    (closes : List Configuration → Bool) (seen : List Configuration) (shown : Nat) :
    Proper su ((runFrom su closes seen shown e).result,
      (runFrom su closes seen shown e).engine) := by
  fun_induction Engine.runFrom su closes seen shown e with
  | case1 seen shown e r hr ih =>
    have hround := h.round hv closes seen shown
    rw [hr] at hround
    exact ih hround.sound
  | case2 seen shown e r hr =>
    have hround := h.round hv closes seen shown
    rwa [hr] at hround

theorem Sound.run (hv : su.model.Validated) (h : Sound su e)
    (closes : List Configuration → Bool) :
    Proper su ((run su closes e).result, (run su closes e).engine) := by
  unfold Engine.run
  split
  · exact .error h rfl
  · exact h.runFrom hv closes [] e.stats.configurations

theorem Sound.runTrail (hv : su.model.Validated) (h : Sound su e)
    (closes : List Configuration → Bool) (seen : List Configuration) (shown : Nat) :
    ∀ x ∈ runTrail su closes seen shown e, Sound su x := by
  fun_induction Engine.runTrail su closes seen shown e with
  | case1 seen shown e r hr ih =>
    have hround := h.round hv closes seen shown
    rw [hr] at hround
    exact List.forall_mem_append.2 ⟨h.settleTrail hv,
      List.forall_mem_cons.2 ⟨hround.sound, ih hround.sound⟩⟩
  | case2 seen shown e r hr =>
    have hround := h.round hv closes seen shown
    rw [hr] at hround
    exact List.forall_mem_append.2 ⟨h.settleTrail hv, List.forall_mem_singleton.2 hround.sound⟩

/-- What a host does to a sound engine leads to a sound one, and fails only in ways that the host
brings about. -/
theorem Sound.perform (hv : su.model.Validated) (h : Sound su e) (a : Action κ) :
    Sound su (perform su e a).2 ∧ ∀ err ∈ (Engine.perform su e a).1, err.isOperational := by
  cases a with
  | start => exact (h.start hv).answer
  | stop => exact (h.stop hv).answer
  | step => exact (h.step hv).answer
  | stabilize => exact (h.stabilize hv).answer
  | processNext => exact (h.processNext hv).answer
  | run closes => exact (h.run hv closes).answer
  | inject event => exact (h.inject event).answer
  | push event => exact (h.push event).answer
  | closeQueue | reopenQueue | writeContext change =>
    exact ⟨h.of_keeps ⟨rfl, rfl⟩ id, fun err herr => by cases herr⟩

/-- Every step of it leads to a sound engine. -/
theorem Sound.trail (hv : su.model.Validated) (h : Sound su e) (a : Action κ) :
    ∀ x ∈ trail su e a, Sound su x := by
  have hlast := List.forall_mem_singleton.2 (h.perform hv a).1
  cases a with
  | start =>
    rw [Engine.trail]
    split
    · simp
    · have henter := (proper_enterInitial hv e.reset).sound
      exact List.forall_mem_cons.2 ⟨henter, henter.stabilizeTrail hv⟩
  | stop =>
    rw [Engine.trail]
    split
    · simp
    · exact List.forall_mem_append.2 ⟨h.settleTrail hv, hlast⟩
  | stabilize => exact h.stabilizeTrail hv
  | processNext =>
    rw [Engine.trail]
    split
    · simp
    · have htake := (h.step hv).sound
      exact List.forall_mem_cons.2 ⟨htake, htake.settleTrail hv⟩
  | run closes =>
    rw [Engine.trail]
    split
    · simp
    · exact h.runTrail hv closes [] e.stats.configurations
  | step | inject event | push event | closeQueue | reopenQueue | writeContext change => exact hlast

/-! ### Whole sessions -/

theorem Sound.sessionTrail (hv : su.model.Validated) (h : Sound su e) (actions : List (Action κ)) :
    ∀ x ∈ sessionTrail su e actions, Sound su x := by
  induction actions generalizing e with
  | nil => simp [Engine.sessionTrail]
  | cons a rest ih =>
    exact List.forall_mem_append.2 ⟨h.trail hv a, ih (h.perform hv a).1⟩

theorem Sound.sessionErrors (hv : su.model.Validated) (h : Sound su e)
    (actions : List (Action κ)) : ∀ err ∈ sessionErrors su e actions, err.isOperational := by
  induction actions generalizing e with
  | nil => simp [Engine.sessionErrors]
  | cons a rest ih =>
    obtain ⟨hnext, herrors⟩ := h.perform hv a
    exact List.forall_mem_append.2
      ⟨fun err herr => herrors err (Option.mem_toList.1 herr), ih hnext⟩

/-- Whatever a host does with an engine over a validated model, the model has an initial
configuration, every configuration that is published is legal, and an action fails only in an
unsuitable phase, because the queue is closed or because a stabilization does not end. -/
theorem session_spec (hv : su.model.Validated) (context : κ) (memory : σ) :
    (∃ c, Configuration.initial su.model = .ok c) ∧
      ∃ e, create su context memory = .ok e ∧ ∀ actions : List (Action κ),
        (∀ c ∈ published e (sessionTrail su e actions), c.validate su.model = .ok ()) ∧
          (published e (sessionTrail su e actions)).length =
            (performAll su e actions).stats.configurations ∧
          ∀ err ∈ sessionErrors su e actions, err.isOperational := by
  obtain ⟨e, hcreate, h, hzero⟩ := exists_create hv context memory
  refine ⟨⟨_, Configuration.initial_eq hv⟩, e, hcreate, fun actions => ⟨fun c hc => ?_, ?_, ?_⟩⟩
  · have hl := leads_sessionTrail su e actions
    exact Configuration.validate_eq_ok_iff.2 ((Configuration.isLegal_iff hv).2
      (legal_of_mem_published hl (h.sessionTrail hv actions) hc))
  · have hcount := (leads_sessionTrail su e actions).length_published
    rwa [hzero] at hcount
  · exact h.sessionErrors hv actions

theorem session_spec_nestedSetup :
    (∃ c, Configuration.initial nestedSetup.model = .ok c) ∧
      ∃ e, create nestedSetup Scope.empty Cache.empty = .ok e ∧ ∀ actions : List (Action Scope),
        (∀ c ∈ published e (sessionTrail nestedSetup e actions),
            c.validate nestedSetup.model = .ok ()) ∧
          (published e (sessionTrail nestedSetup e actions)).length =
            (performAll nestedSetup e actions).stats.configurations ∧
          ∀ err ∈ sessionErrors nestedSetup e actions, err.isOperational :=
  session_spec validated_nestedSetup Scope.empty Cache.empty

end Engine

end Statechart
