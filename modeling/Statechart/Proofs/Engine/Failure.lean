import Statechart.Proofs.Engine.Stabilization

/-!
# Calls that fail

A call that fails either is refused, and then it has done nothing, or brings the engine down to rest:
there is no third state that a host has to expect.

* `Error.isRefusal`: an operation in an unsuitable phase, or a closed queue;
* `Engine.Down`: a stopped engine with nothing waiting, which still shows a legal configuration;
* `Engine.Falls`: what fails is no refusal, and leaves the engine down.  A step is of this kind
  (`falls_step`), and so is what consists of steps (`falls_stabilizeFrom`, `falls_settle`,
  `falls_runFrom`);
* `Engine.Contained`: what fails is refused and changes nothing, or leaves the engine down.  Every
  action is of this kind (`contained_perform`);
* `Engine.failures_contained`: so is every action in every engine of a session.
-/

namespace Statechart

/-- Whether an error refuses an action, in an unsuitable phase or because the queue is closed. -/
def Error.isRefusal : Error → Bool
  | .refused _ _ | .queueClosed => true
  | _ => false

namespace Engine

variable {κ σ α β : Type} {su : Setup κ σ} {event : Option Event} {e e' y : Engine κ σ} {err : Error}

/-- A stopped engine in which nothing waits, and which shows a legal configuration. -/
structure Down (su : Setup κ σ) (e : Engine κ σ) : Prop where
  phase : e.phase = .stopped
  external : e.external = ⟨[], true⟩
  internal : e.store.internal = []
  current : e.current = none
  legal : e.configuration.isLegal su.model

/-- If an operation fails, it is not refused, and the engine is down. -/
def Falls (su : Setup κ σ) (r : Except Error α × Engine κ σ) : Prop :=
  ∀ err, r.1 = .error err → err.isRefusal = false ∧ Down su r.2

/-- If an operation on an engine fails, it is refused and changes nothing, or the engine is down. -/
def Contained (su : Setup κ σ) (e : Engine κ σ) (r : Except Error α × Engine κ σ) : Prop :=
  ∀ err, r.1 = .error err → err.isRefusal = true ∧ r.2 = e ∨ err.isRefusal = false ∧ Down su r.2

theorem down_shutdown (hv : su.model.Validated) (h : e.configuration.Legal su.model) :
    Down su e.shutdown :=
  ⟨rfl, rfl, rfl, rfl, (Configuration.isLegal_iff hv).2 h⟩

theorem Falls.ok (a : α) (e : Engine κ σ) : Falls su (.ok a, e) := fun _ h => by cases h

/-- An error that is handed on still leaves the engine down. -/
theorem Falls.of_error {r : Except Error α × Engine κ σ} (h : Falls su r) (hr : r = (.error err, e)) :
    Falls su ((.error err : Except Error β), e) := by
  rintro _ ⟨⟩
  rw [hr] at h
  exact h err rfl

theorem Falls.contained {r : Except Error α × Engine κ σ} (h : Falls su r) : Contained su e r :=
  fun err herr => .inr (h err herr)

/-- What is refused has changed nothing. -/
theorem Contained.of_refusal (herr : err.isRefusal = true) :
    Contained su e ((.error err : Except Error α), e) := by
  rintro _ ⟨⟩
  exact .inl ⟨herr, rfl⟩

theorem contained_push (event : Event) (e : Engine κ σ) : Contained su e (e.push event) := by
  unfold push
  split
  · exact (Falls.ok () _).contained
  · exact .of_refusal rfl

theorem contained_inject (event : Event) (e : Engine κ σ) : Contained su e (e.inject event) := by
  unfold inject
  split
  · exact .of_refusal rfl
  · exact contained_push event e

/-! ### Steps -/

variable [Context κ]

/-- A truthful engine leads to truthful ones. -/
theorem Truthful.of_courses (hv : su.model.Validated) (h : Truthful su e) {kinds : List (Move κ)}
    {l : List (Engine κ σ)} (hc : Courses su kinds e l) (hl : Leads e l e') : Truthful su e' := by
  obtain ⟨vs, -, rfl⟩ := hc
  rw [hl.eq_moveAll]
  exact moveAll_induction h fun v _ _ hx => hx.move hv v

/-- A step fails only beyond the limit of a stabilization, which shuts the engine down. -/
theorem falls_step (hv : su.model.Validated) (h : Truthful su e) : Falls su (step su e) := by
  intro err herr
  have hp : e.phase ≠ .stopped := by
    simp [stabilizing_of_step_error hv h herr]
  have hs := steps_of_truthful hv h hp
  generalize step su e = r at hs herr
  cases hs with
  | limit _ ht =>
    cases herr
    refine ⟨rfl, down_shutdown hv ?_⟩
    exact ((ht.truthful h).legal_acted hv fun hstopped => hp (ht.phase ▸ hstopped)).1
  | _ => cases herr

theorem falls_stabilizeFrom (hv : su.model.Validated) (h : Truthful su e) (n : Nat) :
    Falls su (stabilizeFrom su e n) := by
  fun_induction stabilizeFrom su e n with
  | case1 e n hp err e' hs => exact (falls_step hv h).of_error hs
  | case2 e n hp outcome e' hs ih =>
    have hnext := h.step hv
    rw [hs] at hnext
    exact ih hnext
  | case3 e n hp => exact .ok n e

theorem falls_settle (hv : su.model.Validated) (h : Truthful su e) : Falls su (settle su e) := by
  have hfirst : Falls su (if e.phase = .processing then step su e else (.ok .idle, e)) ∧
      Truthful su (if e.phase = .processing then step su e else (.ok .idle, e)).2 := by
    split
    · exact ⟨falls_step hv h, h.step hv⟩
    · exact ⟨.ok _ e, h⟩
  unfold settle
  split
  · next hs => exact hfirst.1.of_error hs
  · next hs =>
    rw [hs] at hfirst
    have hrest := falls_stabilizeFrom hv hfirst.2 0
    split
    · next hr => exact hrest.of_error hr
    · exact .ok () _

theorem falls_round (hv : su.model.Validated) (h : Truthful su e)
    (closes : List Configuration → Bool) (seen : List Configuration) (shown : Nat) :
    Falls su ((round su closes seen shown e).2.result, (round su closes seen shown e).2.engine) := by
  unfold round
  split
  · next hs => exact (falls_settle hv h).of_error hs
  · dsimp only
    split
    · exact .ok () _
    · split
      · exact .ok () _
      · split <;> exact .ok () _

theorem Truthful.round (hv : su.model.Validated) (h : Truthful su e)
    (closes : List Configuration → Bool) (seen : List Configuration) (shown : Nat) :
    Truthful su (round su closes seen shown e).2.engine := by
  obtain ⟨v, -, hmove⟩ := exists_move_round su closes seen shown e
  rw [← hmove]
  exact (h.of_courses hv (courses_settleTrail su e) (leads_settleTrail su e)).move hv v

theorem falls_runFrom (hv : su.model.Validated) (h : Truthful su e)
    (closes : List Configuration → Bool) (seen : List Configuration) (shown : Nat) :
    Falls su ((runFrom su closes seen shown e).result, (runFrom su closes seen shown e).engine) := by
  fun_induction runFrom su closes seen shown e with
  | case1 seen shown e r hr ih =>
    have hnext := h.round hv closes seen shown
    rw [hr] at hnext
    exact ih hnext
  | case2 seen shown e r hr =>
    have hround := falls_round hv h closes seen shown
    rwa [hr] at hround

/-! ### Actions -/

theorem contained_start (hv : su.model.Validated) (e : Engine κ σ) :
    Contained su e (start su e) := by
  unfold start
  split
  · exact .of_refusal rfl
  · refine Falls.contained ?_
    have hentered := truthful_enterInitial (e := e.reset) hv rfl
    split
    · next he =>
      rw [enterInitial_eq hv] at he
      cases he
    · next he =>
      rw [he] at hentered
      have hrest := falls_stabilizeFrom hv hentered 0
      split
      · next hr => exact hrest.of_error hr
      · exact .ok () _

theorem contained_stop (hv : su.model.Validated) (h : Truthful su e) :
    Contained su e (stop su e) := by
  unfold stop
  split
  · exact .of_refusal rfl
  · refine Falls.contained ?_
    split
    · next hs => exact (falls_settle hv h).of_error hs
    · exact .ok () _

theorem contained_processNext (hv : su.model.Validated) (h : Truthful su e) :
    Contained su e (processNext su e) := by
  unfold processNext
  split
  · exact .of_refusal rfl
  · refine Falls.contained ?_
    split
    · next ht => exact (falls_step hv h).of_error ht
    · next ht =>
      have htaken := h.step hv
      rw [ht] at htaken
      split
      · next hs => exact (falls_step hv htaken).of_error hs
      · next hs =>
        have hprocessed := htaken.step hv
        rw [hs] at hprocessed
        have hrest := falls_stabilizeFrom hv hprocessed 0
        split
        · next hr => exact hrest.of_error hr
        · exact .ok true _
    · exact .ok false _

theorem contained_run (hv : su.model.Validated) (h : Truthful su e)
    (closes : List Configuration → Bool) :
    Contained su e ((run su closes e).result, (run su closes e).engine) := by
  unfold run
  split
  · exact .of_refusal rfl
  · exact (falls_runFrom hv h closes [] e.stats.configurations).contained

omit [Context κ] in
theorem Contained.answer {r : Except Error α × Engine κ σ} (h : Contained su e r)
    (herr : failure? r.1 = some err) :
    err.isRefusal = true ∧ r.2 = e ∨ err.isRefusal = false ∧ Down su r.2 := by
  refine h err ?_
  obtain ⟨answer, e'⟩ := r
  cases answer <;> cases herr
  rfl

/-- An action that fails is refused and changes nothing, or leaves the engine down. -/
theorem contained_perform (hv : su.model.Validated) (h : Truthful su e) {a : Action κ}
    (herr : (perform su e a).1 = some err) :
    err.isRefusal = true ∧ (perform su e a).2 = e ∨
      err.isRefusal = false ∧ Down su (perform su e a).2 := by
  cases a with
  | start => exact (contained_start hv e).answer herr
  | stop => exact (contained_stop hv h).answer herr
  | step => exact (falls_step hv h).contained.answer herr
  | stabilize => exact (falls_stabilizeFrom hv h 0).contained.answer herr
  | processNext => exact (contained_processNext hv h).answer herr
  | run closes => exact (contained_run hv h closes).answer herr
  | inject event => exact (contained_inject event e).answer herr
  | push event => exact (contained_push event e).answer herr
  | closeQueue | reopenQueue | writeContext => cases herr

/-- In every engine that a session leads to, an action that is refused leaves everything as it was,
and one that fails otherwise leaves the engine stopped, with both queues empty and the external one
closed, and with a legal configuration. -/
theorem failures_contained (hv : su.model.Validated) (context : κ) (memory : σ) :
    ∃ e, create su context memory = .ok e ∧ ∀ actions : List (Action κ),
      ∀ x, x ∈ sessionTrail su e actions ∨ x = performAll su e actions →
        ∀ a err, (perform su x a).1 = some err →
          (err.isRefusal = true → (perform su x a).2 = x) ∧
            (err.isRefusal = false → Down su (perform su x a).2) := by
  refine ⟨fresh context memory, create_eq hv context memory, fun actions x hx a err herr => ?_⟩
  have ht : Truthful su x :=
    session_induction hx (truthful_fresh context memory) fun v _ x h => h.move hv v
  rcases contained_perform hv ht herr with ⟨hr, heq⟩ | ⟨hr, hdown⟩
  · exact ⟨fun _ => heq, fun hr' => by simp [hr] at hr'⟩
  · exact ⟨fun hr' => by simp [hr] at hr', fun _ => hdown⟩

/-- Two microsteps follow a start of the chart that goes on by itself, which is one too many. -/
theorem start_cascading :
    (start (cascadingSetup 1) blank).1 = .error (.stabilizationLimit 1) := by
  have hentered : enterInitial (cascadingSetup 1) blank.reset = (.ok (), cascadingStart) :=
    Prod.ext (by decide +kernel) rfl
  have hfirst : (step (cascadingSetup 1) cascadingStart).1 = .ok (.microstep none 1) := by
    decide +kernel
  have hsecond : (step (cascadingSetup 1) (step (cascadingSetup 1) cascadingStart).2).1 =
      .error (.stabilizationLimit 1) := by with_unfolding_all rfl
  have hstopped : blank.phase = .stopped := rfl
  rw [start, if_neg (not_not.2 hstopped), hentered]
  dsimp only
  rw [stabilize, stabilizeFrom_of_ok (by decide +kernel) hfirst,
    stabilizeFrom_of_error (by decide +kernel) hsecond]

/-- Starting that chart brings the engine down, and what is then sent to it is refused. -/
theorem failures_contained_cascading :
    Down (cascadingSetup 1) (perform (cascadingSetup 1) blank .start).2 ∧
      ∀ event, (perform (cascadingSetup 1) (perform (cascadingSetup 1) blank .start).2
          (.inject event)).2 = (perform (cascadingSetup 1) blank .start).2 := by
  obtain ⟨e, hcreate, h⟩ :=
    failures_contained (validated_cascadingSetup 1) Scope.empty Cache.empty
  rw [create_eq (validated_cascadingSetup 1)] at hcreate
  cases hcreate
  have hfailed : (perform (cascadingSetup 1) blank .start).1 = some (.stabilizationLimit 1) := by
    rw [perform, start_cascading]
    rfl
  have hdown := (h [] blank (.inr rfl) .start _ hfailed).2 rfl
  refine ⟨hdown, fun event => ?_⟩
  have hrefused : ∀ x : Engine Scope Cache, x.phase = .stopped →
      (perform (cascadingSetup 1) x (.inject event)).1 = some (.refused .inject .stopped) := by
    intro x hp
    simp [perform, inject, hp, failure?]
  exact (h [.start] _ (.inr rfl) (.inject event) _ (hrefused _ hdown.phase)).1 rfl

end Engine

end Statechart
