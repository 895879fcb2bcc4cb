import Statechart.Proofs.Engine.Completion
import Statechart.Proofs.Engine.Course
import Statechart.Proofs.Engine.Soundness
import Statechart.Proofs.Engine.Stepping

/-!
# How the parts of an engine fit together

The phase of an engine, its two queues, the event in flight, the flag that tells whether the chart
has halted, and the configuration that it shows depend on each other.

* `Configuration.AtEnd`: a final child of the root is active; `Legal.exists_eq_singleton`: then no
  other state is;
* `Engine.Truthful`: a running engine shows a legal configuration, and the flag tells whether it is
  at its end.  Every move keeps this (`Truthful.move`);
* `Engine.Orderly`: where events can wait in each phase.  Every move but the reopening of the queue
  keeps this (`Orderly.move`);
* `Engine.session_coherent`: both hold throughout a session in which the queue is not reopened.
-/

namespace Statechart

/-! ### Configurations at their end -/

namespace Configuration

open Model

variable {m : Model} {c : Configuration} {entered : NodeSet} {ts : List Nat}

/-- A final child of the root is active. -/
def AtEnd (m : Model) (c : Configuration) : Prop :=
  ∃ f ∈ c.states, m.isFinal f ∧ (m.parent? f).any m.isRoot

theorem reachesEnd_iff (hsub : ∀ s ∈ entered, s ∈ c.states) :
    c.reachesEnd m entered.toList ↔ ∃ f ∈ entered, m.isFinal f ∧ (m.parent? f).any m.isRoot := by
  rw [reachesEnd, List.any_eq_true]
  simp only [mem_finalsEntered hsub, and_assoc]

/-- If no final child of the root has been active, one is active exactly if one has been entered. -/
theorem reachesEnd_take_iff (h : ¬ c.AtEnd m) :
    (c.take m ts).reachesEnd m (m.entrySet ts).toList ↔ (c.take m ts).AtEnd m := by
  rw [reachesEnd_iff fun s hs => mem_take.2 (.inr (mem_entrySet.1 hs))]
  constructor
  · rintro ⟨f, hf, hend⟩
    exact ⟨f, mem_take.2 (.inr (mem_entrySet.1 hf)), hend⟩
  · rintro ⟨f, hf, hend⟩
    rcases mem_take.1 hf with ⟨hfc, -⟩ | hf
    · exact absurd ⟨f, hfc, hend⟩ h
    · exact ⟨f, mem_entrySet.2 hf, hend⟩

/-- At the end of a chart one state is active. -/
theorem Legal.exists_eq_singleton (hv : m.Validated) (h : Legal m c) (hend : c.AtEnd m) :
    ∃ f, c.states.toList = [f] := by
  have hm := hv.wellFormed
  obtain ⟨f, hfc, hf, hroot⟩ := hend
  obtain ⟨r, hr, hr0⟩ := (Option.any_eq_true _ _).1 hroot
  obtain rfl : r = 0 := hv.isRoot_iff.1 hr0
  have hf0 : f ∈ m.childStates 0 := hm.mem_childStates.2 ⟨hr, isState_of_isFinal hf⟩
  refine ⟨f, ?_⟩
  rw [h.eq_singleton hv hf0 hfc (hm.childStates_of_isFinal hf)]
  rfl

end Configuration

namespace Engine

open Statechart.Configuration

variable {κ σ : Type} {su : Setup κ σ} {event : Option Event} {e e' y : Engine κ σ}

/-! ### New engines -/

/-- A new engine. -/
def fresh (context : κ) (memory : σ) : Engine κ σ where
  phase := .stopped
  configuration := .empty
  store := ⟨context, memory, [], #[], #[]⟩
  external := ⟨[], true⟩
  current := none
  stats := ⟨0, 0, 0, 0⟩
  settling := 0
  halted := false

theorem create_eq (hv : su.model.Validated) (context : κ) (memory : σ) :
    create su context memory = .ok (fresh context memory) := by
  simp only [create, hv.valid]
  rfl

/-! ### The configuration and the flag -/

/-- A running engine has not halted and shows a legal configuration, and an engine has halted exactly
if the configuration it shows is at its end. -/
structure Truthful (su : Setup κ σ) (e : Engine κ σ) : Prop where
  running : e.phase ≠ .stopped → e.configuration.Legal su.model ∧ e.halted = false
  legal : e.halted = true → e.configuration.Legal su.model
  halted_iff : e.halted = true ↔ e.configuration.AtEnd su.model

theorem Truthful.of_eq (h : Truthful su e) (hc : e'.configuration = e.configuration)
    (hh : e'.halted = e.halted) (hp : e'.phase ≠ .stopped → e.phase ≠ .stopped) :
    Truthful su e' where
  running h' := by
    rw [hc, hh]
    exact h.running (hp h')
  legal h' := by
    rw [hc]
    exact h.legal (hh ▸ h')
  halted_iff := by
    rw [hc, hh]
    exact h.halted_iff

theorem Truthful.not_atEnd (h : Truthful su e) (hp : e.phase ≠ .stopped) :
    ¬ e.configuration.AtEnd su.model := by
  rw [← h.halted_iff, (h.running hp).2]
  exact Bool.false_ne_true

/-- A new engine shows nothing, and has not halted. -/
theorem truthful_fresh (context : κ) (memory : σ) : Truthful su (fresh context memory) where
  running hp := absurd rfl hp
  legal hh := by cases hh
  halted_iff := ⟨fun hh => (by cases hh), fun ⟨f, hf, _⟩ => absurd hf (NodeSet.not_mem_empty f)⟩

theorem truthful_push (h : Truthful su e) (ev : Event) : Truthful su (e.push ev).2 := by
  unfold push
  split
  · exact h.of_eq rfl rfl id
  · exact h

/-! ### The queues and the event in flight -/

/-- Where events can wait: a stopped engine has none and its queue is closed, one is in flight exactly
while it is processed, internal events wait only during a stabilization, and a closed queue is
empty. -/
structure Orderly (e : Engine κ σ) : Prop where
  stopped : e.phase = .stopped →
    e.external = ⟨[], true⟩ ∧ e.store.internal = [] ∧ e.current = none
  inFlight : e.current.isSome ↔ e.phase = .processing
  quiet : e.phase = .waiting ∨ e.phase = .processing → e.store.internal = []
  closed : e.external.closed = true → e.external.events = []

theorem orderly_shutdown (e : Engine κ σ) : Orderly e.shutdown where
  stopped _ := ⟨rfl, rfl, rfl⟩
  inFlight := by simp [shutdown]
  quiet h := by simp at h
  closed _ := rfl

theorem Orderly.to_stabilizing (h : Orderly e) (hp : e'.phase = .stabilizing)
    (hc : e'.current = none) (hx : e'.external = e.external) : Orderly e' where
  stopped h' := by simp [hp] at h'
  inFlight := by simp [hp, hc]
  quiet h' := by simp [hp] at h'
  closed := hx ▸ h.closed

theorem Orderly.to_waiting (h : Orderly e) (hp : e'.phase = .waiting) (hc : e'.current = none)
    (hq : e'.store.internal = []) (hx : e'.external = e.external) : Orderly e' where
  stopped h' := by simp [hp] at h'
  inFlight := by simp [hp, hc]
  quiet _ := hq
  closed := hx ▸ h.closed

theorem Orderly.current_eq_none (h : Orderly e) (hp : e.phase ≠ .processing) :
    e.current = none := by
  rw [ne_eq, ← h.inFlight, Option.not_isSome_iff_eq_none] at hp
  exact hp

/-- The queue may change as long as it is empty when it is closed, as it is while the engine is
stopped. -/
theorem Orderly.with_external (h : Orderly e) {queue : ExternalQueue}
    (hs : e.phase = .stopped → queue = ⟨[], true⟩)
    (hx : queue.closed = true → queue.events = []) : Orderly { e with external := queue } where
  stopped hp := ⟨hs hp, (h.stopped hp).2⟩
  inFlight := h.inFlight
  quiet := h.quiet
  closed := hx

theorem Orderly.push (h : Orderly e) (ev : Event) : Orderly (e.push ev).2 := by
  unfold Engine.push ExternalQueue.push?
  by_cases hc : e.external.closed = true
  · simpa [hc] using h
  · rw [if_neg hc]
    refine h.with_external (fun hp => ?_) fun hc' => absurd hc' hc
    rw [(h.stopped hp).1] at hc
    exact absurd rfl hc

theorem orderly_fresh (context : κ) (memory : σ) : Orderly (fresh context memory) where
  stopped _ := ⟨rfl, rfl, rfl⟩
  inFlight := by simp [fresh]
  quiet h := by simp [fresh] at h
  closed _ := rfl

/-! ### What a move does to the configuration and the flag -/

variable [Context κ]

theorem steps_of_truthful (hv : su.model.Validated) (h : Truthful su e) (hp : e.phase ≠ .stopped) :
    Steps su e (step su e) :=
  steps_step hv (h.running hp).1 (h.running hp).2 hp

theorem Turns.truthful (ht : Turns su e event y) (h : Truthful su e) : Truthful su y :=
  h.of_eq ht.configuration ht.halted fun hp => ht.phase ▸ hp

theorem truthful_prepared (h : Truthful su e) : Truthful su (prepared su event e) :=
  h.of_eq configuration_prepared halted_prepared fun hp => by rwa [phase_prepared] at hp

/-- A microstep that takes transitions leads to a legal configuration, and the flag tells whether it
is at its end. -/
theorem Truthful.legal_acted (hv : su.model.Validated) (h : Truthful su e)
    (hp : e.phase ≠ .stopped) :
    (acted su event e).configuration.Legal su.model ∧
      ((acted su event e).halted = true ↔ (acted su event e).configuration.AtEnd su.model) := by
  obtain ⟨hlegal, hrun⟩ := h.running hp
  rw [configuration_acted, halted_acted, hrun, Bool.false_or]
  exact ⟨legal_take_selected hv hlegal event, reachesEnd_take_iff (h.not_atEnd hp)⟩

/-- Every way through a step keeps this. -/
theorem Truthful.of_steps (hv : su.model.Validated) (h : Truthful su e)
    {r : Except Error Outcome × Engine κ σ} (hs : Steps su e r) : Truthful su r.2 := by
  have hturn : ∀ {event y}, Turns su e event y →
      (acted su event y).configuration.Legal su.model ∧ ((acted su event y).halted = true ↔
        (acted su event y).configuration.AtEnd su.model) := fun ht =>
    (ht.truthful h).legal_acted hv fun hp => ht.running (ht.phase ▸ hp)
  cases hs with
  | close => exact h.of_eq rfl rfl fun hp => absurd rfl hp
  | dequeue hp => exact h.of_eq rfl rfl fun _ => by simp [hp]
  | idle => exact h
  | lose hp => exact h.of_eq rfl rfl fun _ => by simp [hp]
  | @ignore event hp hc =>
    have htaken : Truthful su (prepared su (some event) e.takenUp) :=
      truthful_prepared ((Turns.external hp hc).truthful h)
    exact htaken.of_eq rfl rfl fun _ => by simp [takenUp, hp]
  | respond hp hc _ hh =>
    obtain ⟨hlegal, hend⟩ := hturn (.external hp hc)
    exact ⟨fun _ => ⟨hlegal, hh⟩, fun _ => hlegal, hend⟩
  | settle hp => exact (truthful_prepared h).of_eq rfl rfl fun _ => by simp [hp]
  | skip _ ht => exact truthful_prepared (ht.truthful h)
  | count _ ht _ hh =>
    obtain ⟨hlegal, hend⟩ := hturn ht
    exact ⟨fun _ => ⟨hlegal, hh⟩, fun _ => hlegal, hend⟩
  | limit _ ht =>
    obtain ⟨hlegal, hend⟩ := hturn ht
    exact ⟨fun hp => absurd rfl hp, fun _ => hlegal, hend⟩
  | halt ht =>
    obtain ⟨hlegal, hend⟩ := hturn ht
    exact ⟨fun hp => absurd rfl hp, fun _ => hlegal, hend⟩

theorem Truthful.step (hv : su.model.Validated) (h : Truthful su e) :
    Truthful su (step su e).2 := by
  by_cases hp : e.phase = .stopped
  · have hstep : (Engine.step su e).2 = e := move_step_stopped hp
    rwa [hstep]
  · exact h.of_steps hv (steps_of_truthful hv h hp)

/-- A start enters a legal configuration, and halts exactly if it is at its end. -/
theorem truthful_enterInitial (hv : su.model.Validated) (hh : e.halted = false) :
    Truthful su (enterInitial su e).2 := by
  have hlegal : (entered su e).configuration.Legal su.model := legal_initialDescendants hv
  have hend : (entered su e).halted = true ↔ (entered su e).configuration.AtEnd su.model := by
    have hflag : (entered su e).halted = (e.halted ||
        (entered su e).configuration.reachesEnd su.model
          (entered su e).configuration.states.toList) := rfl
    rw [hflag, hh, Bool.false_or]
    exact reachesEnd_iff fun _ hs => hs
  rw [enterInitial_eq hv]
  dsimp only
  split
  · exact ⟨fun hp => absurd rfl hp, fun _ => hlegal, hend⟩
  · next hrun => exact ⟨fun _ => ⟨hlegal, by simpa using hrun⟩, fun _ => hlegal, hend⟩

/-- Every move keeps this. -/
theorem Truthful.move (hv : su.model.Validated) (h : Truthful su e) (v : Move κ) :
    Truthful su (move su e v) := by
  cases v with
  | enter =>
    simp only [Engine.move]
    split
    · exact truthful_enterInitial hv rfl
    · exact h
  | step => exact h.step hv
  | shutdown =>
    simp only [Engine.move]
    split
    · exact h.of_eq rfl rfl fun hp => absurd rfl hp
    · exact h
  | push ev => exact truthful_push h ev
  | closeQueue => exact h.of_eq rfl rfl id
  | reopenQueue => exact h.of_eq rfl rfl id
  | writeContext change => exact h.of_eq rfl rfl id

/-! ### What a move does to the queues -/

/-- An engine that turns to an event has no other one in flight. -/
theorem Turns.current (ht : Turns su e event y) (h : Orderly e) : y.current = none := by
  cases ht with
  | eventless hp => exact h.current_eq_none (by simp [hp])
  | internal hp => exact current_prepared.trans (h.current_eq_none (by simp [hp]))
  | external => rfl

/-- Every way through a step keeps this. -/
theorem Orderly.of_steps (h : Orderly e) {r : Except Error Outcome × Engine κ σ}
    (hs : Steps su e r) : Orderly r.2 := by
  cases hs with
  | close => exact orderly_shutdown e
  | dequeue hp =>
    exact ⟨fun h' => (by cases h'), by simp [accept], fun _ => h.quiet (.inl hp),
      fun h' => (by cases h')⟩
  | idle => exact h
  | lose hp hc => exact h.to_waiting rfl hc (h.quiet (.inr hp)) rfl
  | ignore hp =>
    exact h.to_waiting rfl current_prepared (internal_prepared.trans (h.quiet (.inr hp)))
      external_prepared
  | @respond event =>
    have hcurrent : (acted su (some event) e.takenUp).current = none := current_acted
    have hexternal : (acted su (some event) e.takenUp).external = e.external := external_acted
    exact h.to_stabilizing rfl hcurrent hexternal
  | settle hp _ hq =>
    exact h.to_waiting rfl (current_prepared.trans (h.current_eq_none (by simp [hp])))
      (internal_prepared.trans hq) external_prepared
  | skip hp ht =>
    exact h.to_stabilizing (phase_prepared.trans (ht.phase.trans hp))
      (current_prepared.trans (ht.current h)) (external_prepared.trans ht.external_eq)
  | @count event y hp ht =>
    have hphase : (acted su event y).phase = .stabilizing := phase_acted.trans (ht.phase.trans hp)
    have hcurrent : (acted su event y).current = none := current_acted.trans (ht.current h)
    have hexternal : (acted su event y).external = e.external :=
      external_acted.trans ht.external_eq
    exact h.to_stabilizing hphase hcurrent hexternal
  | limit => exact orderly_shutdown _
  | halt => exact orderly_shutdown _

theorem Orderly.step (hv : su.model.Validated) (h : Orderly e) (ht : Truthful su e) :
    Orderly (step su e).2 := by
  by_cases hp : e.phase = .stopped
  · have hstep : (Engine.step su e).2 = e := move_step_stopped hp
    rwa [hstep]
  · exact h.of_steps (steps_of_truthful hv ht hp)

theorem orderly_enterInitial (hv : su.model.Validated) (e : Engine κ σ) :
    Orderly (enterInitial su e.reset).2 := by
  rw [enterInitial_eq hv]
  dsimp only
  split
  · exact orderly_shutdown _
  · exact ⟨by simp, by simp; rfl, by simp, fun h => by cases h⟩

/-- Every move but the reopening of the queue keeps this. -/
theorem Orderly.move (hv : su.model.Validated) (h : Orderly e) (ht : Truthful su e) {v : Move κ}
    (hne : v ≠ .reopenQueue) : Orderly (move su e v) := by
  cases v with
  | enter =>
    simp only [Engine.move]
    split
    · exact orderly_enterInitial hv e
    · exact h
  | step => exact h.step hv ht
  | shutdown =>
    simp only [Engine.move]
    split
    · exact orderly_shutdown e
    · exact h
  | push ev => exact h.push ev
  | closeQueue => exact h.with_external (fun _ => rfl) fun _ => rfl
  | reopenQueue => exact absurd rfl hne
  | writeContext change => exact ⟨h.stopped, h.inFlight, h.quiet, h.closed⟩

/-- An engine that processes an event is not idle. -/
theorem Orderly.step_ne_idle (hv : su.model.Validated) (h : Orderly e) (ht : Truthful su e)
    (hp : e.phase = .processing) : (Engine.step su e).1 ≠ .ok .idle := by
  have hs := steps_of_truthful hv ht (by simp [hp])
  intro hidle
  generalize Engine.step su e = r at hs hidle
  cases hs with
  | idle hp' => simp [hp] at hp'
  | lose _ hc =>
    have := h.inFlight.2 hp
    simp [hc] at this
  | _ => cases hidle

/-! ### Sessions -/

omit [Context κ] in
theorem reopenQueue_mem_movesOf {actions : List (Action κ)} :
    Move.reopenQueue ∈ movesOf actions ↔ Action.reopenQueue ∈ actions := by
  rw [movesOf, List.mem_flatMap]
  constructor
  · rintro ⟨a, ha, hmem⟩
    cases a <;> simp_all [Action.moves]
  · exact fun h => ⟨_, h, List.mem_singleton.2 rfl⟩

/-- Throughout a session in which the queue is not reopened, a stopped engine has no event waiting
and its queue is closed; an event is in flight exactly while it is processed, which is never idle;
internal events wait only during a stabilization; a closed queue is empty; a running engine shows a
legal configuration and has not halted; and an engine has halted exactly if a final child of the root
is active, which is then the only active state, and the engine has stopped. -/
theorem session_coherent (hv : su.model.Validated) (context : κ) (memory : σ) :
    ∃ e, create su context memory = .ok e ∧ ∀ actions : List (Action κ),
      .reopenQueue ∉ actions →
        ∀ x, x ∈ sessionTrail su e actions ∨ x = performAll su e actions →
          Orderly x ∧ (x.phase = .processing → (Engine.step su x).1 ≠ .ok .idle) ∧
            (x.phase ≠ .stopped → x.configuration.isLegal su.model ∧ x.halted = false) ∧
            (x.halted = true ↔ x.configuration.AtEnd su.model) ∧
            (x.halted = true → x.phase = .stopped ∧ ∃ f, x.configuration.states.toList = [f]) := by
  refine ⟨fresh context memory, create_eq hv context memory, fun actions hreopen x hx => ?_⟩
  obtain ⟨ht, ho⟩ : Truthful su x ∧ Orderly x := by
    apply session_induction (P := fun x => Truthful su x ∧ Orderly x) hx
    · exact ⟨truthful_fresh context memory, orderly_fresh context memory⟩
    · intro v hv' x h
      refine ⟨h.1.move hv v, h.2.move hv h.1 ?_⟩
      rintro rfl
      exact hreopen (reopenQueue_mem_movesOf.1 hv')
  refine ⟨ho, ho.step_ne_idle hv ht, fun hp => ?_, ht.halted_iff, fun hh => ⟨?_, ?_⟩⟩
  · obtain ⟨hlegal, hrun⟩ := ht.running hp
    exact ⟨(isLegal_iff hv).2 hlegal, hrun⟩
  · by_contra hp
    rw [(ht.running hp).2] at hh
    cases hh
  · exact (ht.legal hh).exists_eq_singleton hv (ht.halted_iff.1 hh)

end Engine

/-! ### A chart that ends -/

namespace Model

/-- The state `a` gives way to the final state `f` on `go`. -/
def ending : Model where
  nodes := #[
    ⟨none, .scxml none, none, [1, 3]⟩,
    ⟨some "a", .state none, some 0, [2]⟩,
    ⟨none, .transition ⟨[⟨"go"⟩], none, ["f"], .external⟩, some 1, []⟩,
    ⟨some "f", .final, some 0, []⟩]
  root? := some 0
  index := [("a", 1), ("f", 3)]
  transitions := [2]

theorem addAll?_ending :
    empty.addAll? (ending.nodes.toList.map fun n => (⟨n.id, n.kind⟩, n.parent)) = some ending := by
  decide +kernel

theorem validated_ending : ending.Validated where
  built := Built.empty.addAll? addAll?_ending
  valid := by decide +kernel

end Model

namespace Engine

/-- An engine over a chart that ends on `go`. -/
def endingSetup : Setup Scope Cache := ⟨Model.ending, .default, .standard Scope⟩

theorem validated_endingSetup : endingSetup.model.Validated := Model.validated_ending

/-- A new engine without variables. -/
def blank : Engine Scope Cache := fresh .empty .empty

/-- The chart ends with a second event still waiting. -/
def endingSession : List (Action Scope) :=
  [.start, .inject (.external "go"), .inject (.external "late"), .processNext, .closeQueue]

/-- A started engine with both events in its queue. -/
def endingQueued (e : Engine Scope Cache) : Engine Scope Cache :=
  performAll endingSetup (started endingSetup e)
    [.inject (.external "go"), .inject (.external "late")]

/-- The first event is taken and processed, and the chart has ended. -/
def ended (e : Engine Scope Cache) : Engine Scope Cache :=
  (next endingSetup (next endingSetup (endingQueued e))).closeQueue

theorem performAll_endingSession {e : Engine Scope Cache} (hstart : StartsAtOnce endingSetup e)
    (hwaiting : (endingQueued e).phase = .waiting)
    (htaken : (step endingSetup (endingQueued e)).1 = .ok (.dequeued "go"))
    (hdone : (step endingSetup (next endingSetup (endingQueued e))).1 = .ok .halted)
    (hstopped : (ended e).phase = .stopped) :
    performAll endingSetup e endingSession = ended e := by
  have hne : (next endingSetup (next endingSetup (endingQueued e))).phase ≠ .stabilizing := by
    show (ended e).phase ≠ .stabilizing
    rw [hstopped]
    exact Phase.noConfusion
  have hprocessed : (perform endingSetup (endingQueued e) .processNext).2 =
      next endingSetup (next endingSetup (endingQueued e)) :=
    congrArg Prod.snd (processNext_of_stabilize hwaiting htaken hdone (stabilize_of_ne hne))
  rw [endingSession, hstart.performAll, ended, ← hprocessed]
  rfl

theorem startsAtOnce_ending : StartsAtOnce endingSetup blank := by decide +kernel

theorem performAll_endingSession_blank :
    performAll endingSetup blank endingSession = ended blank :=
  performAll_endingSession startsAtOnce_ending (by decide +kernel) (by decide +kernel)
    (by decide +kernel) (by decide +kernel)

theorem session_coherent_ending :
    .reopenQueue ∉ endingSession ∧ (performAll endingSetup blank endingSession).halted = true ∧
      Orderly (performAll endingSetup blank endingSession) ∧
      (performAll endingSetup blank endingSession).configuration.AtEnd Model.ending ∧
      (performAll endingSetup blank endingSession).phase = .stopped ∧
      ∃ f, (performAll endingSetup blank endingSession).configuration.states.toList = [f] := by
  have hreopen : .reopenQueue ∉ endingSession := by simp [endingSession]
  have hhalted : (performAll endingSetup blank endingSession).halted = true := by
    rw [performAll_endingSession_blank]
    decide +kernel
  obtain ⟨e, hcreate, h⟩ := session_coherent validated_endingSetup Scope.empty Cache.empty
  rw [create_eq validated_endingSetup] at hcreate
  cases hcreate
  obtain ⟨hqueues, -, -, hend, hlast⟩ := h endingSession hreopen _ (.inr rfl)
  exact ⟨hreopen, hhalted, hqueues, hend.1 hhalted, hlast hhalted⟩

end Engine

end Statechart
