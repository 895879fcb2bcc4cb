import Statechart.Proofs.Engine.Microstep

/-!
# What a step does

One step of the run loop of an engine that shows a legal configuration, branch by branch.

* `Engine.Turns`: the event that an engine turns to next, if it takes a microstep at all;
* `Engine.acted`: the engine after a microstep that takes transitions;
* `Engine.Steps`: everything that a step can do, one constructor for each way through it;
* `Engine.steps_step`: a step does one of these things.
-/

namespace Statechart.Engine

variable {κ σ : Type} [Context κ] {su : Setup κ σ} {event : Option Event} {e y : Engine κ σ}

/-! ### What a microstep leaves alone -/

omit [Context κ] in
theorem internal_selectTransitions :
    (selectTransitions su event e).2.store.internal = e.store.internal := rfl

theorem internal_expose : (expose su event e).store.internal = e.store.internal := by
  unfold expose
  split
  · split <;> rfl
  · rfl

@[simp] theorem internal_prepared :
    (prepared su event e).store.internal = e.store.internal := by
  rw [prepared, internal_selectTransitions, internal_expose]

@[simp] theorem external_prepared : (prepared su event e).external = e.external := by
  rw [prepared_eq]

@[simp] theorem current_prepared : (prepared su event e).current = e.current := by
  rw [prepared_eq]

@[simp] theorem settling_prepared : (prepared su event e).settling = e.settling := by
  rw [prepared_eq]

@[simp] theorem halted_prepared : (prepared su event e).halted = e.halted := by
  rw [prepared_eq]

/-- The engine after a microstep that takes what its event selects. -/
def acted (su : Setup κ σ) (event : Option Event) (e : Engine κ σ) : Engine κ σ :=
  advance su (selected su event e) (prepared su event e)

@[simp] theorem phase_acted : (acted su event e).phase = e.phase := phase_prepared

@[simp] theorem external_acted : (acted su event e).external = e.external := external_prepared

@[simp] theorem current_acted : (acted su event e).current = e.current := current_prepared

@[simp] theorem settling_acted : (acted su event e).settling = e.settling := settling_prepared

@[simp] theorem configuration_acted : (acted su event e).configuration =
    e.configuration.take su.model (selected su event e) := by
  rw [acted, configuration_advance, configuration_prepared]

@[simp] theorem microsteps_acted :
    (acted su event e).stats.microsteps = e.stats.microsteps + 1 :=
  congrArg (·.microsteps + 1) stats_prepared

theorem halted_acted : (acted su event e).halted = (e.halted ||
    (e.configuration.take su.model (selected su event e)).reachesEnd su.model
      (su.model.entrySet (selected su event e)).toList) := by
  have h : (acted su event e).halted = ((prepared su event e).halted ||
      (acted su event e).configuration.reachesEnd su.model
        (su.model.entrySet (selected su event e)).toList) := rfl
  rw [h, halted_prepared, configuration_acted]

/-! ### What an engine turns to -/

/-- The engine when its oldest internal event has been consumed. -/
def consumed (rest : List Event) (e : Engine κ σ) : Engine κ σ :=
  { e with
    store := { e.store with internal := rest }
    stats := { e.stats with internalEvents := e.stats.internalEvents + 1 } }

/-- The engine when the event in flight has been taken up. -/
def takenUp (e : Engine κ σ) : Engine κ σ :=
  { e with
    current := none
    stats := { e.stats with macrosteps := e.stats.macrosteps + 1 } }

/-- The event for which an engine takes its next microstep, and the engine as it takes it: a
stabilizing engine turns to its oldest internal event only if nothing is selected without an event. -/
inductive Turns (su : Setup κ σ) (e : Engine κ σ) : Option Event → Engine κ σ → Prop
  | eventless (hp : e.phase = .stabilizing) (hs : selected su none e ≠ []) : Turns su e none e
  | internal {event : Event} {rest : List Event} (hp : e.phase = .stabilizing)
      (hs : selected su none e = []) (hq : e.store.internal = event :: rest) :
      Turns su e (some event) (consumed rest (prepared su none e))
  | external {event : Event} (hp : e.phase = .processing) (hc : e.current = some event) :
      Turns su e (some event) e.takenUp

namespace Turns

variable (h : Turns su e event y)
include h

theorem phase : y.phase = e.phase := by
  cases h with
  | eventless => rfl
  | internal => exact phase_prepared
  | external => rfl

theorem configuration : y.configuration = e.configuration := by
  cases h with
  | eventless => rfl
  | internal => exact configuration_prepared
  | external => rfl

theorem external_eq : y.external = e.external := by
  cases h with
  | eventless => rfl
  | internal => exact external_prepared
  | external => rfl

theorem settling : y.settling = e.settling := by
  cases h with
  | eventless => rfl
  | internal => exact settling_prepared
  | external => rfl

theorem halted : y.halted = e.halted := by
  cases h with
  | eventless => rfl
  | internal => exact halted_prepared
  | external => rfl

theorem microsteps : y.stats.microsteps = e.stats.microsteps := by
  cases h with
  | eventless => rfl
  | internal =>
    have hstats : (prepared su none e).stats = e.stats := stats_prepared
    exact congrArg (·.microsteps) hstats
  | external => rfl

theorem running : e.phase ≠ .stopped := by
  cases h with
  | eventless hp => simp [hp]
  | internal hp => simp [hp]
  | external hp => simp [hp]

end Turns

/-! ### The ways through a step -/

/-- What a step of a running engine can do, and what it then answers. -/
inductive Steps (su : Setup κ σ) (e : Engine κ σ) : Except Error Outcome × Engine κ σ → Prop
  /-- The external queue has been closed. -/
  | close (hp : e.phase = .waiting) (hc : e.external.closed = true) :
      Steps su e (.ok .stopped, e.shutdown)
  /-- The oldest external event is taken. -/
  | dequeue {event : Event} {rest : List Event} (hp : e.phase = .waiting)
      (hq : e.external = ⟨event :: rest, false⟩) :
      Steps su e (.ok (.dequeued event.name), e.accept event ⟨rest, false⟩)
  /-- There is no external event. -/
  | idle (hp : e.phase = .waiting) (hq : e.external = ⟨[], false⟩) : Steps su e (.ok .idle, e)
  /-- There is no event in flight. -/
  | lose (hp : e.phase = .processing) (hc : e.current = none) :
      Steps su e (.ok .idle, { e with phase := .waiting })
  /-- The event in flight selects nothing. -/
  | ignore {event : Event} (hp : e.phase = .processing) (hc : e.current = some event)
      (hs : selected su (some event) e.takenUp = []) :
      Steps su e (.ok (.microstep (some event.name) 0),
        { prepared su (some event) e.takenUp with settling := 0, phase := .waiting })
  /-- The event in flight leads to a stabilization. -/
  | respond {event : Event} (hp : e.phase = .processing) (hc : e.current = some event)
      (hs : selected su (some event) e.takenUp ≠ [])
      (hh : (acted su (some event) e.takenUp).halted = false) :
      Steps su e
        (.ok (.microstep (some event.name) (selected su (some event) e.takenUp).length),
          { acted su (some event) e.takenUp with settling := 0, phase := .stabilizing })
  /-- Nothing is left to do in a stabilization. -/
  | settle (hp : e.phase = .stabilizing) (hs : selected su none e = [])
      (hq : e.store.internal = []) :
      Steps su e (.ok .settled, { prepared su none e with phase := .waiting })
  /-- An internal event selects nothing. -/
  | skip {event : Event} {y : Engine κ σ} (hp : e.phase = .stabilizing)
      (ht : Turns su e (some event) y)
      (hs : selected su (some event) y = []) :
      Steps su e (.ok (.microstep (some event.name) 0), prepared su (some event) y)
  /-- A microstep of a stabilization within its limit. -/
  | count {event : Option Event} {y : Engine κ σ} (hp : e.phase = .stabilizing)
      (ht : Turns su e event y) (hs : selected su event y ≠ [])
      (hh : (acted su event y).halted = false) (hl : e.settling < su.options.maxMicrosteps) :
      Steps su e
        (.ok (.microstep (event.map (·.name)) (selected su event y).length),
          { acted su event y with settling := e.settling + 1 })
  /-- A microstep of a stabilization beyond its limit. -/
  | limit {event : Option Event} {y : Engine κ σ} (hp : e.phase = .stabilizing)
      (ht : Turns su e event y) (hs : selected su event y ≠ [])
      (hh : (acted su event y).halted = false) (hl : su.options.maxMicrosteps ≤ e.settling) :
      Steps su e (.error (.stabilizationLimit su.options.maxMicrosteps),
        { acted su event y with settling := e.settling + 1 }.shutdown)
  /-- A microstep that reaches a final child of the root. -/
  | halt {event : Option Event} {y : Engine κ σ} (ht : Turns su e event y)
      (hs : selected su event y ≠ [])
      (hh : (acted su event y).halted = true) :
      Steps su e (.ok .halted, (acted su event y).shutdown)

/-! ### A step does one of these things -/

/-- From a legal configuration, a guarded microstep is a selection of nothing or takes what is
selected. -/
theorem guardedMicrostep_cases (hv : su.model.Validated) (h : e.configuration.Legal su.model)
    (event : Option Event) :
    (selected su event e = [] ∧ guardedMicrostep su event e = (.ok 0, prepared su event e)) ∨
      (selected su event e ≠ [] ∧
        guardedMicrostep su event e = (.ok (selected su event e).length, acted su event e)) := by
  rcases microstep_cases hv h event with ⟨hs, hm⟩ | ⟨hs, hm⟩
  · exact .inl ⟨hs, by rw [guardedMicrostep, hm]⟩
  · exact .inr ⟨hs, by rw [guardedMicrostep, hm]; rfl⟩

/-- A microstep of a stabilization that takes transitions is counted, or is the last one. -/
theorem steps_of_turns (ht : Turns su e event y) (hp : e.phase = .stabilizing)
    (hs : selected su event y ≠ []) :
    Steps su e (afterMicrostep su (event.map (·.name)) (selected su event y).length
      (acted su event y)) := by
  have hpos : 0 < (selected su event y).length := List.length_pos_iff.2 hs
  have hset : (acted su event y).settling = e.settling := settling_acted.trans ht.settling
  unfold afterMicrostep
  split
  · next hh => exact .halt ht hs hh
  · next hh =>
    rw [Bool.not_eq_true] at hh
    dsimp only
    rw [hset]
    split
    · next hl => exact .limit hp ht hs hh (by omega)
    · next hl => exact .count hp ht hs hh (by omega)

theorem steps_consume (hv : su.model.Validated) (h : e.configuration.Legal su.model)
    (hh : e.halted = false) (hp : e.phase = .stabilizing) (hs : selected su none e = []) :
    Steps su e (consume su (prepared su none e)) := by
  unfold consume
  split
  · next hq => exact .settle hp hs (internal_prepared.symm.trans hq)
  · next event rest hq =>
    have ht : Turns su e (some event) (consumed rest (prepared su none e)) :=
      .internal hp hs (internal_prepared.symm.trans hq)
    have hlegal : (consumed rest (prepared su none e)).configuration.Legal su.model := by
      rwa [ht.configuration]
    dsimp only
    rcases guardedMicrostep_cases hv hlegal (some event) with ⟨hs', hm⟩ | ⟨hs', hm⟩
    · have hrest : afterMicrostep su (some event.name) 0
          (prepared su (some event) (consumed rest (prepared su none e))) =
          (.ok (.microstep (some event.name) 0),
            prepared su (some event) (consumed rest (prepared su none e))) := by
        simp [afterMicrostep, ht.halted, hh]
      rw [← consumed, hm]
      dsimp only
      rw [hrest]
      exact .skip hp ht hs'
    · rw [← consumed, hm]
      exact steps_of_turns ht hp hs'

theorem steps_stabilizeOnce (hv : su.model.Validated) (h : e.configuration.Legal su.model)
    (hh : e.halted = false) (hp : e.phase = .stabilizing) : Steps su e (stabilizeOnce su e) := by
  unfold stabilizeOnce
  rcases guardedMicrostep_cases hv h none with ⟨hs, hm⟩ | ⟨hs, hm⟩
  · rw [hm]
    exact steps_consume hv h hh hp hs
  · rw [hm]
    dsimp only
    rw [if_pos (List.length_pos_iff.2 hs)]
    exact steps_of_turns (.eventless hp hs) hp hs

theorem steps_await (hp : e.phase = .waiting) : Steps su e e.await := by
  unfold await ExternalQueue.pop
  split
  · next hc => exact .close hp hc
  · next hc =>
    rw [Bool.not_eq_true] at hc
    have hx : ∀ events, e.external.events = events → e.external = ⟨events, false⟩ := by
      rintro _ rfl
      rw [← hc]
    rw [hc]
    cases hq : e.external.events with
    | nil => exact .idle hp (hx _ hq)
    | cons event rest => exact .dequeue hp (hx _ hq)

theorem steps_processCurrent (hv : su.model.Validated) (h : e.configuration.Legal su.model)
    (hh : e.halted = false) (hp : e.phase = .processing) : Steps su e (processCurrent su e) := by
  unfold processCurrent
  split
  · next hc => exact .lose hp hc
  · next event hc =>
    dsimp only
    rw [← takenUp]
    have ht : Turns su e (some event) e.takenUp := .external hp hc
    rcases guardedMicrostep_cases hv (e := e.takenUp) h (some event) with ⟨hs, hm⟩ | ⟨hs, hm⟩
    · rw [hm]
      have hrun : (prepared su (some event) e.takenUp).halted = false :=
        halted_prepared.trans (ht.halted.trans hh)
      dsimp only
      rw [if_neg (ne_true_of_eq_false hrun)]
      exact .ignore hp hc hs
    · rw [hm]
      dsimp only
      split
      · next hh' => exact .halt ht hs hh'
      · next hh' =>
        rw [Bool.not_eq_true] at hh'
        rw [if_pos (List.length_pos_iff.2 hs)]
        exact .respond hp hc hs hh'

/-- A step of an engine that runs with a legal configuration, and has not halted, does one of these
things. -/
theorem steps_step (hv : su.model.Validated) (h : e.configuration.Legal su.model)
    (hh : e.halted = false) (hp : e.phase ≠ .stopped) : Steps su e (step su e) := by
  unfold step
  split
  · contradiction
  · next hp => exact steps_stabilizeOnce hv h hh hp
  · next hp => exact steps_await hp
  · next hp => exact steps_processCurrent hv h hh hp

end Statechart.Engine
