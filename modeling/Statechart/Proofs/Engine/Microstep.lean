import Statechart.Engine.Run
import Statechart.Proofs.Configuration.Selection

/-!
# Microsteps and starts

A microstep first prepares the engine, which makes the event visible and selects transitions, and
then takes what it has selected.  A start enters the initial configuration.

* `Engine.selected`, `Engine.prepared`, `Engine.advance`: the parts of a microstep;
* `Engine.microstep_eq`: how it is put together;
* `Engine.legal_take_selected`, `Engine.microstep_cases`: from a legal configuration a microstep
  leads to a legal one and never fails;
* `Engine.enterInitial_eq`: nor does a start.
-/

namespace Statechart.Engine

variable {κ σ : Type} [Context κ] {su : Setup κ σ} {event : Option Event} {e e' : Engine κ σ}
  {n : Nat}

/-- The transitions that a microstep takes. -/
def selected (su : Setup κ σ) (event : Option Event) (e : Engine κ σ) : List Nat :=
  (selectTransitions su event (expose su event e)).1

/-- The engine when they have been selected. -/
def prepared (su : Setup κ σ) (event : Option Event) (e : Engine κ σ) : Engine κ σ :=
  (selectTransitions su event (expose su event e)).2

/-- The engine after the content of some transitions has run. -/
def executed (su : Setup κ σ) (ts : List Nat) (e : Engine κ σ) : Engine κ σ :=
  { e with store := (runTransitions su ts e).2 }

/-- The engine after some transitions have been taken, with the new configuration published. -/
def advance (su : Setup κ σ) (ts : List Nat) (e : Engine κ σ) : Engine κ σ :=
  let e := executed su ts e
  let counted := { e with stats := { e.stats with microsteps := e.stats.microsteps + 1 } }
  (counted.publish (e.configuration.take su.model ts)).raiseDone su.model
    (su.model.entrySet ts).toList

/-! ### What a selection keeps -/

omit [Context κ] in
/-- A selection changes the store at most. -/
theorem selectTransitions_snd (su : Setup κ σ) (event : Option Event) (e : Engine κ σ) :
    (selectTransitions su event e).2 = { e with store := (selectTransitions su event e).2.store } :=
  rfl

theorem expose_eq (su : Setup κ σ) (event : Option Event) (e : Engine κ σ) :
    expose su event e = { e with store := (expose su event e).store } := by
  unfold expose
  split
  · split <;> rfl
  · rfl

/-- Preparing an engine changes its store at most. -/
theorem prepared_eq (su : Setup κ σ) (event : Option Event) (e : Engine κ σ) :
    prepared su event e = { e with store := (prepared su event e).store } := by
  unfold prepared
  rw [selectTransitions_snd, expose_eq]

@[simp] theorem configuration_prepared :
    (prepared su event e).configuration = e.configuration := by rw [prepared_eq]

@[simp] theorem phase_prepared : (prepared su event e).phase = e.phase := by rw [prepared_eq]

@[simp] theorem stats_prepared : (prepared su event e).stats = e.stats := by rw [prepared_eq]

@[simp] theorem configuration_advance {ts : List Nat} :
    (advance su ts e).configuration = e.configuration.take su.model ts := rfl

@[simp] theorem phase_advance {ts : List Nat} : (advance su ts e).phase = e.phase := rfl

@[simp] theorem configurations_advance {ts : List Nat} :
    (advance su ts e).stats.configurations = e.stats.configurations + 1 := rfl

theorem internal_advance {ts : List Nat} : (advance su ts e).store.internal =
    (runTransitions su ts e).2.internal ++
      ((e.configuration.take su.model ts).completions su.model
        (su.model.entrySet ts).toList).map (doneEvent su.model) := rfl

/-! ### How a microstep is put together -/

theorem microstep_eq (su : Setup κ σ) (event : Option Event) (e : Engine κ σ) :
    microstep su event e =
      if selected su event e = [] then (.ok 0, prepared su event e)
      else match (e.configuration.take su.model (selected su event e)).validate su.model with
        | .error err => (.error err, executed su (selected su event e) (prepared su event e))
        | .ok () => (.ok (selected su event e).length,
            advance su (selected su event e) (prepared su event e)) := by
  have hpair : selectTransitions su event (expose su event e) =
      (selected su event e, prepared su event e) := rfl
  have hconf : (prepared su event e).configuration = e.configuration := configuration_prepared
  rw [← hconf]
  unfold microstep
  rw [hpair]
  cases selected su event e with
  | nil => rfl
  | cons t ts => rfl

/-- A microstep that takes transitions publishes a legal configuration. -/
theorem microstep_ok (h : microstep su event e = (.ok n, e')) (hn : 0 < n) :
    n = (selected su event e).length ∧
      (e.configuration.take su.model (selected su event e)).isLegal su.model ∧
      e' = advance su (selected su event e) (prepared su event e) := by
  rw [microstep_eq] at h
  split at h
  · cases h
    exact absurd hn (Nat.lt_irrefl 0)
  · split at h
    · cases h
    · next hvalid =>
      cases h
      exact ⟨rfl, Configuration.validate_eq_ok_iff.1 hvalid, rfl⟩

/-! ### Why a microstep does not fail -/

/-- What is selected is left by preemption, of transitions of active states. -/
theorem exists_candidates (hm : su.model.WellFormed) (event : Option Event) (e : Engine κ σ) :
    ∃ candidates, selected su event e = e.configuration.preempt su.model candidates ∧
      ∀ t ∈ candidates, ∃ s, su.model.source? t = some s ∧ s ∈ e.configuration.states := by
  -- The selection reads the configuration, which exposing the event does not change.
  have hconf : (expose su event e).configuration = e.configuration := by rw [expose_eq]
  rw [← hconf]
  refine ⟨_, rfl, fun t ht => ?_⟩
  obtain ⟨s, hs, hsource⟩ :=
    Configuration.exists_source_of_mem_offers hm (expose su event e).configuration.states.sorted ht
  exact ⟨s, hsource, hs⟩

/-- Taking what is selected keeps a configuration legal. -/
theorem legal_take_selected (hv : su.model.Validated) (h : e.configuration.Legal su.model)
    (event : Option Event) :
    (e.configuration.take su.model (selected su event e)).Legal su.model := by
  obtain ⟨candidates, hpreempt, hsource⟩ := exists_candidates hv.wellFormed event e
  rw [hpreempt]
  exact h.take hv (Configuration.takeable_preempt hv h hsource)

/-- From a legal configuration, a microstep selects nothing, or advances to a legal one. -/
theorem microstep_cases (hv : su.model.Validated) (h : e.configuration.Legal su.model)
    (event : Option Event) :
    (selected su event e = [] ∧ microstep su event e = (.ok 0, prepared su event e)) ∨
      (selected su event e ≠ [] ∧ microstep su event e =
        (.ok (selected su event e).length,
          advance su (selected su event e) (prepared su event e))) := by
  rw [microstep_eq]
  by_cases hnil : selected su event e = []
  · exact .inl ⟨hnil, if_pos hnil⟩
  · have hvalid : (e.configuration.take su.model (selected su event e)).validate su.model = .ok () :=
      Configuration.validate_eq_ok_iff.2
        ((Configuration.isLegal_iff hv).2 (legal_take_selected hv h event))
    refine .inr ⟨hnil, ?_⟩
    rw [if_neg hnil, hvalid]

/-! ### Starts -/

/-- The engine after the initial configuration has been entered and published. -/
def entered (su : Setup κ σ) (e : Engine κ σ) : Engine κ σ :=
  let c : Configuration := ⟨su.model.initialDescendants 0⟩
  let e := { e with store := e.store.runEntries su.model su.evaluator c.states.toList }
  (e.publish c).raiseDone su.model c.states.toList

/-- A start enters what the root enters by default, and never fails. -/
theorem enterInitial_eq (hv : su.model.Validated) (e : Engine κ σ) :
    enterInitial su e = (.ok (),
      if (entered su e).halted then (entered su e).shutdown
      else { entered su e with phase := .stabilizing }) := by
  have henter : Configuration.empty.enter (su.model.initialDescendants 0) =
      ⟨su.model.initialDescendants 0⟩ :=
    Configuration.ext_states fun s => by simp [Configuration.enter, Configuration.empty]
  have hentering : Configuration.empty.entering (su.model.initialDescendants 0) =
      (su.model.initialDescendants 0).toList :=
    List.filter_eq_self.2 fun s _ => by simp [Configuration.empty]
  have hvalid := Configuration.validate_eq_ok_iff.2
    ((Configuration.isLegal_iff hv).2 (Configuration.legal_initialDescendants hv))
  simp only [enterInitial, Configuration.initial_eq hv, henter, hentering, hvalid]
  rfl

/-! ### An engine over nested parallel states -/

/-- The chart with a parallel region in a parallel state, with what an engine takes by default. -/
def nestedSetup : Setup Scope Cache := ⟨Model.nestedParallel, .default, .standard Scope⟩

theorem validated_nestedSetup : nestedSetup.model.Validated := Model.validated_nestedParallel

end Statechart.Engine
