import Statechart.Proofs.Engine.Microstep

/-!
# What engines publish

An engine counts the configurations that it publishes, and shows the last of them.

* `Engine.Keeps`, `Engine.Follows`: nothing, or at most one configuration, has been published;
* `Engine.follows_step`: a step of the run loop publishes at most one;
* `Engine.published`: the configurations published along a list of engines;
* `Engine.Leads`: such a list leads from one engine to another, each following the one before it, so
  that no publication goes unnoticed (`Leads.length_published`).
-/

namespace Statechart.Engine

variable {κ σ : Type} {su : Setup κ σ} {event : Option Event} {e e' e'' : Engine κ σ}
  {l l' : List (Engine κ σ)}

/-- Nothing has been published in between. -/
def Keeps (e e' : Engine κ σ) : Prop :=
  e'.configuration = e.configuration ∧ e'.stats.configurations = e.stats.configurations

/-- At most one configuration has been published in between. -/
def Follows (e e' : Engine κ σ) : Prop :=
  Keeps e e' ∨ e'.stats.configurations = e.stats.configurations + 1

@[refl] theorem Keeps.refl (e : Engine κ σ) : Keeps e e := ⟨rfl, rfl⟩

theorem Keeps.trans (h : Keeps e e') (h' : Keeps e' e'') : Keeps e e'' :=
  ⟨h'.1.trans h.1, h'.2.trans h.2⟩

theorem Keeps.trans_follows (h : Keeps e e') (h' : Follows e' e'') : Follows e e'' :=
  h'.imp h.trans fun h' => by rw [h', h.2]

theorem Follows.trans_keeps (h : Follows e e') (h' : Keeps e' e'') : Follows e e'' :=
  h.imp (·.trans h') h'.2.trans

/-- The configurations that are published on a trail that starts at an engine. -/
def published (e : Engine κ σ) : List (Engine κ σ) → List Configuration
  | [] => []
  | e' :: rest =>
    (if e'.stats.configurations = e.stats.configurations then [] else [e'.configuration]) ++
      published e' rest

/-- A trail leads from one engine to another, with at most one publication at a time. -/
inductive Leads : Engine κ σ → List (Engine κ σ) → Engine κ σ → Prop
  | nil (e : Engine κ σ) : Leads e [] e
  | cons {e e' e'' : Engine κ σ} {l : List (Engine κ σ)} (hf : Follows e e') (h : Leads e' l e'') :
      Leads e (e' :: l) e''

theorem Leads.append (h : Leads e l e') (h' : Leads e' l' e'') : Leads e (l ++ l') e'' := by
  induction h with
  | nil => exact h'
  | cons hf _ ih => exact .cons hf (ih h')

theorem Leads.single (h : Follows e e') : Leads e [e'] e' := .cons h (.nil e')

/-- On a trail as many configurations are published as the engine counts. -/
theorem Leads.length_published (h : Leads e l e') :
    (published e l).length + e.stats.configurations = e'.stats.configurations := by
  induction h with
  | nil => simp [published]
  | cons hf _ ih =>
    rw [published, ← ih, List.length_append]
    rcases hf with ⟨-, hn⟩ | hn
    · simp [hn]
    · rw [if_neg (by omega), hn]
      simp only [List.length_singleton]
      omega

/-! ### Operations that publish nothing -/

theorem keeps_shutdown : Keeps e e.shutdown := ⟨rfl, rfl⟩

theorem keeps_accept (event : Event) (queue : ExternalQueue) (e : Engine κ σ) :
    Keeps e (e.accept event queue) := ⟨rfl, rfl⟩

theorem keeps_afterMicrostep (su : Setup κ σ) (event : Option String) (n : Nat) (e : Engine κ σ) :
    Keeps e (afterMicrostep su event n e).2 := by
  unfold afterMicrostep
  split
  · exact keeps_shutdown
  · split
    · dsimp only
      split <;> exact ⟨rfl, rfl⟩
    · exact .refl e

theorem keeps_await (e : Engine κ σ) : Keeps e e.await.2 := by
  unfold await
  split
  · exact keeps_shutdown
  · split
    · exact ⟨rfl, rfl⟩
    · exact .refl e

theorem keeps_push (event : Event) (e : Engine κ σ) : Keeps e (e.push event).2 := by
  unfold push
  split
  · exact ⟨rfl, rfl⟩
  · rfl

theorem keeps_inject (event : Event) (e : Engine κ σ) : Keeps e (e.inject event).2 := by
  unfold inject
  split
  · rfl
  · exact keeps_push event e

/-! ### Steps -/

variable [Context κ]

theorem keeps_prepared : Keeps e (prepared su event e) := by
  rw [prepared_eq]
  exact ⟨rfl, rfl⟩

theorem keeps_executed {ts : List Nat} : Keeps e (executed su ts e) := ⟨rfl, rfl⟩

theorem follows_microstep {r : Except Error Nat} (h : microstep su event e = (r, e')) :
    Follows e e' ∧ (r = .ok 0 → Keeps e e') := by
  rw [microstep_eq] at h
  split at h
  · cases h
    exact ⟨.inl keeps_prepared, fun _ => keeps_prepared⟩
  · next hne =>
    split at h
    · cases h
      exact ⟨.inl (keeps_prepared.trans keeps_executed), fun h => by cases h⟩
    · cases h
      refine ⟨.inr (by simp), fun h0 => ?_⟩
      rw [Except.ok.injEq, List.length_eq_zero_iff] at h0
      exact absurd h0 hne

theorem follows_guardedMicrostep {r : Except Error Nat}
    (h : guardedMicrostep su event e = (r, e')) : Follows e e' ∧ (r = .ok 0 → Keeps e e') := by
  unfold guardedMicrostep at h
  split at h
  · next hm =>
    cases h
    exact follows_microstep hm
  · next hm =>
    cases h
    exact ⟨(follows_microstep hm).1.trans_keeps keeps_shutdown, fun h => by cases h⟩

theorem follows_consume (su : Setup κ σ) (e : Engine κ σ) : Follows e (consume su e).2 := by
  unfold consume
  split
  · exact .inl ⟨rfl, rfl⟩
  · dsimp only
    split
    · next h => exact (follows_guardedMicrostep h).1
    · next h => exact (follows_guardedMicrostep h).1.trans_keeps (keeps_afterMicrostep ..)

theorem follows_stabilizeOnce (su : Setup κ σ) (e : Engine κ σ) :
    Follows e (stabilizeOnce su e).2 := by
  unfold stabilizeOnce
  split
  · next h => exact (follows_guardedMicrostep h).1
  · next n e₁ h =>
    split
    · exact (follows_guardedMicrostep h).1.trans_keeps (keeps_afterMicrostep ..)
    · next hn =>
      -- The microstep without an event has taken nothing, and so published nothing.
      obtain rfl : n = 0 := by omega
      exact ((follows_guardedMicrostep h).2 rfl).trans_follows (follows_consume su e₁)

theorem follows_processCurrent (su : Setup κ σ) (e : Engine κ σ) :
    Follows e (processCurrent su e).2 := by
  unfold processCurrent
  split
  · exact .inl ⟨rfl, rfl⟩
  · dsimp only
    split
    · next h => exact (follows_guardedMicrostep h).1
    · next h =>
      have hf := (follows_guardedMicrostep h).1
      split
      · exact hf.trans_keeps keeps_shutdown
      · exact hf.trans_keeps ⟨rfl, rfl⟩

/-- A step publishes at most one configuration. -/
theorem follows_step (su : Setup κ σ) (e : Engine κ σ) : Follows e (step su e).2 := by
  unfold step
  split
  · exact .inl (.refl e)
  · exact follows_stabilizeOnce su e
  · exact .inl (keeps_await e)
  · exact follows_processCurrent su e

theorem follows_enterInitial (su : Setup κ σ) (e : Engine κ σ) :
    Follows e (enterInitial su e).2 := by
  unfold enterInitial
  split
  · exact .inl (.refl e)
  · dsimp only
    split
    · exact .inl ⟨rfl, rfl⟩
    · refine .inr ?_
      dsimp only
      split <;> rfl

end Statechart.Engine
