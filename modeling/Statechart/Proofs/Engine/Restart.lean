import Statechart.Proofs.Engine.Coupling
import Statechart.Proofs.Engine.Stability

/-!
# A restarted engine is like a new one

A start takes from an engine nothing but its context and what its evaluator remembers.  So from then
on it does what a new engine with this context does; it only counts, reports and logs on top of what
it did before.

* `Engine.after`, `Engine.Alike`: an engine with a past, and two engines of which one has a past
  that the other has not;
* `Engine.coupling_alike`: this is a relation that engines keep;
* `Engine.Rest`: stopped engines that a start makes alike;
* `Engine.Mirrors`, `Engine.Rest.mirrors`: so they are for all actions that come after the start;
* `Engine.restart_like_new`: so a stopped engine that is started again mirrors a new one.
-/

namespace Statechart

/-- What an engine has counted, reported and logged before. -/
structure Past extends Record where
  stats : Stats

namespace Engine

variable {κ σ : Type} {su : Setup κ σ} {R : σ → σ → Prop} {p : Past} {e x : Engine κ σ}

/-- An engine that had counted, reported and logged something before, with another memory. -/
def after (p : Past) (mem : σ) (e : Engine κ σ) : Engine κ σ :=
  { e with store := e.store.after p.toRecord mem, stats := p.stats.add e.stats }

/-- Two engines that are the same, except that the first had a past and that the memories of their
evaluators are only related. -/
def Alike (R : σ → σ → Prop) (p : Past) (e x : Engine κ σ) : Prop :=
  ∃ mem, R mem x.store.memory ∧ e = x.after p mem

/-! ### Engines that are alike -/

theorem alike_iff : Alike R p e x ↔ Coupled (Store.Alike R p.toRecord) p.stats e x := by
  constructor
  · rintro ⟨mem, hmem, rfl⟩
    exact ⟨_, ⟨mem, hmem, rfl⟩, rfl⟩
  · rintro ⟨s, ⟨mem, hmem, rfl⟩, rfl⟩
    exact ⟨mem, hmem, rfl⟩

/-- Two stopped engines that a reset makes alike, but for the configuration that was published
last. -/
structure Rest (R : σ → σ → Prop) (p : Past) (e x : Engine κ σ) : Prop where
  left : e.phase = .stopped
  right : x.phase = .stopped
  reset : Alike R p { e.reset with configuration := x.configuration } x.reset

variable [Context κ]

/-- Engines do the same to stores that are alike, if their evaluator answers in the same way from
both memories. -/
theorem coupling_alike (hev : su.evaluator.Respects R) (r : Record) :
    Coupling su su.options.exposeEvent (Store.Alike R r) where
  toCoupling := Store.coupling_alike hev su.model r
  expose {e x} event h := by
    obtain ⟨mem, hmem, hs⟩ := h
    unfold expose Setup.exposing
    split
    · split
      · exact ⟨mem, hmem, by rw [hs]; rfl⟩
      · exact ⟨mem, hmem, hs⟩
    · exact ⟨mem, hmem, hs⟩
  select {e x} event hc h := by
    obtain ⟨mem, hmem, hs⟩ := h
    have hselect := Configuration.related_select
      (Configuration.guardsAgree_of_respects hev su.model x.store.context) hmem x.configuration event
    unfold selectTransitions
    rw [hc, hs]
    refine ⟨hselect.result, ?_⟩
    dsimp only [Store.after]
    rw [← hselect.faults]
    exact Store.Alike.report ⟨_, hselect.memory, rfl⟩ _

omit [Context κ] in
/-- Writes to the context do not tell stores that are alike apart. -/
theorem keeps_alike (r : Record) (a : Action κ) : a.Keeps (Store.Alike R r) := by
  rintro change - s t ⟨mem, hmem, rfl⟩
  exact ⟨mem, hmem, rfl⟩

/-! ### Sessions -/

/-- Some actions get the same answers from both engines, and after each step these are alike. -/
structure Mirrors (su : Setup κ σ) (R : σ → σ → Prop) (p : Past) (e x : Engine κ σ)
    (actions : List (Action κ)) : Prop where
  answers : sessionAnswers su e actions = sessionAnswers su x actions
  trail : List.Forall₂ (Alike R p) (sessionTrail su e actions) (sessionTrail su x actions)
  last : Alike R p (performAll su e actions) (performAll su x actions)

/-- From a start on, a stopped engine mirrors another one with the same context. -/
theorem Rest.mirrors (h : Rest R p e x) (hev : su.evaluator.Respects R) (hv : su.model.Validated)
    (actions : List (Action κ)) : Mirrors su R p e x (.start :: actions) := by
  have hstep := (coupling_alike hev p.toRecord).inStep_start hv
    (fun a (_ : a ∈ actions) => keeps_alike p.toRecord a) h.left h.right (alike_iff.1 h.reset)
  exact ⟨hstep.answers, hstep.trail.imp fun _ _ => alike_iff.2, alike_iff.2 hstep.last⟩

/-- From a start on, an engine does what a new engine with its context and the given memory does. -/
def LikeNew (su : Setup κ σ) (R : σ → σ → Prop) (e : Engine κ σ) (memory : σ) : Prop :=
  ∃ x, create su e.store.context memory = .ok x ∧ ∀ actions : List (Action κ),
    Mirrors su R ⟨⟨e.store.reports, e.store.logs⟩, e.stats⟩ e x (.start :: actions)

/-- This needs only an evaluator that answers in the same way from both memories. -/
theorem likeNew (hev : su.evaluator.Respects R) (hv : su.model.Validated) (hp : e.phase = .stopped)
    {memory : σ} (hmem : R e.store.memory memory) : LikeNew su R e memory := by
  have hrest : Rest R ⟨⟨e.store.reports, e.store.logs⟩, e.stats⟩ e (fresh e.store.context memory) :=
    ⟨hp, rfl, e.store.memory, hmem, by
      simp only [reset, after, Store.after, fresh, hp, Array.append_empty]
      rfl⟩
  exact ⟨fresh e.store.context memory, create_eq hv _ _, hrest.mirrors hev hv⟩

/-- After any history, a stopped engine that is started again does what a new engine with its
context does: with whatever evaluator if the new engine keeps that one's memory, and with the default
evaluator even if the new engine has parsed nothing. -/
theorem restart_like_new {m : Model} (hv : m.Validated) (o : Options) :
    (∀ (σ : Type) (ev : Evaluator κ σ) (e : Engine κ σ), e.phase = .stopped →
      LikeNew ⟨m, o, ev⟩ Eq e e.store.memory) ∧
    ∀ context : κ, ∃ c, create (.standard m o) context Cache.empty = .ok c ∧
      ∀ history e, e ∈ sessionTrail (.standard m o) c history ∨
          e = performAll (.standard m o) c history →
        e.phase = .stopped →
          LikeNew (.standard m o) (fun mem mem' => mem.Faithful ∧ mem'.Faithful) e Cache.empty := by
  refine ⟨fun _ ev e hp => likeNew ev.respects_eq hv hp rfl, fun context => ?_⟩
  refine ⟨fresh context Cache.empty, create_eq hv context Cache.empty, fun history e he hp => ?_⟩
  have hfaithful : Truthful (.standard m o) e ∧ e.store.memory.Faithful := by
    apply session_induction (P := fun y => Truthful (.standard m o) y ∧ y.store.memory.Faithful) he
    · exact ⟨truthful_fresh context Cache.empty, Cache.faithful_empty⟩
    · intro v _ y hy
      exact ⟨hy.1.move hv v, remembers_move Cache.transparent_standard hy.2 hv hy.1 v⟩
  exact likeNew Cache.transparent_standard.respects hv hp ⟨hfaithful.2, Cache.faithful_empty⟩

theorem startsAtOnce_ended : StartsAtOnce endingSetup (ended blank) := by decide +kernel

/-- A chart that has ended, and has dropped an event by that, ends again. -/
theorem restart_like_new_ending :
    (performAll endingSetup blank endingSession).phase = .stopped ∧
      (performAll endingSetup blank endingSession).halted = true ∧
      LikeNew endingSetup (fun mem mem' => mem.Faithful ∧ mem'.Faithful)
        (performAll endingSetup blank endingSession) Cache.empty ∧
      (performAll endingSetup blank (endingSession ++ endingSession)).halted = true := by
  have hended := performAll_endingSession_blank
  have hstopped : (performAll endingSetup blank endingSession).phase = .stopped := by
    rw [hended]
    decide +kernel
  have hhalted : (performAll endingSetup blank endingSession).halted = true := by
    rw [hended]
    decide +kernel
  have hagain : (performAll endingSetup blank (endingSession ++ endingSession)).halted = true := by
    have hsplit : performAll endingSetup blank (endingSession ++ endingSession) =
        performAll endingSetup (performAll endingSetup blank endingSession) endingSession :=
      List.foldl_append ..
    rw [hsplit, hended, performAll_endingSession startsAtOnce_ended (by decide +kernel)
      (by decide +kernel) (by decide +kernel) (by decide +kernel)]
    decide +kernel
  obtain ⟨c, hcreate, h⟩ := (restart_like_new validated_endingSetup .default).2 Scope.empty
  have hblank : create endingSetup Scope.empty Cache.empty = .ok blank :=
    create_eq validated_endingSetup Scope.empty Cache.empty
  cases hblank.symm.trans hcreate
  exact ⟨hstopped, hhalted, h endingSession _ (.inr rfl) hstopped, hagain⟩

end Engine

end Statechart
