import Statechart.Proofs.Engine.Coherence
import Statechart.Proofs.Evaluation.Caching

/-!
# What a waiting engine has left to do

A stabilization ends when nothing is selected without an event.  Then the engine waits, and it
processes external events.  One that selects nothing does not lead to a stabilization, although it is
made visible in the context if the options say so.  So a transition without events whose guard reads
the event may become enabled, and has to wait for the next stabilization.

* `Engine.Stable`: the default evaluator selects nothing without an event, whatever it has parsed;
* `Engine.Lingers`: since some moment an engine has only processed events that selected nothing;
* `Engine.remembers_move`: an engine remembers expressions as they are parsed;
* `Engine.Arrives`, `Engine.arrives_move`: how one move leads to an engine that waits or processes an
  event; `Engine.exists_stable`: so such an engine was stable at some moment and has lingered since;
* `Engine.session_settled`: this for all engines of a session in which the host does not write to the
  context; without visible events, or if it has processed none since, a waiting engine is stable;
* `Engine.unstable_noticing`: with visible events it need not be.
-/

namespace Statechart

/-! ### Writes of the host -/

/-- Whether an action is a write of the host to the context. -/
def Action.writes {κ : Type} : Action κ → Bool
  | .writeContext _ => true
  | _ => false

/-- Whether a move is a write of the host to the context. -/
def Move.writes {κ : Type} : Move κ → Bool
  | .writeContext _ => true
  | _ => false

namespace Engine

theorem writes_of_mem_movesOf {κ : Type} {actions : List (Action κ)}
    (h : ∀ a ∈ actions, a.writes = false) {v : Move κ} (hv : v ∈ movesOf actions) :
    v.writes = false := by
  obtain ⟨a, ha, hmem⟩ := List.mem_flatMap.1 hv
  have hw := h a ha
  cases a with
  | writeContext => cases hw
  | start | stop | step | stabilize | processNext | run | inject | push | closeQueue | reopenQueue =>
    simp only [Action.moves, List.mem_cons, List.not_mem_nil, or_false] at hmem
    rcases hmem with rfl | rfl <;> rfl

end Engine

/-- A model with the default evaluator. -/
def Setup.standard {κ : Type} [Context κ] (m : Model) (o : Options) : Setup κ Cache :=
  ⟨m, o, .standard κ⟩

namespace Engine

/-! ### Waiting and lingering -/

section Attending

variable {κ σ : Type} {e : Engine κ σ}

/-- The engine waits for an event, or processes one. -/
def Attends (e : Engine κ σ) : Prop := e.phase = .waiting ∨ e.phase = .processing

theorem not_attends_of_stopped (hp : e.phase = .stopped) : ¬ e.Attends := by
  simp [Attends, hp]

theorem not_attends_of_stabilizing (hp : e.phase = .stabilizing) : ¬ e.Attends := by
  simp [Attends, hp]

end Attending

variable {κ : Type} [Context κ]

/-- Nothing is selected without an event, whatever has been parsed so far. -/
def Stable {σ : Type} (m : Model) (e : Engine κ σ) : Prop :=
  ∀ cache : Cache, cache.Faithful →
    (e.configuration.select m (.standard κ) e.store.context none cache).result = []

/-- A context after some events have been made visible in it, if the options say so. -/
def exposeAll (o : Options) (events : List Event) (k : κ) : κ :=
  if o.exposeEvent then events.foldl (fun k event => Context.set k eventVariable event.view) k else k

/-- Since it was `s`, the engine `x` has processed `events`, and none of them has selected anything. -/
structure Lingers {σ : Type} (o : Options) (s : Engine κ σ) (events : List Event)
    (x : Engine κ σ) : Prop where
  configuration : x.configuration = s.configuration
  context : x.store.context = exposeAll o events s.store.context
  microsteps : x.stats.microsteps = s.stats.microsteps
  macrosteps : x.stats.macrosteps = s.stats.macrosteps + events.length

section Lingering

variable {σ : Type} {o : Options} {s x y : Engine κ σ} {events later : List Event}

theorem exposeAll_nil (o : Options) (k : κ) : exposeAll o [] k = k := by
  unfold exposeAll
  split <;> rfl

theorem exposeAll_append (o : Options) (events later : List Event) (k : κ) :
    exposeAll o (events ++ later) k = exposeAll o later (exposeAll o events k) := by
  unfold exposeAll
  split
  · exact List.foldl_append
  · rfl

theorem lingers_of_eq (hconf : x.configuration = s.configuration)
    (hcontext : x.store.context = s.store.context) (hstats : x.stats = s.stats) :
    Lingers o s [] x where
  configuration := hconf
  context := by rw [exposeAll_nil, hcontext]
  microsteps := by rw [hstats]
  macrosteps := by rw [hstats]; rfl

theorem Lingers.trans (h : Lingers o s events y) (h' : Lingers o y later x) :
    Lingers o s (events ++ later) x where
  configuration := h'.configuration.trans h.configuration
  context := by rw [exposeAll_append, ← h.context, h'.context]
  microsteps := h'.microsteps.trans h.microsteps
  macrosteps := by rw [h'.macrosteps, h.macrosteps, List.length_append, Nat.add_assoc]

/-- An engine that has processed no event, or in which events are not visible, is as stable as it
was. -/
theorem Lingers.stable {m : Model} (h : Lingers o s events x) (hs : Stable m s)
    (hnone : o.exposeEvent = false ∨ events = []) : Stable m x := by
  have hcontext : x.store.context = s.store.context := by
    rw [h.context]
    rcases hnone with ho | rfl
    · rw [exposeAll, ho]
      rfl
    · exact exposeAll_nil o _
  intro cache hcache
  rw [h.configuration, hcontext]
  exact hs cache hcache

end Lingering

/-! ### What an engine remembers -/

section Remembering

variable {σ : Type} {su : Setup κ σ} {e : Engine κ σ} {P : σ → Prop} {event : Option Event}

theorem memory_expose (event : Option Event) (e : Engine κ σ) :
    (expose su event e).store.memory = e.store.memory := by
  unfold expose
  split
  · split <;> rfl
  · rfl

variable (hev : su.evaluator.Transparent P) (h : P e.store.memory)
include hev h

theorem remembers_prepared (event : Option Event) : P (prepared su event e).store.memory := by
  have hx : P (expose su event e).store.memory := by rwa [memory_expose]
  exact (Configuration.agree_select hev hx hx su.model _ _ event).left

theorem remembers_runTransitions (ts : List Nat) : P (runTransitions su ts e).2.memory := by
  unfold runTransitions Store.runEntries Store.runExits
  apply Store.remembers_runBlocks hev
  apply Store.remembers_runBlocks hev
  apply Store.remembers_runBlocks hev
  exact h

theorem remembers_acted (event : Option Event) : P (acted su event e).store.memory :=
  remembers_runTransitions hev (remembers_prepared hev h event) (selected su event e)

theorem remembers_turns {y : Engine κ σ} (ht : Turns su e event y) : P y.store.memory := by
  cases ht with
  | eventless => exact h
  | internal => exact remembers_prepared hev h none
  | external => exact h

theorem remembers_steps {r : Except Error Outcome × Engine κ σ} (hs : Steps su e r) :
    P r.2.store.memory := by
  have htaken : P e.takenUp.store.memory := h
  have hacted : ∀ {event y}, Turns su e event y → P (acted su event y).store.memory := fun ht =>
    remembers_acted hev (remembers_turns hev h ht) _
  cases hs with
  | close | dequeue | idle | lose => exact h
  | ignore =>
    show P (prepared su _ e.takenUp).store.memory
    exact remembers_prepared hev htaken _
  | respond =>
    show P (acted su _ e.takenUp).store.memory
    exact remembers_acted hev htaken _
  | settle => exact remembers_prepared hev h none
  | skip _ ht => exact remembers_prepared hev (remembers_turns hev h ht) _
  | @count event y _ ht =>
    show P (acted su event y).store.memory
    exact hacted ht
  | @limit event y _ ht =>
    show P (acted su event y).store.memory
    exact hacted ht
  | @halt event y ht =>
    show P (acted su event y).store.memory
    exact hacted ht

theorem remembers_move (hv : su.model.Validated) (ht : Truthful su e) (v : Move κ) :
    P (move su e v).store.memory := by
  cases v with
  | enter =>
    simp only [move]
    split
    · have hentered : P (entered su e.reset).store.memory :=
        Store.remembers_runBlocks hev (s := e.reset.store) h su.model _
      rw [enterInitial_eq hv]
      dsimp only
      split <;> exact hentered
    · exact h
  | step =>
    by_cases hp : e.phase = .stopped
    · rwa [move_step_stopped hp]
    · exact remembers_steps hev h (steps_of_truthful hv ht hp)
  | shutdown =>
    simp only [move]
    split <;> exact h
  | push event =>
    simp only [move, push]
    split <;> exact h
  | closeQueue | reopenQueue | writeContext => exact h

end Remembering

/-! ### One move -/

section Waiting

variable {su : Setup κ Cache} {e x : Engine κ Cache}

theorem context_prepared (event : Option Event) : (prepared su event e).store.context =
    exposeAll su.options event.toList e.store.context := by
  have hexpose : (prepared su event e).store.context = (expose su event e).store.context := rfl
  rw [hexpose]
  cases event with
  | none => exact (exposeAll_nil _ _).symm
  | some event =>
    unfold expose exposeAll
    dsimp only
    split <;> rfl

/-- How an engine comes to wait or to process an event: it has just become stable, or it did so
before and has at most processed one event more. -/
inductive Arrives (su : Setup κ Cache) (e x : Engine κ Cache) : Prop
  | settled (hp : x.phase = .waiting) (hs : Stable su.model x)
  | lingered (hp : e.Attends) (events : List Event) (hl : Lingers su.options e events x)

/-- A stabilization ends with an engine that is stable. -/
theorem stable_of_selected (hev : su.evaluator = .standard κ) (hm : e.store.memory.Faithful)
    (hs : selected su none e = []) (p : Phase) :
    Stable su.model { prepared su none e with phase := p } := by
  intro cache hcache
  have hconf : (prepared su none e).configuration = e.configuration := configuration_prepared
  have hcontext : (prepared su none e).store.context = e.store.context := rfl
  have hagree := Configuration.agree_select Cache.transparent_standard hcache hm su.model
    e.configuration e.store.context none
  dsimp only
  rw [hconf, hcontext, hagree.result, ← hev]
  exact hs

theorem arrives_of_steps (hev : su.evaluator = .standard κ) (hm : e.store.memory.Faithful)
    {r : Except Error Outcome × Engine κ Cache} (hs : Steps su e r) (hr : r.2.Attends) :
    Arrives su e r.2 := by
  cases hs with
  | close => exact absurd hr (not_attends_of_stopped rfl)
  | dequeue hp => exact .lingered (.inl hp) [] (lingers_of_eq rfl rfl rfl)
  | idle hp => exact .lingered (.inl hp) [] (lingers_of_eq rfl rfl rfl)
  | lose hp => exact .lingered (.inr hp) [] (lingers_of_eq rfl rfl rfl)
  | @ignore event hp =>
    have hstats : (prepared su (some event) e.takenUp).stats = e.takenUp.stats := stats_prepared
    refine .lingered (.inr hp) [event] ⟨configuration_prepared, context_prepared (some event), ?_, ?_⟩
    · exact congrArg (·.microsteps) hstats
    · exact congrArg (·.macrosteps) hstats
  | respond => exact absurd hr (not_attends_of_stabilizing rfl)
  | settle _ hs => exact .settled rfl (stable_of_selected hev hm hs .waiting)
  | @skip event y hp ht =>
    have hphase : (prepared su (some event) y).phase = .stabilizing :=
      phase_prepared.trans (ht.phase.trans hp)
    exact absurd hr (not_attends_of_stabilizing hphase)
  | @count event y hp ht =>
    have hphase : (acted su event y).phase = .stabilizing := phase_acted.trans (ht.phase.trans hp)
    exact absurd hr (not_attends_of_stabilizing hphase)
  | limit => exact absurd hr (not_attends_of_stopped rfl)
  | halt => exact absurd hr (not_attends_of_stopped rfl)

theorem arrives_move (hv : su.model.Validated) (hev : su.evaluator = .standard κ)
    (ht : Truthful su e) (hm : e.store.memory.Faithful) {v : Move κ} (hw : v.writes = false)
    (hr : (move su e v).Attends) : Arrives su e (move su e v) := by
  have hsame : ∀ {x : Engine κ Cache}, x = e → x.Attends → Arrives su e x := by
    rintro x rfl hx
    exact .lingered hx [] (lingers_of_eq rfl rfl rfl)
  cases v with
  | enter =>
    by_cases hp : e.phase = .stopped
    · -- A start stabilizes or halts.
      rw [move, if_pos hp, enterInitial_eq hv] at hr
      dsimp only at hr
      split at hr
      · exact absurd hr (not_attends_of_stopped rfl)
      · exact absurd hr (not_attends_of_stabilizing rfl)
    · exact hsame (if_neg hp) hr
  | step =>
    by_cases hp : e.phase = .stopped
    · exact hsame (move_step_stopped hp) hr
    · exact arrives_of_steps hev hm (steps_of_truthful hv ht hp) hr
  | shutdown =>
    by_cases hp : e.phase = .waiting
    · rw [move, if_pos hp] at hr
      exact absurd hr (not_attends_of_stopped rfl)
    · exact hsame (if_neg hp) hr
  | push event =>
    simp only [move, push] at hr ⊢
    split at hr
    · exact .lingered hr [] (lingers_of_eq rfl rfl rfl)
    · exact hsame rfl hr
  | closeQueue | reopenQueue => exact .lingered hr [] (lingers_of_eq rfl rfl rfl)
  | writeContext => cases hw

/-! ### Some moves -/

/-- After moves none of which writes to the context, an engine that waits or processes an event was
stable at some moment on the way, and has lingered since. -/
theorem exists_stable (su : Setup κ Cache) (hv : su.model.Validated) (hev : su.evaluator = .standard κ)
    (ht : Truthful su e) (hm : e.store.memory.Faithful) (hp : e.phase = .stopped)
    (vs : List (Move κ)) (hw : ∀ v ∈ vs, v.writes = false) (hr : (moveAll su e vs).Attends) :
    ∃ ws, ws <+: vs ∧ ws ≠ [] ∧ (moveAll su e ws).phase = .waiting ∧
      Stable su.model (moveAll su e ws) ∧
      ∃ events, Lingers su.options (moveAll su e ws) events (moveAll su e vs) := by
  induction vs using List.reverseRecOn with
  | nil => exact absurd hr (not_attends_of_stopped hp)
  | append_singleton us v ih =>
    obtain ⟨hus, hv'⟩ := List.forall_mem_append.1 hw
    have hy : Truthful su (moveAll su e us) ∧ (moveAll su e us).store.memory.Faithful := by
      apply moveAll_induction (P := fun y => Truthful su y ∧ y.store.memory.Faithful) ⟨ht, hm⟩
      intro v _ y hy
      exact ⟨hy.1.move hv v, remembers_move (hev ▸ Cache.transparent_standard) hy.2 hv hy.1 v⟩
    rw [moveAll_append] at hr ⊢
    have harrives := arrives_move hv hev hy.1 hy.2 (hv' v (List.mem_singleton.2 rfl)) hr
    cases harrives with
    | settled hwaiting hs =>
      refine ⟨us ++ [v], List.prefix_refl _, by simp, ?_⟩
      rw [moveAll_append]
      exact ⟨hwaiting, hs, [], lingers_of_eq rfl rfl rfl⟩
    | lingered hattends later hl =>
      obtain ⟨ws, hws, hne, hwaiting, hs, events, hlingers⟩ := ih hus hattends
      exact ⟨ws, hws.trans (List.prefix_append _ _), hne, hwaiting, hs, _, hlingers.trans hl⟩

end Waiting

/-! ### Sessions -/

/-- In a session in which the host does not write to the context, a waiting engine was stable when it
last settled.  Since then it has processed only events that selected nothing; its configuration is the
same, and so is its context, in which at most these events have been made visible.  So it is stable
now if events are not visible, or if it has processed none since. -/
theorem session_settled {m : Model} (hv : m.Validated) (o : Options) (context : κ) :
    ∃ e, create (.standard m o) context Cache.empty = .ok e ∧
      ∀ actions : List (Action κ), (∀ a ∈ actions, a.writes = false) →
        ∀ l x, l ++ [x] <+: e :: sessionTrail (.standard m o) e actions → x.phase = .waiting →
          ∃ s ∈ l ++ [x], ∃ events, s.phase = .waiting ∧ Stable m s ∧ Lingers o s events x ∧
            (o.exposeEvent = false ∨ events = [] → Stable m x) := by
  have hcreate : create (.standard m o) context Cache.empty = .ok (fresh context Cache.empty) :=
    create_eq hv context Cache.empty
  refine ⟨fresh context Cache.empty, hcreate, fun actions hwrites l x hl hx => ?_⟩
  obtain ⟨vs, hvs, htrail, -⟩ :=
    exists_course_session (.standard m o) (fresh context Cache.empty) actions
  rw [htrail] at hl
  cases l with
  | nil =>
    -- The session begins with a stopped engine.
    obtain rfl : x = fresh context Cache.empty := (List.cons_prefix_cons.1 hl).1
    cases hx
  | cons first l =>
    obtain ⟨us, hus, hcourse, hlast⟩ := exists_prefix_course (List.cons_prefix_cons.1 hl).2
    have hw : ∀ v ∈ us, v.writes = false := fun v hv =>
      writes_of_mem_movesOf hwrites (hvs v (hus.subset hv))
    have hattends : (moveAll (.standard m o) (fresh context Cache.empty) us).Attends := by
      rw [← hlast]
      exact .inl hx
    obtain ⟨ws, hws, hne, hwaiting, hs, events, hlingers⟩ :=
      exists_stable (.standard m o) hv rfl (truthful_fresh context Cache.empty)
        Cache.faithful_empty rfl us hw hattends
    rw [← hlast] at hlingers
    refine ⟨_, List.mem_cons_of_mem _ ?_, events, hwaiting, hs, hlingers, hlingers.stable hs⟩
    rw [List.append_eq, hcourse]
    exact mem_course.2 ⟨ws, hws, hne, rfl⟩

end Engine

/-! ### A chart that notices events too late -/

namespace Model

/-- The state `a` gives way to `b` as soon as an event is visible. -/
def noticing : Model where
  nodes := #[
    ⟨none, .scxml none, none, [1, 3]⟩,
    ⟨some "a", .state none, some 0, [2]⟩,
    ⟨none, .transition ⟨[], some "ctx._event", ["b"], .external⟩, some 1, []⟩,
    ⟨some "b", .state none, some 0, []⟩]
  root? := some 0
  index := [("a", 1), ("b", 3)]
  transitions := [2]

theorem addAll?_noticing :
    empty.addAll? (noticing.nodes.toList.map fun n => (⟨n.id, n.kind⟩, n.parent)) =
      some noticing := by
  decide +kernel

theorem validated_noticing : noticing.Validated where
  built := Built.empty.addAll? addAll?_noticing
  valid := by decide +kernel

end Model

namespace Engine

/-- An engine over a chart with a guard that holds as soon as an event is visible. -/
def noticingSetup (exposeEvent : Bool) : Setup Scope Cache :=
  .standard Model.noticing ⟨10000, exposeEvent⟩

/-- The chart does not react to `go`. -/
def noticingSession : List (Action Scope) := [.start, .push (.external "go"), .step, .step]

theorem startsAtOnce_noticing (exposeEvent : Bool) :
    StartsAtOnce (noticingSetup exposeEvent) blank := by
  cases exposeEvent <;> decide +kernel

theorem performAll_noticingSession (exposeEvent : Bool) :
    performAll (noticingSetup exposeEvent) blank noticingSession =
      performAll (noticingSetup exposeEvent) (started (noticingSetup exposeEvent) blank)
        [.push (.external "go"), .step, .step] :=
  (startsAtOnce_noticing exposeEvent).performAll _

/-- If events are not visible, the chart stays where it is stable. -/
theorem session_settled_noticing :
    (∀ a ∈ noticingSession, a.writes = false) ∧
      (performAll (noticingSetup false) blank noticingSession).phase = .waiting ∧
      Stable Model.noticing (performAll (noticingSetup false) blank noticingSession) := by
  have hwrites : ∀ a ∈ noticingSession, a.writes = false := by simp [noticingSession, Action.writes]
  have hwaiting : (performAll (noticingSetup false) blank noticingSession).phase = .waiting := by
    rw [performAll_noticingSession]
    decide +kernel
  obtain ⟨e, hcreate, h⟩ :=
    session_settled Model.validated_noticing ⟨10000, false⟩ Scope.empty
  have hblank : create (noticingSetup false) Scope.empty Cache.empty = .ok blank :=
    create_eq Model.validated_noticing Scope.empty Cache.empty
  cases hblank.symm.trans hcreate
  obtain ⟨l, hl⟩ := exists_sessionTrail_eq_append (noticingSetup false) blank noticingSession
  obtain ⟨s, -, events, -, -, -, hstable⟩ :=
    h noticingSession hwrites l _ (hl ▸ List.prefix_refl _) hwaiting
  exact ⟨hwrites, hwaiting, hstable (.inl rfl)⟩

/-- If events are visible, the chart waits although its transition has become enabled. -/
theorem unstable_noticing :
    Model.noticing.Validated ∧ (∀ a ∈ noticingSession, a.writes = false) ∧
      create (noticingSetup true) Scope.empty Cache.empty = .ok blank ∧
      (performAll (noticingSetup true) blank noticingSession).phase = .waiting ∧
      selected (noticingSetup true) none (performAll (noticingSetup true) blank noticingSession) = [2] ∧
      ¬ Stable Model.noticing (performAll (noticingSetup true) blank noticingSession) := by
  rw [performAll_noticingSession]
  refine ⟨Model.validated_noticing, by simp [noticingSession, Action.writes],
    create_eq Model.validated_noticing Scope.empty Cache.empty, by decide +kernel,
    by decide +kernel, fun h => ?_⟩
  have hnothing := h Cache.empty Cache.faithful_empty
  have henabled : ((performAll (noticingSetup true) (started (noticingSetup true) blank)
      [.push (.external "go"), .step, .step]).configuration.select Model.noticing (.standard Scope)
        (performAll (noticingSetup true) (started (noticingSetup true) blank)
          [.push (.external "go"), .step, .step]).store.context none Cache.empty).result = [2] := by
    decide +kernel
  rw [hnothing] at henabled
  cases henabled

end Engine

end Statechart
