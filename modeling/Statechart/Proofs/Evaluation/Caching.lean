import Statechart.Proofs.Evaluation.Coupling

/-!
# What an evaluator remembers

The default evaluator remembers the expressions that it has parsed.  This changes what it has to do,
but none of its answers.

* `Evaluator.Respects`: from memories that are related, an evaluator gives the same answers, and is
  left with memories that are related; `Evaluator.Transparent`: its answers do not depend on what it
  remembers, as long as that is of some kind, and it stays of that kind;
* `Cache.Faithful`: what is remembered for a text is what parsing it gives;
  `Cache.transparent_standard`: the default evaluator is transparent for such a memory;
* `Configuration.guardsAgree_of_respects`: from related memories guards hold alike, and
  `Configuration.agree_select`: what a transparent evaluator remembers does not change what is selected;
* `Store.Alike`: two stores that differ in their memories, and in what one of them had reported and
  logged before; `Store.coupling_alike`: executable content does the same to both.
-/

namespace Statechart

variable {κ σ : Type}

/-- From related memories come the same answers, and related memories. -/
structure Evaluator.Respects (ev : Evaluator κ σ) (R : σ → σ → Prop) : Prop where
  evaluate {mem mem' : σ} (k : κ) (text : String) :
    R mem mem' → SameAnswer R (ev.evaluate k text mem) (ev.evaluate k text mem')
  condition {mem mem' : σ} (k : κ) (text : String) :
    R mem mem' → SameAnswer R (ev.condition k text mem) (ev.condition k text mem')

/-- Answers do not depend on what is remembered, as long as it satisfies `P`, which every call
keeps. -/
structure Evaluator.Transparent (ev : Evaluator κ σ) (P : σ → Prop) : Prop where
  evaluate_keeps {mem : σ} (k : κ) (text : String) : P mem → P (ev.evaluate k text mem).2
  condition_keeps {mem : σ} (k : κ) (text : String) : P mem → P (ev.condition k text mem).2
  evaluate_eq {mem mem' : σ} (k : κ) (text : String) :
    P mem → P mem' → (ev.evaluate k text mem).1 = (ev.evaluate k text mem').1
  condition_eq {mem mem' : σ} (k : κ) (text : String) :
    P mem → P mem' → (ev.condition k text mem).1 = (ev.condition k text mem').1

theorem Evaluator.respects_eq (ev : Evaluator κ σ) : ev.Respects Eq where
  evaluate _ _ h := h ▸ ⟨rfl, rfl⟩
  condition _ _ h := h ▸ ⟨rfl, rfl⟩

theorem Evaluator.Transparent.respects {ev : Evaluator κ σ} {P : σ → Prop}
    (h : ev.Transparent P) : ev.Respects fun mem mem' => P mem ∧ P mem' where
  evaluate k text hp := ⟨h.evaluate_eq k text hp.1 hp.2,
    h.evaluate_keeps k text hp.1, h.evaluate_keeps k text hp.2⟩
  condition k text hp := ⟨h.condition_eq k text hp.1 hp.2,
    h.condition_keeps k text hp.1, h.condition_keeps k text hp.2⟩

/-! ### The default evaluator -/

namespace Cache

variable {c c' : Cache}

/-- What is remembered for a text is what parsing it gives. -/
def Faithful (c : Cache) : Prop :=
  ∀ text e, c.entries.lookup text = some e → Expr.parse text = .ok e

theorem faithful_empty : empty.Faithful := nofun

/-- A faithful cache compiles a text as it is parsed. -/
theorem compile_fst (h : c.Faithful) (text : String) :
    (c.compile text).1 = (Expr.parse text).mapError .invalidExpression := by
  unfold compile
  split
  · next e he =>
    rw [h text e he]
    rfl
  · split
    · next hp =>
      rw [hp]
      rfl
    · next hp =>
      rw [hp]
      rfl

/-- A text is already remembered, or cannot be parsed, or is remembered from now on. -/
theorem compile_cases (c : Cache) (text : String) :
    (c.compile text).2 = c ∧
        ((∃ e, c.entries.lookup text = some e) ∨ ∃ f, Expr.parse text = .error f) ∨
      ∃ e, c.entries.lookup text = none ∧ Expr.parse text = .ok e ∧
        (c.compile text).2 = ⟨(text, e) :: c.entries⟩ := by
  unfold compile
  split
  · next e he => exact .inl ⟨rfl, .inl ⟨e, he⟩⟩
  · next hnone =>
    split
    · next f hf => exact .inl ⟨rfl, .inr ⟨f, hf⟩⟩
    · next e he => exact .inr ⟨e, hnone, he, rfl⟩

/-- What has been parsed is remembered as it was parsed. -/
theorem Faithful.compile (h : c.Faithful) (text : String) : (c.compile text).2.Faithful := by
  rcases compile_cases c text with ⟨hc, -⟩ | ⟨e, -, hparse, hc⟩
  · rwa [hc]
  · rw [hc]
    intro text' e' he'
    rw [List.lookup_cons] at he'
    split at he'
    · next hsame =>
      cases he'
      rwa [eq_of_beq hsame]
    · exact h text' e' he'

variable [Context κ]

theorem evaluate_fst (h : c.Faithful) (k : κ) (text : String) :
    (c.evaluate k text).1 = ((Expr.parse text).mapError .invalidExpression >>= Expr.eval k) := by
  have hcompile := compile_fst h text
  unfold evaluate
  split
  · next hc =>
    rw [hc] at hcompile
    rw [← hcompile]
    rfl
  · next hc =>
    rw [hc] at hcompile
    rw [← hcompile]
    rfl

/-- Evaluating a text leaves what compiling it leaves. -/
theorem evaluate_snd (c : Cache) (k : κ) (text : String) :
    (c.evaluate k text).2 = (c.compile text).2 := by
  unfold evaluate
  split <;> (next hc => rw [hc])

theorem Faithful.evaluate (h : c.Faithful) (k : κ) (text : String) :
    (c.evaluate k text).2.Faithful := by
  rw [evaluate_snd]
  exact h.compile text

theorem condition_fst (h : c.Faithful) (k : κ) (text : String) :
    (c.condition k text).1 =
      ((Expr.parse text).mapError .invalidExpression >>= Expr.eval k).map Json.isTruthy := by
  have hvalue := evaluate_fst h k text
  unfold condition
  split
  · next hc =>
    rw [hc] at hvalue
    rw [← hvalue]
    rfl
  · next hc =>
    rw [hc] at hvalue
    rw [← hvalue]
    rfl

theorem condition_snd (c : Cache) (k : κ) (text : String) :
    (c.condition k text).2 = (c.compile text).2 := by
  rw [← evaluate_snd c k]
  unfold condition
  split <;> (next hc => rw [hc])

theorem Faithful.condition (h : c.Faithful) (k : κ) (text : String) :
    (c.condition k text).2.Faithful := by
  rw [condition_snd]
  exact h.compile text

/-- What the default evaluator has parsed does not change its answers. -/
theorem transparent_standard : (Evaluator.standard κ).Transparent Faithful where
  evaluate_keeps k text h := h.evaluate k text
  condition_keeps k text h := h.condition k text
  evaluate_eq k text h h' := (evaluate_fst h k text).trans (evaluate_fst h' k text).symm
  condition_eq k text h h' := (condition_fst h k text).trans (condition_fst h' k text).symm

end Cache

/-! ### Selecting transitions -/

variable {ev : Evaluator κ σ} {R : σ → σ → Prop} {P : σ → Prop} {mem mem' : σ}

/-- Two selections with the same result and faults, each of which leaves a memory that satisfies
`P`. -/
structure Selection.Agree {α : Type} (P : σ → Prop) (s s' : Selection α σ) : Prop where
  result : s.result = s'.result
  faults : s.faults = s'.faults
  left : P s.memory
  right : P s'.memory

namespace Configuration

/-- From related memories, guards hold alike. -/
theorem guardsAgree_of_respects (hev : ev.Respects R) (m : Model) (k : κ) :
    GuardsAgree m ev R k k := by
  intro t transition _ mem mem' h
  cases transition.cond with
  | none => exact ⟨rfl, rfl, h⟩
  | some text =>
    obtain ⟨x, next, next', hx, hx', hnext⟩ := (hev.condition k text h).elim
    unfold guardHolds
    dsimp only
    rw [hx, hx']
    cases x with
    | error e => exact ⟨rfl, rfl, hnext⟩
    | ok b => exact ⟨rfl, rfl, hnext⟩

/-- What is selected does not depend on what is remembered. -/
theorem agree_select (hev : ev.Transparent P) (h : P mem) (h' : P mem') (m : Model)
    (c : Configuration) (k : κ) (event : Option Event) :
    (c.select m ev k event mem).Agree P (c.select m ev k event mem') :=
  have hselect := related_select (guardsAgree_of_respects hev.respects m k) ⟨h, h'⟩ c event
  ⟨hselect.result, hselect.faults, hselect.memory.1, hselect.memory.2⟩

end Configuration

/-! ### Executable content -/

/-- What has been reported and logged. -/
structure Record where
  reports : Array Error
  logs : Array LogEntry

/-- A store that had reported and logged something before, with another memory. -/
def Store.after (r : Record) (mem : σ) (s : Store κ σ) : Store κ σ :=
  { s with memory := mem, reports := r.reports ++ s.reports, logs := r.logs ++ s.logs }

/-- Two stores of which the first had reported and logged `r` before, with related memories. -/
def Store.Alike (R : σ → σ → Prop) (r : Record) (s t : Store κ σ) : Prop :=
  ∃ mem, R mem t.memory ∧ s = t.after r mem

namespace Store

variable {s t : Store κ σ} {r : Record}

theorem Alike.refl (h : R s.memory s.memory) : s.Alike R ⟨#[], #[]⟩ s :=
  ⟨s.memory, h, by simp [after]⟩

theorem Alike.report (h : s.Alike R r t) (es : List Error) :
    (s.report es).Alike R r (t.report es) := by
  obtain ⟨mem, hmem, rfl⟩ := h
  have happend : r.reports ++ t.reports ++ es = r.reports ++ (t.reports ++ es) :=
    Array.toList_inj.1 (by simp)
  exact ⟨mem, hmem, by simp only [Store.report, after, happend]⟩

theorem Alike.raise (h : s.Alike R r t) (event : Event) :
    (s.raise event).Alike R r (t.raise event) := by
  obtain ⟨mem, hmem, rfl⟩ := h
  exact ⟨mem, hmem, rfl⟩

theorem Alike.log (h : s.Alike R r t) (entry : LogEntry) :
    Alike R r { s with logs := s.logs.push entry } { t with logs := t.logs.push entry } := by
  obtain ⟨mem, hmem, rfl⟩ := h
  exact ⟨mem, hmem, by simp only [after, Array.push_append]⟩

section Content

variable (hev : ev.Respects R) (h : s.Alike R r t)
include hev h

theorem alike_evaluate (text : String) :
    SameAnswer (Alike R r) (s.evaluate ev text) (t.evaluate ev text) := by
  obtain ⟨mem, hmem, rfl⟩ := h
  obtain ⟨x, next, next', hx, hx', hnext⟩ := (hev.evaluate t.context text hmem).elim
  have hs : ev.evaluate (t.after r mem).context text (t.after r mem).memory = (x, next) := hx
  unfold evaluate
  rw [hs, hx']
  cases x with
  | error e => exact ⟨rfl, next, hnext, rfl⟩
  | ok v => exact ⟨rfl, next, hnext, rfl⟩

variable [Context κ]

theorem alike_runAction (action : Kind) :
    SameAnswer (Alike R r) (s.runAction ev action) (t.runAction ev action) := by
  cases action with
  | log label expr? =>
    cases expr? with
    | none => exact ⟨rfl, h.log _⟩
    | some expr =>
      obtain ⟨x, s', t', hs, ht, h'⟩ := (alike_evaluate hev h expr).elim
      simp only [runAction, hs, ht]
      cases x with
      | error e => exact ⟨rfl, h'⟩
      | ok v => exact ⟨rfl, h'.log _⟩
  | raise event => exact ⟨rfl, h.raise _⟩
  | assign location expr =>
    obtain ⟨x, s', t', hs, ht, mem, hmem, rfl⟩ := (alike_evaluate hev h expr).elim
    simp only [runAction, hs, ht]
    cases x with
    | error e => exact ⟨rfl, mem, hmem, rfl⟩
    | ok v =>
      have hcontext : (t'.after r mem).context = t'.context := rfl
      dsimp only
      rw [hcontext]
      cases assign t'.context location v with
      | error e => exact ⟨rfl, mem, hmem, rfl⟩
      | ok k => exact ⟨rfl, mem, hmem, rfl⟩
  | _ => exact ⟨rfl, h⟩

end Content

variable [Context κ]

/-- Executable content does the same to both. -/
theorem coupling_alike (hev : ev.Respects R) (m : Model) (r : Record) :
    Coupling m ev (Alike R r) where
  internal h := by
    obtain ⟨mem, -, rfl⟩ := h
    rfl
  requeue events h := by
    obtain ⟨mem, hmem, rfl⟩ := h
    exact ⟨mem, hmem, rfl⟩
  report errors h := h.report errors
  action _ h := alike_runAction hev h _

/-- Executable content leaves a memory of the same kind. -/
theorem remembers_runBlocks (hev : ev.Transparent P) (h : P s.memory) (m : Model)
    (blocks : List Nat) : P (s.runBlocks m ev blocks).memory := by
  obtain ⟨mem, hmem, -⟩ := (coupling_alike hev.respects m _).runBlocks (.refl ⟨h, h⟩) blocks
  exact hmem.2

end Store

end Statechart
