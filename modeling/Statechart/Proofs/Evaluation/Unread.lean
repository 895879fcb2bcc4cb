import Statechart.Proofs.Evaluation.Caching
import Statechart.Proofs.Expr.Grammar

/-!
# Variables that nothing reads

Expressions read the variables that their paths start with, and assignments only that of their
location.  So guards and executable content do the same in two contexts that differ in a variable
which a model does not name.

* `Context.Hides`: a relation between contexts that differ in one variable at most, which sets keep;
  `Context.hides_agreeBut` and `Scope.hides_sameBut` are such relations;
* `Expr.eval_congr`: an expression depends on what its paths read;
* `Model.Ignores`: no expression and no location of a model starts with a name;
* `Configuration.guardsAgree_of_ignores`, `Store.coupling_sameBut`: so neither guards nor content of
  the model notice the variable.
-/

namespace Statechart

variable {κ : Type} [Context κ] {name : String} {A : κ → κ → Prop} {k k' : κ}

/-! ### Contexts -/

/-- A context in which setting one variable sets that one. -/
class LawfulContext (κ : Type) [Context κ] : Prop where
  get?_set (k : κ) (name : String) (value : Json) (other : String) :
    Context.get? (Context.set k name value) other =
      if other = name then some value else Context.get? k other

/-- All variables but one have the same values in two contexts. -/
def Context.AgreeBut (name : String) (k k' : κ) : Prop :=
  ∀ other, other ≠ name → Context.get? k other = Context.get? k' other

/-- A relation between contexts whose variables agree except for one.  Setting a variable in both
keeps it, and setting that one keeps it even in the first alone. -/
structure Context.Hides (name : String) (A : κ → κ → Prop) : Prop where
  refl (k : κ) : A k k
  agree {k k' : κ} : A k k' → Context.AgreeBut name k k'
  set {k k' : κ} (other : String) (value : Json) :
    A k k' → A (Context.set k other value) (Context.set k' other value)
  set_left {k k' : κ} (value : Json) : A k k' → A (Context.set k name value) k'

theorem Context.hides_agreeBut [LawfulContext κ] (name : String) :
    Context.Hides name (Context.AgreeBut name : κ → κ → Prop) where
  refl _ _ _ := rfl
  agree h := h
  set {k k'} other value h n hn := by
    rw [LawfulContext.get?_set, LawfulContext.get?_set, h n hn]
  set_left {k k'} value h n hn := by
    rw [LawfulContext.get?_set, if_neg hn, h n hn]

namespace Scope

theorem get?_set (s : Scope) (name : String) (value : Json) (other : String) :
    (s.set name value).get? other = if other = name then some value else s.get? other := by
  simp only [get?, set, lookup, Fields.get?_set]
  by_cases h : other = name <;> simp [h]

instance : LawfulContext Scope := ⟨get?_set⟩

/-- Two scopes whose innermost frames have the same variables, but for one; the frames around them
are the same. -/
structure SameBut (name : String) (s t : Scope) : Prop where
  own (other : String) : other ≠ name → s.own.get? other = t.own.get? other
  enclosing : s.enclosing = t.enclosing

/-- Frame by frame, scopes that agree stay so even if variables are removed. -/
theorem hides_sameBut (name : String) : Context.Hides name (SameBut name) where
  refl s := ⟨fun _ _ => rfl, rfl⟩
  agree {s t} h other hne := by
    simp only [Context.get?, get?, lookup, h.own other hne, h.enclosing]
  set {s t} n value h := by
    refine ⟨fun other hne => ?_, h.enclosing⟩
    simp only [Context.set, set, Fields.get?_set, h.own other hne]
  set_left {s t} value h := by
    refine ⟨fun other hne => ?_, h.enclosing⟩
    simp only [Context.set, set, Fields.get?_set, if_neg hne, h.own other hne]

theorem SameBut.clear {s t : Scope} (h : SameBut name s t) (n : String) :
    SameBut name (s.clear n) (t.clear n) := by
  refine ⟨fun other hne => ?_, h.enclosing⟩
  simp only [Scope.clear, Fields.get?_erase, h.own other hne]

theorem SameBut.clearAll {s t : Scope} (h : SameBut name s t) :
    SameBut name s.clearAll t.clearAll :=
  ⟨fun _ _ => rfl, h.enclosing⟩

end Scope

/-! ### Expressions and locations -/

namespace Expr

/-- The paths that an expression reads. -/
def paths : Expr → List (List String)
  | literal _ => []
  | field path => [path]
  | not inner => inner.paths
  | and left right | or left right | compare _ left right => left.paths ++ right.paths

/-- No path of an expression starts with a name. -/
def Ignores (name : String) (e : Expr) : Prop := ∀ path ∈ e.paths, path.head? ≠ some name

/-- The value of an expression depends on what its paths read. -/
theorem eval_congr {e : Expr} (h : ∀ path ∈ e.paths, readPath k path = readPath k' path) :
    e.eval k = e.eval k' := by
  induction e with
  | literal v => rfl
  | field path => simp only [eval, h path (List.mem_singleton.2 rfl)]
  | not inner ih => simp only [eval, ih h]
  | and left right ihl ihr | or left right ihl ihr | compare op left right ihl ihr =>
    obtain ⟨hl, hr⟩ := List.forall_mem_append.1 h
    simp only [eval, ihl hl, ihr hr]

theorem ne_nil_of_derives {l : Level} {ts : List Token} {e : Expr} (h : Derives l ts e) :
    ∀ path ∈ e.paths, path ≠ [] := by
  induction h with
  | or _ ih | and _ ih | not _ ih | unary _ ih | operand _ ih | paren _ ih => exact ih
  | orMore _ _ ihl ihr | andMore _ _ ihl ihr | compare _ _ _ ihl ihr =>
    exact List.forall_mem_append.2 ⟨ihl, ihr⟩
  | number | string | true | false | null => simp [paths]
  | field => simp [paths]

/-- What is parsed names a variable wherever it reads one. -/
theorem ne_nil_of_parse {text : String} {e : Expr} (h : parse text = .ok e) :
    ∀ path ∈ e.paths, path ≠ [] := by
  unfold parse at h
  split at h
  · cases h
  · exact ne_nil_of_derives (ofTokens_eq_ok_iff.1 h)

end Expr

theorem readPath_eq (h : Context.AgreeBut name k k') {path : List String} (hne : path ≠ [])
    (hhead : path.head? ≠ some name) : readPath k path = readPath k' path := by
  cases path with
  | nil => exact absurd rfl hne
  | cons first rest =>
    simp only [readPath, h first fun heq => hhead (heq ▸ rfl)]

/-- An expression that ignores a variable has the same value whatever the variable is. -/
theorem Expr.eval_eq (h : Context.AgreeBut name k k') {text : String} {e : Expr}
    (hparse : Expr.parse text = .ok e) (hignores : e.Ignores name) : e.eval k = e.eval k' :=
  Expr.eval_congr fun path hpath =>
    readPath_eq h (Expr.ne_nil_of_parse hparse path hpath) (hignores path hpath)

theorem Context.Hides.writePath (hA : Context.Hides name A) (h : A k k') {path : List String}
    (hhead : path.head? ≠ some name) (value : Json) :
    A (Statechart.writePath k path value) (Statechart.writePath k' path value) := by
  cases path with
  | nil => exact h
  | cons first rest =>
    have hfirst := hA.agree h first fun heq => hhead (heq ▸ rfl)
    cases rest with
    | nil => exact hA.set first value h
    | cons second rest =>
      simp only [Statechart.writePath, hfirst]
      exact hA.set first _ h

/-- Assigning to a location that does not start with the variable fails alike in both contexts, or
leaves them related. -/
theorem Context.Hides.assign (hA : Context.Hides name A) (h : A k k') {location : String}
    (hlocation : ∀ path, locationPath location = .ok path → path.head? ≠ some name) (value : Json) :
    (∃ err, Statechart.assign k location value = .error err ∧
        Statechart.assign k' location value = .error err) ∨
      ∃ l l', Statechart.assign k location value = .ok l ∧
        Statechart.assign k' location value = .ok l' ∧ A l l' := by
  unfold Statechart.assign
  cases hpath : locationPath location with
  | error fault => exact .inl ⟨.invalidExpression fault, rfl, rfl⟩
  | ok path => exact .inr ⟨_, _, rfl, rfl, hA.writePath h (hlocation path hpath) value⟩

/-! ### Models -/

/-- The expressions of a node: its guard, or what its action writes. -/
def Kind.expressions : Kind → List String
  | transition t => t.cond.toList
  | log _ expr => expr.toList
  | assign _ expr => [expr]
  | _ => []

/-- No expression of a model has a path that starts with a name, and no location does. -/
structure Model.Ignores (m : Model) (name : String) : Prop where
  expression {i : Nat} {kind : Kind} {text : String} {e : Expr} : m.kind? i = some kind →
    text ∈ kind.expressions → Expr.parse text = .ok e → e.Ignores name
  location {i : Nat} {location expr : String} {path : List String} :
    m.kind? i = some (.assign location expr) → locationPath location = .ok path →
      path.head? ≠ some name

/-- The same memory twice, in which every expression is remembered as it is parsed. -/
def Cache.Shared (c c' : Cache) : Prop := c = c' ∧ c.Faithful

namespace Cache

variable {c : Cache}

/-- An expression that ignores a variable is answered alike whatever the variable is. -/
theorem evaluate_eq (hc : c.Faithful) (h : Context.AgreeBut name k k') {text : String}
    (hignores : ∀ e, Expr.parse text = .ok e → e.Ignores name) :
    c.evaluate k text = c.evaluate k' text := by
  have hcompile := compile_fst hc text
  unfold evaluate
  split
  · rfl
  · next e c' hok =>
    rw [hok] at hcompile
    cases hparse : Expr.parse text with
    | error f =>
      rw [hparse] at hcompile
      cases hcompile
    | ok e' =>
      rw [hparse] at hcompile
      cases hcompile
      rw [Expr.eval_eq h hparse (hignores e hparse)]

theorem condition_eq (hc : c.Faithful) (h : Context.AgreeBut name k k') {text : String}
    (hignores : ∀ e, Expr.parse text = .ok e → e.Ignores name) :
    c.condition k text = c.condition k' text := by
  unfold condition
  rw [evaluate_eq hc h hignores]

end Cache

variable {m : Model}

/-- The guards of a model do not notice a variable that it ignores. -/
theorem Configuration.guardsAgree_of_ignores (hm : m.Ignores name)
    (h : Context.AgreeBut name k k') : GuardsAgree m (.standard κ) Cache.Shared k k' := by
  rintro t ⟨events, cond, targets, type⟩ ht mem _ ⟨rfl, hfaithful⟩
  cases cond with
  | none => exact ⟨rfl, rfl, rfl, hfaithful⟩
  | some text =>
    obtain ⟨kind, hkind, htransition⟩ := Option.bind_eq_some_iff.1 ht
    have htext : text ∈ kind.expressions := by
      cases kind <;> cases htransition
      exact List.mem_singleton.2 rfl
    have hanswer := Cache.condition_eq hfaithful h fun e => hm.expression hkind htext
    have hleft := hfaithful.condition k text
    have hsame : guardHolds (.standard κ) k mem (some text) =
        guardHolds (.standard κ) k' mem (some text) := by
      simp only [guardHolds, Evaluator.standard, hanswer]
    rw [← hsame]
    refine ⟨rfl, rfl, rfl, ?_⟩
    simp only [guardHolds, Evaluator.standard]
    split <;> (next hcond => rwa [hcond] at hleft)

namespace Store

/-- Two stores that are the same except for their contexts, which are related. -/
def SameBut (A : κ → κ → Prop) (s t : Store κ Cache) : Prop :=
  ∃ k, A k t.context ∧ t.memory.Faithful ∧ s = { t with context := k }

variable {s t : Store κ Cache}

omit [Context κ] in
theorem SameBut.log (h : s.SameBut A t) (entry : LogEntry) :
    SameBut A { s with logs := s.logs.push entry } { t with logs := t.logs.push entry } := by
  obtain ⟨k, hk, hmem, rfl⟩ := h
  exact ⟨k, hk, hmem, rfl⟩

theorem sameBut_evaluate (hA : Context.Hides name A) (h : s.SameBut A t) {text : String}
    (hignores : ∀ e, Expr.parse text = .ok e → e.Ignores name) :
    SameAnswer (SameBut A) (s.evaluate (.standard κ) text) (t.evaluate (.standard κ) text) := by
  obtain ⟨k, hk, hmem, rfl⟩ := h
  have hanswer := Cache.evaluate_eq hmem (hA.agree hk) hignores
  have hleft := hmem.evaluate t.context text
  simp only [evaluate, Evaluator.standard, hanswer]
  split <;> (next hvalue => rw [hvalue] at hleft; exact ⟨rfl, k, hk, hleft, rfl⟩)

/-- No action of a model notices a variable that the model ignores. -/
theorem sameBut_runAction (hA : Context.Hides name A) (hm : m.Ignores name) {i : Nat} {kind : Kind}
    (hkind : m.kind? i = some kind) (h : s.SameBut A t) :
    SameAnswer (SameBut A) (s.runAction (.standard κ) kind) (t.runAction (.standard κ) kind) := by
  have hexpression : ∀ text ∈ kind.expressions, SameAnswer (SameBut A)
      (s.evaluate (.standard κ) text) (t.evaluate (.standard κ) text) :=
    fun text htext => sameBut_evaluate hA h fun _ => hm.expression hkind htext
  cases kind with
  | log label expr? =>
    cases expr? with
    | none => exact ⟨rfl, h.log _⟩
    | some expr =>
      obtain ⟨x, s', t', hs, ht, h'⟩ := (hexpression expr (List.mem_singleton.2 rfl)).elim
      simp only [runAction, hs, ht]
      cases x with
      | error e => exact ⟨rfl, h'⟩
      | ok v => exact ⟨rfl, h'.log _⟩
  | raise event =>
    obtain ⟨k, hk, hmem, rfl⟩ := h
    exact ⟨rfl, k, hk, hmem, rfl⟩
  | assign location expr =>
    obtain ⟨x, s', t', hs, ht, h'⟩ := (hexpression expr (List.mem_singleton.2 rfl)).elim
    simp only [runAction, hs, ht]
    cases x with
    | error e => exact ⟨rfl, h'⟩
    | ok v =>
      obtain ⟨k, hk, hmem, rfl⟩ := h'
      dsimp only
      rcases hA.assign hk (fun _ => hm.location hkind) v with ⟨err, hl, hr⟩ | ⟨l, l', hl, hr, hll⟩
      · rw [hl, hr]
        exact ⟨rfl, k, hk, hmem, rfl⟩
      · rw [hl, hr]
        exact ⟨rfl, l, hll, hmem, rfl⟩
  | _ => exact ⟨rfl, h⟩

/-- The content of a model does not notice a variable that it ignores. -/
theorem coupling_sameBut (hA : Context.Hides name A) (hm : m.Ignores name) :
    Coupling m (.standard κ) (SameBut A) where
  internal h := by
    obtain ⟨k, -, -, rfl⟩ := h
    rfl
  requeue events h := by
    obtain ⟨k, hk, hmem, rfl⟩ := h
    exact ⟨k, hk, hmem, rfl⟩
  report errors h := by
    obtain ⟨k, hk, hmem, rfl⟩ := h
    exact ⟨k, hk, hmem, rfl⟩
  action := sameBut_runAction hA hm

end Store

end Statechart
