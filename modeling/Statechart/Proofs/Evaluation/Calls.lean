import Mathlib.Data.Finset.Card
import Statechart.Proofs.Evaluation.Caching

/-!
# A run of calls

The default evaluator is called many times, with any texts, in any contexts.  What it has parsed for
earlier calls saves it work, and nobody can tell from its answers.

* `Call.fresh`: the answer to a call for which the text is parsed anew;
* `Cache.Remembers`: what is remembered after calls with some texts: the expression of each of them
  that can be parsed, once, and nothing else; `Remembers.compile` keeps this up;
* `Cache.answerAll_fresh`: after any calls, all answers have been fresh ones, and as many texts are
  remembered as different ones could be parsed.
-/

namespace Statechart

/-- What an evaluator is asked for: the value of a text in a context, or its truth as a guard. -/
inductive Call : Type 1
  | evaluate {κ : Type} [Context κ] (k : κ) (text : String)
  | condition {κ : Type} [Context κ] (k : κ) (text : String)

namespace Call

/-- The answer to a call. -/
inductive Result
  | value (r : Except Error Json)
  | truth (r : Except Error Bool)

/-- The text that is evaluated. -/
def text : Call → String
  | @evaluate _ _ _ text => text
  | @condition _ _ _ text => text

/-- The value of a text that is parsed for the purpose. -/
def parsedAnew {κ : Type} [Context κ] (k : κ) (text : String) : Except Error Json :=
  (Expr.parse text).mapError .invalidExpression >>= Expr.eval k

/-- The answer for which the text is parsed anew. -/
def fresh : Call → Result
  | @evaluate _ _ k text => .value (parsedAnew k text)
  | @condition _ _ k text => .truth ((parsedAnew k text).map Json.isTruthy)

end Call

namespace Cache

/-- The default evaluator's answer to a call, and what it remembers then. -/
def answer (c : Cache) : Call → Call.Result × Cache
  | @Call.evaluate κ _ k text =>
    let r := (Evaluator.standard κ).evaluate k text c
    (.value r.1, r.2)
  | @Call.condition κ _ k text =>
    let r := (Evaluator.standard κ).condition k text c
    (.truth r.1, r.2)

/-- The answers to calls one after the other. -/
def answerAll (c : Cache) : List Call → List Call.Result × Cache
  | [] => ([], c)
  | call :: rest =>
    let next := c.answer call
    let last := next.2.answerAll rest
    (next.1 :: last.1, last.2)

/-- Whether a text can be parsed. -/
def parses (text : String) : Bool := (Expr.parse text).isOk

/-- The expressions of some texts are remembered, each once and as it is parsed. -/
structure Remembers (c : Cache) (seen : List String) : Prop where
  nodup : (c.entries.map Prod.fst).Nodup
  lookup {text : String} {e : Expr} :
    c.entries.lookup text = some e ↔ text ∈ seen ∧ Expr.parse text = .ok e

variable {c : Cache} {seen : List String}

theorem remembers_empty : empty.Remembers [] where
  nodup := List.nodup_nil
  lookup := by simp [empty]

theorem Remembers.faithful (h : c.Remembers seen) : c.Faithful :=
  fun _ _ he => (h.lookup.1 he).2

theorem parses_iff {text : String} : parses text ↔ ∃ e, Expr.parse text = .ok e := by
  unfold parses
  cases Expr.parse text <;> simp [Except.isOk, Except.toBool]

theorem mem_texts_iff {text : String} :
    text ∈ c.entries.map Prod.fst ↔ ∃ e, c.entries.lookup text = some e := by
  rw [← Option.isSome_iff_exists, List.lookup_isSome_iff, List.mem_map]
  exact exists_congr fun p => and_congr_right fun _ => by rw [beq_iff_eq, eq_comm]

/-- The remembered texts are the different ones among those seen that can be parsed. -/
theorem Remembers.cached_eq (h : c.Remembers seen) :
    c.cached = (seen.toFinset.filter (parses ·)).card := by
  have htexts : (c.entries.map Prod.fst).toFinset = seen.toFinset.filter (parses ·) := by
    ext text
    simp only [List.mem_toFinset, Finset.mem_filter, mem_texts_iff, h.lookup, parses_iff,
      exists_and_left]
  rw [← htexts, List.toFinset_card_of_nodup h.nodup, List.length_map, cached]

/-! ### One call -/

/-- A text that cannot be parsed leaves the memory as it is. -/
theorem compile_of_not_parses {text : String} (h : ¬ parses text) : (c.compile text).2 = c := by
  rcases compile_cases c text with ⟨hc, -⟩ | ⟨e, -, he, -⟩
  · exact hc
  · exact absurd (parses_iff.2 ⟨e, he⟩) h

theorem Remembers.compile (h : c.Remembers seen) (text : String) :
    (c.compile text).2.Remembers (seen ++ [text]) := by
  rcases compile_cases c text with ⟨hc, hold⟩ | ⟨e, hnone, he, hc⟩
  · -- Nothing changes: if the text can be parsed, then it has been seen.
    rw [hc]
    refine ⟨h.nodup, fun {t e} => h.lookup.trans (and_congr_left fun he => ?_)⟩
    rw [List.mem_append, List.mem_singleton, iff_self_or]
    rintro rfl
    rcases hold with ⟨e', he'⟩ | ⟨f, hf⟩
    · exact (h.lookup.1 he').1
    · rw [hf] at he
      cases he
  · rw [hc]
    have hnew : text ∉ c.entries.map Prod.fst := by
      rw [mem_texts_iff, hnone]
      simp
    refine ⟨List.nodup_cons.2 ⟨hnew, h.nodup⟩, fun {t e'} => ?_⟩
    rw [List.lookup_cons, List.mem_append, List.mem_singleton]
    by_cases ht : t = text
    · simp [ht, he]
    · simp [ht, beq_false_of_ne ht, h.lookup]

theorem answer_fst (h : c.Faithful) (call : Call) : (c.answer call).1 = call.fresh := by
  cases call with
  | evaluate k text => exact congrArg Call.Result.value (evaluate_fst h k text)
  | condition k text => exact congrArg Call.Result.truth (condition_fst h k text)

theorem answer_snd (c : Cache) (call : Call) : (c.answer call).2 = (c.compile call.text).2 := by
  cases call with
  | evaluate k text => exact evaluate_snd c k text
  | condition k text => exact condition_snd c k text

theorem Remembers.answer (h : c.Remembers seen) (call : Call) :
    (c.answer call).2.Remembers (seen ++ [call.text]) := by
  rw [answer_snd]
  exact h.compile call.text

/-! ### All calls -/

theorem Remembers.answerAll (h : c.Remembers seen) (calls : List Call) :
    (c.answerAll calls).2.Remembers (seen ++ calls.map Call.text) := by
  induction calls generalizing c seen with
  | nil => simpa [Cache.answerAll] using h
  | cons call rest ih =>
    rw [List.map_cons, List.append_cons]
    exact ih (h.answer call)

theorem Remembers.answerAll_fst (h : c.Remembers seen) (calls : List Call) :
    (c.answerAll calls).1 = calls.map Call.fresh := by
  induction calls generalizing c seen with
  | nil => rfl
  | cons call rest ih =>
    rw [Cache.answerAll, List.map_cons, ih (h.answer call), answer_fst h.faithful]

/-- A new evaluator that is called any number of times gives the answers for which each text is
parsed anew.  It then remembers just the texts of these calls that can be parsed, each with its
expression, and they are as many as `cached` counts; a text that cannot be parsed leaves its memory
as it is. -/
theorem answerAll_fresh (calls : List Call) :
    (empty.answerAll calls).1 = calls.map Call.fresh ∧
      (empty.answerAll calls).2.cached =
        ((calls.map Call.text).toFinset.filter (parses ·)).card ∧
      (∀ text e, (empty.answerAll calls).2.entries.lookup text = some e ↔
        text ∈ calls.map Call.text ∧ Expr.parse text = .ok e) ∧
      ∀ call, ¬ parses call.text →
        ((empty.answerAll calls).2.answer call).2 = (empty.answerAll calls).2 := by
  have hlast : (empty.answerAll calls).2.Remembers (calls.map Call.text) :=
    remembers_empty.answerAll calls
  refine ⟨remembers_empty.answerAll_fst calls, hlast.cached_eq, fun _ _ => hlast.lookup,
    fun call hcall => ?_⟩
  rw [answer_snd, compile_of_not_parses hcall]

example : (empty.answerAll [.evaluate Scope.empty "ctx.a", .condition Scope.empty "(",
    .condition Scope.empty "ctx.a"]).2.cached = 1 := by decide +kernel

end Cache

end Statechart
