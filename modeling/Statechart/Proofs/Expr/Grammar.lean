import Mathlib.Tactic.Common
import Statechart.Proofs.Evaluation.Caching

/-!
# The grammar of expressions

What the parser accepts is said once more, as a grammar:

    or         := and ("||" and)*
    and        := unary ("&&" unary)*
    unary      := "!" unary | comparison
    comparison := operand (op operand)?
    operand    := "(" or ")" | number | string | "true" | "false" | "null" | "ctx" ("." segment)+

* `Derives`: the grammar, with the expression that each derivation gives.  The repetitions are
  written with the repeated rule on the left, which is how their expressions are nested;
* `front`: what each part of the parser finds at the front of some tokens, and what it leaves;
* `sound_front`: what is found is derived from the tokens before what is left;
* `complete_front`: what is derived is found, unless the tokens behind it continue it;
* `ofTokens_eq_ok_iff`: the parser accepts what the grammar derives, and gives its expression;
  `ofTokens_grammar`: there is one such expression, and all other tokens are refused.
-/

namespace Statechart.Expr

/-- The symbols of the grammar. -/
inductive Level
  | or
  | and
  | unary
  | comparison
  | operand

/-- A segment of a path: a name, or a whole number that is not negative. -/
inductive Segment : Token → String → Prop
  | name (w : String) : Segment (.ident w) w
  | index {n : Numeral} {s : String} (whole : n.segment? = some s) : Segment (.number n) s

/-- Any number of segments, each behind its dot. -/
inductive Segments : List Token → List String → Prop
  | nil : Segments [] []
  | cons {t : Token} {s : String} {ts : List Token} {path : List String} (head : Segment t s)
      (tail : Segments ts path) : Segments (.dot :: t :: ts) (s :: path)

/-- The tokens that a symbol of the grammar stands for, each time with the expression that they
are. -/
inductive Derives : Level → List Token → Expr → Prop
  | or {ts : List Token} {e : Expr} (first : Derives .and ts e) : Derives .or ts e
  | orMore {ts us : List Token} {l r : Expr} (left : Derives .or ts l) (right : Derives .and us r) :
      Derives .or (ts ++ .or :: us) (.or l r)
  | and {ts : List Token} {e : Expr} (first : Derives .unary ts e) : Derives .and ts e
  | andMore {ts us : List Token} {l r : Expr} (left : Derives .and ts l)
      (right : Derives .unary us r) : Derives .and (ts ++ .and :: us) (.and l r)
  | not {ts : List Token} {e : Expr} (inner : Derives .unary ts e) :
      Derives .unary (.not :: ts) (.not e)
  | unary {ts : List Token} {e : Expr} (inner : Derives .comparison ts e) : Derives .unary ts e
  | compare {ts us : List Token} {l r : Expr} (op : Comparison) (left : Derives .operand ts l)
      (right : Derives .operand us r) :
      Derives .comparison (ts ++ .compare op :: us) (.compare op l r)
  | operand {ts : List Token} {e : Expr} (only : Derives .operand ts e) : Derives .comparison ts e
  | paren {ts : List Token} {e : Expr} (inner : Derives .or ts e) :
      Derives .operand (.openParen :: ts ++ [.closeParen]) e
  | number {n : Numeral} (finite : n.toFloat.isFinite) :
      Derives .operand [.number n] (.literal (.number (.double n.toFloat)))
  | string (s : String) : Derives .operand [.string s] (.literal (.string s))
  | true : Derives .operand [.ident "true"] (.literal (.bool Bool.true))
  | false : Derives .operand [.ident "false"] (.literal (.bool Bool.false))
  | null : Derives .operand [.ident "null"] (.literal .null)
  | field {ts : List Token} {s : String} {path : List String} (segments : Segments ts (s :: path)) :
      Derives .operand (.ident "ctx" :: ts) (.field (s :: path))

/-! ### The parser without its proofs of progress -/

/-- What a part of the parser found and what it left. -/
def plain {α : Type} {p : List Token → Prop} (r : Except Fault (α × {rest // p rest})) :
    Except Fault (α × List Token) := r.map fun x => (x.1, x.2.1)

/-- What the parser finds for a symbol at the front of some tokens, and the tokens behind it. -/
def front (k : Level) (ts : List Token) : Except Fault (Expr × List Token) :=
  match k with
  | .or => plain (parseOr ts)
  | .and => plain (parseAnd ts)
  | .unary => plain (parseUnary ts)
  | .comparison => plain (parseComparison ts)
  | .operand => plain (parseOperand ts)

/-- How the parser goes on for a symbol behind a part of it. -/
def resume (k : Level) (left : Expr) (ts : List Token) : Except Fault (Expr × List Token) :=
  match k with
  | .or => plain (parseOrTail left ts)
  | .and => plain (parseAndTail left ts)
  | _ => .ok (left, ts)

variable {k lower : Level} {op t : Token} {join : Expr → Expr → Expr} {n : Nat}
  {ts us rest : List Token} {e l r : Expr} {f : Fault}

/-- A symbol that is a chain of operands of a lower one, with an operator between them that groups to
the left. -/
structure Chain (k lower : Level) (op : Token) (join : Expr → Expr → Expr) : Prop where
  first {ts : List Token} {e : Expr} : Derives lower ts e → Derives k ts e
  more {ts us : List Token} {l r : Expr} : Derives k ts l → Derives lower us r →
    Derives k (ts ++ op :: us) (join l r)
  front_eq (ts : List Token) : front k ts = front lower ts >>= fun x => resume k x.1 x.2
  resume_op (l : Expr) (ts : List Token) :
    resume k l (op :: ts) = front lower ts >>= fun x => resume k (join l x.1) x.2
  resume_stop {ts : List Token} (l : Expr) : ts.head? ≠ some op → resume k l ts = .ok (l, ts)

theorem chain_or : Chain .or .and .or .or where
  first := .or
  more := .orMore
  front_eq ts := by
    simp only [front, resume]
    rw [parseOr]
    rcases parseAnd ts with f | ⟨l, rest, h⟩
    · rfl
    · simp only [plain, Except.map, bind, Except.bind]
      rcases parseOrTail l rest with f | ⟨e, after, h'⟩ <;> rfl
  resume_op l ts := by
    simp only [front, resume]
    rw [parseOrTail]
    rcases parseAnd ts with f | ⟨r, rest, h⟩
    · rfl
    · simp only [plain, Except.map, bind, Except.bind]
      rcases parseOrTail (.or l r) rest with f | ⟨e, after, h'⟩ <;> rfl
  resume_stop l h := by
    simp only [resume]
    rw [parseOrTail]
    · rfl
    · rintro rest rfl
      exact h rfl

theorem chain_and : Chain .and .unary .and .and where
  first := .and
  more := .andMore
  front_eq ts := by
    simp only [front, resume]
    rw [parseAnd]
    rcases parseUnary ts with f | ⟨l, rest, h⟩
    · rfl
    · simp only [plain, Except.map, bind, Except.bind]
      rcases parseAndTail l rest with f | ⟨e, after, h'⟩ <;> rfl
  resume_op l ts := by
    simp only [front, resume]
    rw [parseAndTail]
    rcases parseUnary ts with f | ⟨r, rest, h⟩
    · rfl
    · simp only [plain, Except.map, bind, Except.bind]
      rcases parseAndTail (.and l r) rest with f | ⟨e, after, h'⟩ <;> rfl
  resume_stop l h := by
    simp only [resume]
    rw [parseAndTail]
    · rfl
    · rintro rest rfl
      exact h rfl

theorem front_not : front .unary (.not :: ts) =
    front .unary ts >>= fun x => .ok (.not x.1, x.2) := by
  simp only [front]
  rw [parseUnary]
  rcases parseUnary ts with f | ⟨e, rest, h⟩ <;> rfl

theorem front_unary (h : ts.head? ≠ some .not) : front .unary ts = front .comparison ts := by
  simp only [front]
  rw [parseUnary]
  rintro rest rfl
  exact h rfl

/-- The second operand of a comparison, if an operator stands before it. -/
def compareWith (l : Expr) : List Token → Except Fault (Expr × List Token)
  | .compare op :: rest => front .operand rest >>= fun x => .ok (.compare op l x.1, x.2)
  | rest => .ok (l, rest)

theorem front_comparison :
    front .comparison ts = front .operand ts >>= fun x => compareWith x.1 x.2 := by
  simp only [front]
  rw [parseComparison]
  rcases parseOperand ts with f | ⟨l, _ | ⟨t, rest⟩, h⟩
  · rfl
  · rfl
  · cases t with
    | compare op =>
      simp only [plain, Except.map, bind, Except.bind, compareWith, front]
      rcases parseOperand rest with f | ⟨r, after, h'⟩ <;> rfl
    | _ => rfl

/-- The closing parenthesis behind an expression. -/
def close (e : Expr) : List Token → Except Fault (Expr × List Token)
  | .closeParen :: rest => .ok (e, rest)
  | _ => .error .unclosedParen

theorem front_paren :
    front .operand (.openParen :: ts) = front .or ts >>= fun x => close x.1 x.2 := by
  simp only [front]
  rw [parseOperand]
  rcases parseOr ts with f | ⟨e, _ | ⟨t, rest⟩, h⟩
  · rfl
  · rfl
  · cases t <;> rfl

theorem front_number (n : Numeral) : front .operand (.number n :: ts) =
    if n.toFloat.isFinite then .ok (.literal (.number (.double n.toFloat)), ts)
    else .error (.infiniteNumber n) := by
  simp only [front]
  rw [parseOperand]
  split <;> rfl

theorem front_string (s : String) :
    front .operand (.string s :: ts) = .ok (.literal (.string s), ts) := by
  simp only [front]
  rw [parseOperand]
  rfl

theorem front_word {w : String} {v : Json} (h : wordValue? w = some v) :
    front .operand (.ident w :: ts) = .ok (.literal v, ts) := by
  simp only [front]
  rw [parseOperand, h]
  rfl

/-- The path of a variable, which is not empty. -/
def fieldOf : List String × List Token → Except Fault (Expr × List Token)
  | ([], _) => .error .missingPath
  | (path, rest) => .ok (.field path, rest)

theorem front_ctx : front .operand (.ident "ctx" :: ts) = plain (parsePath ts) >>= fieldOf := by
  have hw : wordValue? "ctx" = none := by decide
  simp only [front]
  rw [parseOperand, hw, if_pos rfl]
  rcases parsePath ts with f | ⟨_ | ⟨s, path⟩, rest, h⟩ <;> rfl

theorem front_unknown {w : String} (hv : wordValue? w = none) (hw : w ≠ "ctx") :
    front .operand (.ident w :: ts) = .error (.unknownWord w) := by
  simp only [front]
  rw [parseOperand, hv, if_neg hw]
  rfl

/-- Whether an operand can start with a token. -/
def startsOperand : Token → Bool
  | .openParen | .number _ | .string _ | .ident _ => Bool.true
  | _ => Bool.false

theorem front_unexpected (h : startsOperand t = Bool.false) :
    front .operand (t :: ts) = .error (.unexpectedToken t) := by
  simp only [front]
  rw [parseOperand]
  · rfl
  all_goals
    intros
    subst t
    cases h

theorem front_nil : front .operand [] = .error .endOfExpression := by
  simp only [front]
  rw [parseOperand]
  rfl

theorem path_segment {s : String} (h : Segment t s) : plain (parsePath (.dot :: t :: ts)) =
    plain (parsePath ts) >>= fun x => .ok (s :: x.1, x.2) := by
  cases h with
  | name =>
    rw [parsePath]
    rcases parsePath ts with f | ⟨path, rest, h⟩ <;> rfl
  | index whole =>
    rw [parsePath, whole]
    rcases parsePath ts with f | ⟨path, rest, h⟩ <;> rfl

theorem path_stop (h : ts.head? ≠ some .dot) : plain (parsePath ts) = .ok ([], ts) := by
  rw [parsePath]
  · rfl
  all_goals
    intros
    subst ts
    exact h rfl

theorem bind_eq_ok {α β : Type} {x : Except Fault α} {g : α → Except Fault β} {b : β} :
    x >>= g = .ok b ↔ ∃ a, x = .ok a ∧ g a = .ok b := by
  cases x <;> simp [bind, Except.bind]

/-! ### What is found is derived -/

/-- What is found for a symbol is derived from the tokens before what is left. -/
def Sound (k : Level) (ts : List Token) : Prop :=
  ∀ e rest, front k ts = .ok (e, rest) → ∃ used, ts = used ++ rest ∧ Derives k used e

theorem segments_of_path {path : List String} (h : plain (parsePath ts) = .ok (path, rest)) :
    ∃ used, ts = used ++ rest ∧ Segments used path := by
  fun_induction parsePath ts generalizing path rest with
  | case1 w ts path' after hafter hp ih =>
    cases h
    obtain ⟨used, hts, hused⟩ := ih (congrArg plain hp)
    exact ⟨.dot :: .ident w :: used, by simp [hts], .cons (.name w) hused⟩
  | case3 n ts s whole path' after hafter hp ih =>
    cases h
    obtain ⟨used, hts, hused⟩ := ih (congrArg plain hp)
    exact ⟨.dot :: .number n :: used, by simp [hts], .cons (.index whole) hused⟩
  | case7 =>
    cases h
    exact ⟨[], rfl, .nil⟩
  | _ => cases h

theorem wordValue?_eq_some {w : String} {v : Json} (h : wordValue? w = some v) :
    Derives .operand [.ident w] (.literal v) := by
  unfold wordValue? at h
  split at h
  · next hw =>
    cases h
    exact hw ▸ .true
  · split at h
    · next hw =>
      cases h
      exact hw ▸ .false
    · split at h
      · next hw =>
        cases h
        exact hw ▸ .null
      · cases h

theorem sound_operand (ih : ∀ us, us.length < ts.length → Sound .or us) : Sound .operand ts := by
  intro e rest h
  rcases ts with _ | ⟨t, ts⟩
  · rw [front_nil] at h
    cases h
  cases t with
  | openParen =>
    rw [front_paren, bind_eq_ok] at h
    obtain ⟨⟨e', after⟩, hor, hclose⟩ := h
    obtain ⟨used, rfl, hused⟩ := ih ts (by simp) e' after hor
    unfold close at hclose
    split at hclose
    · next heq =>
      cases hclose
      simp only at heq
      exact ⟨.openParen :: used ++ [.closeParen], by simp [heq], .paren hused⟩
    · cases hclose
  | number n =>
    rw [front_number] at h
    split at h
    · next hfinite =>
      cases h
      exact ⟨[.number n], rfl, .number hfinite⟩
    · cases h
  | string s =>
    rw [front_string] at h
    cases h
    exact ⟨[.string s], rfl, .string s⟩
  | ident w =>
    cases hv : wordValue? w with
    | some v =>
      rw [front_word hv] at h
      cases h
      exact ⟨[.ident w], rfl, wordValue?_eq_some hv⟩
    | none =>
      by_cases hw : w = "ctx"
      · subst hw
        rw [front_ctx, bind_eq_ok] at h
        obtain ⟨⟨_ | ⟨s, path⟩, after⟩, hpath, hfield⟩ := h
        · cases hfield
        · cases hfield
          obtain ⟨used, rfl, hused⟩ := segments_of_path hpath
          exact ⟨.ident "ctx" :: used, rfl, .field hused⟩
      · rw [front_unknown hv hw] at h
        cases h
  | _ =>
    rw [front_unexpected rfl] at h
    cases h

theorem sound_comparison (ih : ∀ us, us.length ≤ ts.length → Sound .operand us) :
    Sound .comparison ts := by
  intro e rest h
  rw [front_comparison, bind_eq_ok] at h
  obtain ⟨⟨l, after⟩, hl, h⟩ := h
  obtain ⟨used, rfl, hused⟩ := ih ts (Nat.le_refl _) l after hl
  unfold compareWith at h
  split at h
  · next op us heq =>
    obtain rfl : after = .compare op :: us := heq
    rw [bind_eq_ok] at h
    obtain ⟨⟨r, left⟩, hr, heq⟩ := h
    cases heq
    obtain ⟨used', rfl, hused'⟩ := ih us (by simp; omega) r _ hr
    exact ⟨used ++ .compare op :: used', by simp, .compare op hused hused'⟩
  · cases h
    exact ⟨used, rfl, .operand hused⟩

theorem sound_unary (ih : ∀ us, us.length ≤ ts.length → Sound .comparison us) :
    Sound .unary ts := by
  have other {ts : List Token} (ih : Sound .comparison ts) (h : ts.head? ≠ some .not) :
      Sound .unary ts := by
    intro e rest hfront
    rw [front_unary h] at hfront
    obtain ⟨used, hts, hused⟩ := ih e rest hfront
    exact ⟨used, hts, .unary hused⟩
  induction ts with
  | nil => exact other (ih [] (Nat.le_refl _)) (by simp)
  | cons t ts ihts =>
    by_cases ht : t = .not
    · subst ht
      intro e rest h
      rw [front_not, bind_eq_ok] at h
      obtain ⟨⟨e', after⟩, hunary, heq⟩ := h
      cases heq
      obtain ⟨used, rfl, hused⟩ := ihts (fun us hus => ih us (Nat.le_succ_of_le hus)) e' _ hunary
      exact ⟨.not :: used, rfl, .not hused⟩
    · exact other (ih (t :: ts) (Nat.le_refl _)) (by simp [ht])

/-- The loop of a chain keeps what is derived before it. -/
theorem Chain.sound_resume (c : Chain k lower op join)
    (ih : ∀ vs, vs.length ≤ ts.length → Sound lower vs) (hl : Derives k us l)
    (h : resume k l ts = .ok (e, rest)) :
    ∃ used, ts = used ++ rest ∧ Derives k (us ++ used) e := by
  induction hn : ts.length using Nat.strongRecOn generalizing ts us l with
  | _ n ihn =>
    by_cases hop : ts.head? = some op
    · obtain ⟨vs, rfl⟩ := List.head?_eq_some_iff.1 hop
      rw [c.resume_op, bind_eq_ok] at h
      obtain ⟨⟨r, after⟩, hr, h⟩ := h
      change resume k (join l r) after = .ok (e, rest) at h
      obtain ⟨used, rfl, hused⟩ := ih vs (by simp) r after hr
      have hlen : after.length < n := by
        simp only [List.length_cons, List.length_append] at hn
        omega
      obtain ⟨used', rfl, hused'⟩ := ihn after.length hlen
        (fun ws hws => ih ws (by simp only [hn]; omega)) (c.more hl hused) h rfl
      exact ⟨op :: used ++ used', by simp, by simpa using hused'⟩
    · rw [c.resume_stop l hop] at h
      cases h
      exact ⟨[], rfl, by simpa using hl⟩

theorem Chain.sound (c : Chain k lower op join)
    (ih : ∀ us, us.length ≤ ts.length → Sound lower us) : Sound k ts := by
  intro e rest h
  rw [c.front_eq, bind_eq_ok] at h
  obtain ⟨⟨l, after⟩, hl, h⟩ := h
  obtain ⟨used, rfl, hused⟩ := ih ts (Nat.le_refl _) l after hl
  obtain ⟨used', rfl, hused'⟩ := c.sound_resume
    (fun us hus => ih us (by simp only [List.length_append] at hus ⊢; omega)) (c.first hused) h
  exact ⟨used ++ used', by simp, hused'⟩

/-- What the parser finds for a symbol is derived from the tokens before what it leaves. -/
theorem sound_front (k : Level) (ts : List Token) : Sound k ts := by
  induction hn : ts.length using Nat.strongRecOn generalizing k ts with
  | _ n ih =>
    subst hn
    have operand (us : List Token) (hus : us.length ≤ ts.length) : Sound .operand us :=
      sound_operand fun vs hvs => ih vs.length (by omega) .or vs rfl
    have comparison (us : List Token) (hus : us.length ≤ ts.length) : Sound .comparison us :=
      sound_comparison fun vs hvs => operand vs (by omega)
    have unary (us : List Token) (hus : us.length ≤ ts.length) : Sound .unary us :=
      sound_unary fun vs hvs => comparison vs (by omega)
    have and (us : List Token) (hus : us.length ≤ ts.length) : Sound .and us :=
      chain_and.sound fun vs hvs => unary vs (by omega)
    cases k with
    | operand => exact operand ts (Nat.le_refl _)
    | comparison => exact comparison ts (Nat.le_refl _)
    | unary => exact unary ts (Nat.le_refl _)
    | and => exact and ts (Nat.le_refl _)
    | or => exact chain_or.sound and

/-! ### What is derived is found -/

/-- The symbol that a symbol is made of; an operand is made of tokens. -/
def Level.below : Level → Level
  | .or => .and
  | .and => .unary
  | .unary => .comparison
  | .comparison | .operand => .operand

/-- Whether a token may belong to the last part of a symbol that stands before it. -/
def continues : Level → Token → Bool
  | _, .dot => Bool.true
  | .operand, _ => Bool.false
  | _, .compare _ => Bool.true
  | .or, .and => Bool.true
  | _, _ => Bool.false

/-- Some tokens do not continue the last part of the symbol before them. -/
def Ends (k : Level) (rest : List Token) : Prop := ∀ t ∈ rest.head?, continues k t = Bool.false

theorem ends_cons : Ends k (t :: ts) ↔ continues k t = Bool.false := by simp [Ends]

theorem Ends.head?_ne (h : Ends k rest) (ht : continues k t = Bool.true) : rest.head? ≠ some t := by
  intro hrest
  rw [h t hrest] at ht
  cases ht

theorem Ends.below (h : Ends k rest) : Ends k.below rest := by
  intro t ht
  have := h t ht
  cases k <;> cases t <;> first | rfl | cases this

theorem compareWith_of_ends (h : Ends .comparison rest) : compareWith l rest = .ok (l, rest) := by
  unfold compareWith
  split
  · next op _ => exact absurd rfl (h.head?_ne (t := .compare op) rfl)
  · rfl

theorem path_of_segments {path : List String} (h : Segments ts path) (hrest : Ends .operand rest) :
    plain (parsePath (ts ++ rest)) = .ok (path, rest) := by
  induction h with
  | nil => exact path_stop (hrest.head?_ne rfl)
  | cons hs _ ih =>
    rw [List.cons_append, List.cons_append, path_segment hs, ih]
    rfl

/-- What is derived is found, unless the tokens behind it continue it. -/
theorem complete_front (h : Derives k ts e) (hrest : Ends k rest) :
    front k (ts ++ rest) = resume k e rest := by
  induction h generalizing rest with
  | or _ ih =>
    rw [chain_or.front_eq, ih hrest.below, chain_and.resume_stop _ (hrest.head?_ne rfl)]
    rfl
  | @orMore ts us l r _ _ ihl ihr =>
    have hl : front .or (ts ++ (.or :: us ++ rest)) = resume .or l (.or :: (us ++ rest)) :=
      ihl (ends_cons.2 rfl)
    rw [List.append_assoc, hl, chain_or.resume_op, ihr hrest.below,
      chain_and.resume_stop _ (hrest.head?_ne rfl)]
    rfl
  | and _ ih =>
    rw [chain_and.front_eq, ih hrest.below]
    rfl
  | @andMore ts us l r _ _ ihl ihr =>
    have hl : front .and (ts ++ (.and :: us ++ rest)) = resume .and l (.and :: (us ++ rest)) :=
      ihl (ends_cons.2 rfl)
    rw [List.append_assoc, hl, chain_and.resume_op, ihr hrest.below]
    rfl
  | not _ ih =>
    rw [List.cons_append, front_not, ih hrest]
    rfl
  | @unary ts e _ ih =>
    have hfront : front .comparison (ts ++ rest) = .ok (e, rest) := ih hrest.below
    rw [front_unary, hfront]
    · rfl
    · intro hnot
      obtain ⟨us, hus⟩ := List.head?_eq_some_iff.1 hnot
      rw [hus, front_comparison, front_unexpected rfl] at hfront
      cases hfront
  | @compare ts us l r op _ _ ihl ihr =>
    have hl : front .operand (ts ++ (.compare op :: us ++ rest)) =
        .ok (l, .compare op :: (us ++ rest)) := ihl (ends_cons.2 rfl)
    have hr : front .operand (us ++ rest) = .ok (r, rest) := ihr hrest.below
    rw [List.append_assoc, front_comparison, hl]
    change front .operand (us ++ rest) >>= _ = _
    rw [hr]
    rfl
  | @operand ts e _ ih =>
    have hfront : front .operand (ts ++ rest) = .ok (e, rest) := ih hrest.below
    rw [front_comparison, hfront]
    exact compareWith_of_ends hrest
  | @paren ts e _ ih =>
    have hor : front .or (ts ++ ([.closeParen] ++ rest)) = resume .or e (.closeParen :: rest) :=
      ih (ends_cons.2 rfl)
    rw [chain_or.resume_stop e (by simp)] at hor
    rw [List.append_assoc, List.cons_append, front_paren, hor]
    rfl
  | number finite =>
    rw [List.cons_append, front_number, if_pos finite]
    rfl
  | string s => exact front_string s
  | true => exact front_word rfl
  | false => exact front_word rfl
  | null => exact front_word rfl
  | field segments =>
    rw [List.cons_append, front_ctx, path_of_segments segments hrest]
    rfl

/-! ### The parser -/

/-- The parser accepts some tokens if a disjunction stands in front of them and leaves none. -/
theorem ofTokens_eq_ok_iff_front : ofTokens ts = .ok e ↔ front .or ts = .ok (e, []) := by
  rw [front, ofTokens]
  rcases hp : parseOr ts with f | ⟨e', rest, hlen⟩
  · simp only [plain, Except.map]
    split <;> simp
  · have hne : ts.isEmpty = Bool.false := by
      cases ts
      · simp at hlen
      · rfl
    rw [hne]
    cases rest <;> simp [plain, Except.map]

/-- The parser accepts the tokens that the grammar derives, and gives their expression. -/
theorem ofTokens_eq_ok_iff : ofTokens ts = .ok e ↔ Derives .or ts e := by
  rw [ofTokens_eq_ok_iff_front]
  constructor
  · intro h
    obtain ⟨used, hts, hused⟩ := sound_front .or ts e [] h
    rw [List.append_nil] at hts
    exact hts ▸ hused
  · intro h
    rw [← List.append_nil ts, complete_front h (by simp [Ends])]
    exact chain_or.resume_stop e (by simp)

/-- The parser accepts what the grammar derives, all of it; a list of tokens is derived as one
expression at most, and the parser gives that one.  Any other list of tokens is refused, and a text
with these tokens is an invalid expression. -/
theorem ofTokens_grammar (ts : List Token) :
    (∀ e, ofTokens ts = .ok e ↔ Derives .or ts e) ∧
      (∀ e e', Derives .or ts e → Derives .or ts e' → e = e') ∧
      ((∀ e, ¬ Derives .or ts e) → ∃ f, ofTokens ts = .error f ∧
        ∀ text, Token.scan text = .ok ts →
          (Cache.empty.compile text).1 = .error (.invalidExpression f)) := by
  refine ⟨fun e => ofTokens_eq_ok_iff, fun e e' h h' => ?_, fun h => ?_⟩
  · rw [← ofTokens_eq_ok_iff] at h h'
    rw [h] at h'
    cases h'
    rfl
  · cases hp : ofTokens ts with
    | ok e => exact absurd (ofTokens_eq_ok_iff.1 hp) (h e)
    | error f =>
      refine ⟨f, rfl, fun text htext => ?_⟩
      rw [Cache.compile_fst Cache.faithful_empty, parse, htext]
      simp only [hp]
      rfl

/-- A negation covers the comparison behind it, and a conjunction binds tighter than a
disjunction. -/
example : ofTokens [.not, .ident "null", .compare .eq, .ident "null", .or, .ident "true", .and,
      .ident "false"] =
    .ok (.or (.not (.compare .eq (.literal .null) (.literal .null)))
      (.and (.literal (.bool Bool.true)) (.literal (.bool Bool.false)))) := by
  cbv

end Statechart.Expr
