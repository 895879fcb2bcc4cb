import Mathlib.Data.List.Chain
import Statechart.Proofs.Expr.Grammar
import Statechart.Proofs.Text.Words

/-!
# Expressions as they are written

Expressions are written with parentheses around the operands of every operator, strings between
quotes, and any blanks between the tokens.  Such a text is read as the expression again.

* `Token.text` writes a token, and `Token.spread` a list of tokens with gaps around them;
* `Token.scanChars_spread`: the scan finds the tokens that are written, if no two neighbours run
  into each other;
* `tokens`: the tokens of an expression; `Writable.derives`: the grammar derives them as that
  expression;
* `parse_spread`: the text of an expression is parsed as that expression.
-/

namespace Statechart.Expr

/-! ### Tokens -/

/-- Whether a word is an ASCII identifier: letters, digits and underscores, with no digit first. -/
def isIdentifier (w : String) : Bool :=
  match w.toList with
  | [] => false
  | c :: cs => (c.isAlpha || c = '_') && cs.all fun d => d.isAlphanum || d = '_'

namespace Token

/-- How a character of a string is written: a backslash stands before quotes and backslashes. -/
def escape (c : Char) : List Char := if c = '"' ∨ c = '\\' then ['\\', c] else [c]

/-- How a token is written. -/
def text : Token → List Char
  | ident w => w.toList
  | dot => ['.']
  | number n => (if n.negative then ['-'] else []) ++ n.whole ++
      if n.fraction = [] then [] else '.' :: n.fraction
  | string s => '"' :: s.toList.flatMap escape ++ ['"']
  | compare op => op.symbol.toList
  | not => ['!']
  | and => ['&', '&']
  | or => ['|', '|']
  | openParen => ['(']
  | closeParen => [')']

/-- Tokens one behind the other, with a gap before each and behind the last. -/
def spread (gap : Nat → List Char) : List Token → List Char
  | [] => gap 0
  | t :: ts => gap 0 ++ t.text ++ spread (fun i => gap (i + 1)) ts

/-- The tokens that an expression without numbers is written with. -/
def Plain : Token → Prop
  | ident w => isIdentifier w
  | number _ => False
  | _ => True

/-- Whether a character directly behind a token would be read with it. -/
def extends? (t : Token) (c : Char) : Bool :=
  match t with
  | ident _ => isWordChar c
  | not | compare .gt | compare .lt => c = '='
  | _ => false

/-- A token ends where some characters follow it. -/
def StopsAt (t : Token) (rest : List Char) : Prop := ∀ c ∈ rest.head?, t.extends? c = false

/-- Two tokens may be written without a gap between them. -/
def Apart (t u : Token) : Prop := t.StopsAt u.text

end Token

/-- The code points of blanks. -/
def blanks : List Nat :=
  [0x09, 0x0A, 0x0B, 0x0C, 0x0D, 0x20, 0x85, 0xA0, 0x1680, 0x2000, 0x2001, 0x2002, 0x2003, 0x2004,
    0x2005, 0x2006, 0x2007, 0x2008, 0x2009, 0x200A, 0x2028, 0x2029, 0x202F, 0x205F, 0x3000]

theorem mem_blanks {c : Char} (h : Text.isBlank c) : c.toNat ∈ blanks := by
  simp [Text.isBlank, Text.inRanges, Text.blankRanges] at h
  simp [blanks]
  omega

/-- No blank stands in a word. -/
theorem isWordChar_of_isBlank {c : Char} (h : Text.isBlank c) : isWordChar c = false := by
  have hall : ∀ n ∈ blanks, isWordChar (Char.ofNat n) = false := by decide +kernel
  have := hall c.toNat (mem_blanks h)
  rwa [Char.ofNat_toNat] at this

/-- No word starts or goes on with a blank. -/
theorem not_isBlank_of_isWordChar {c : Char} (h : isWordChar c = true) :
    Text.isBlank c = false := by
  refine Bool.eq_false_iff.2 fun hblank => ?_
  rw [isWordChar_of_isBlank hblank] at h
  cases h

theorem isAlpha_iff {c : Char} : c.isAlpha = true ↔
    65 ≤ c.toNat ∧ c.toNat ≤ 90 ∨ 97 ≤ c.toNat ∧ c.toNat ≤ 122 := by
  change (decide (65 ≤ c.val ∧ c.val ≤ 90) || (decide (97 ≤ c.val) && decide (c.val ≤ 122))) = true ↔
    65 ≤ c.val.toNat ∧ c.val.toNat ≤ 90 ∨ 97 ≤ c.val.toNat ∧ c.val.toNat ≤ 122
  simp [UInt32.le_iff_toNat_le]

theorem isDigit_iff {c : Char} : c.isDigit = true ↔ 48 ≤ c.toNat ∧ c.toNat ≤ 57 := by
  change (decide (48 ≤ c.val) && decide (c.val ≤ 57)) = true ↔ 48 ≤ c.val.toNat ∧ c.val.toNat ≤ 57
  simp [UInt32.le_iff_toNat_le]

theorem isWordChar_of_ascii {c : Char} (h : (c.isAlphanum || c = '_') = true) :
    isWordChar c = true := by
  rw [Bool.or_eq_true, decide_eq_true_eq] at h
  rcases h with h | rfl
  · have hlt : c.toNat < 0x80 := by
      have hc := h
      rw [Char.isAlphanum, Bool.or_eq_true, isAlpha_iff, isDigit_iff] at hc
      omega
    simp [isWordChar, Text.isLetterOrDigit, hlt, h]
  · rfl

theorem first_of_identifier {c : Char} (h : (c.isAlpha || c = '_') = true) :
    c.isDigit = false ∧ isWordChar c = true := by
  rw [Bool.or_eq_true, decide_eq_true_eq] at h
  rcases h with h | rfl
  · refine ⟨?_, isWordChar_of_ascii (by simp [Char.isAlphanum, h])⟩
    rw [← Bool.not_eq_true, isDigit_iff]
    rw [isAlpha_iff] at h
    omega
  · exact ⟨rfl, rfl⟩

/-- An identifier is a word that does not start like a number. -/
theorem exists_cons_of_isIdentifier {w : String} (h : isIdentifier w = true) :
    ∃ c cs, w.toList = c :: cs ∧ c.isDigit = false ∧ ∀ d ∈ c :: cs, isWordChar d = true := by
  unfold isIdentifier at h
  split at h
  · cases h
  · next c cs hw =>
    rw [Bool.and_eq_true, List.all_eq_true] at h
    obtain ⟨hdigit, hc⟩ := first_of_identifier h.1
    exact ⟨c, cs, hw, hdigit,
      List.forall_mem_cons.2 ⟨hc, fun d hd => isWordChar_of_ascii (h.2 d hd)⟩⟩

namespace Token

variable {t u : Token} {ts : List Token} {gap : Nat → List Char} {rest : List Char}

/-! ### The scan of a token -/

/-- A string is read up to its closing quote. -/
theorem scanString_escape (s rest : List Char) :
    scanString (s.flatMap escape ++ '"' :: rest) = some (s, rest) := by
  induction s with
  | nil => rfl
  | cons c s ih =>
    rw [List.flatMap_cons, List.append_assoc]
    by_cases h : c = '"' ∨ c = '\\'
    · have hescape : escape c = ['\\', c] := if_pos h
      rw [hescape, List.cons_append, List.singleton_append, scanString, ih]
      rcases h with rfl | rfl <;> rfl
    · have hescape : escape c = [c] := if_neg h
      rw [not_or] at h
      rw [hescape, List.singleton_append, scanString, ih]
      · rfl
      · exact h.1
      · intro d rest' hc
        exact absurd hc h.2
      · intro hc
        exact absurd hc h.2

/-- A word goes as far as its characters. -/
theorem next_word {c : Char} (hc : isWordChar c = true) (hdigit : c.isDigit = false)
    (rest : List Char) : next c rest =
      .ok (ident (String.ofList (c :: rest.takeWhile isWordChar)), rest.dropWhile isWordChar) := by
  have hminus : c ≠ '-' := by
    rintro rfl
    exact absurd hc (by decide)
  unfold next
  split
  case h_14 => simp [hdigit, hminus, hc]
  all_goals exact absurd hc (by decide)

/-- A token is written from a character that is no blank, and found where it ends. -/
theorem next_text (ht : t.Plain) : ∃ c cs, t.text = c :: cs ∧ Text.isBlank c = false ∧
    ∀ rest, t.StopsAt rest → next c (cs ++ rest) = .ok (t, rest) := by
  cases t with
  | ident w =>
    obtain ⟨c, cs, hcs, hdigit, hall⟩ := exists_cons_of_isIdentifier ht
    have hc := hall c (List.mem_cons_self ..)
    refine ⟨c, cs, hcs, not_isBlank_of_isWordChar hc, fun rest hrest => ?_⟩
    obtain ⟨htake, hdrop⟩ :=
      Text.takeWhile_of_stops (fun d hd => hall d (List.mem_cons_of_mem _ hd)) hrest
    rw [next_word hc hdigit, htake, hdrop, ← hcs, String.ofList_toList]
  | number => cases ht
  | string s =>
    refine ⟨'"', s.toList.flatMap escape ++ ['"'], rfl, by decide, fun rest _ => ?_⟩
    simp only [List.append_assoc, List.singleton_append, next, scanString_escape,
      String.ofList_toList]
  | not =>
    refine ⟨'!', [], rfl, by decide, fun rest hrest => ?_⟩
    rw [List.nil_append, next]
    rintro _ rfl
    cases hrest '=' rfl
  | compare op =>
    cases op with
    | eq => exact ⟨'=', ['='], rfl, by decide, fun _ _ => rfl⟩
    | ne => exact ⟨'!', ['='], rfl, by decide, fun _ _ => rfl⟩
    | ge => exact ⟨'>', ['='], rfl, by decide, fun _ _ => rfl⟩
    | le => exact ⟨'<', ['='], rfl, by decide, fun _ _ => rfl⟩
    | gt =>
      refine ⟨'>', [], rfl, by decide, fun rest hrest => ?_⟩
      rw [List.nil_append, next]
      rintro _ rfl
      cases hrest '=' rfl
    | lt =>
      refine ⟨'<', [], rfl, by decide, fun rest hrest => ?_⟩
      rw [List.nil_append, next]
      rintro _ rfl
      cases hrest '=' rfl
  | _ => exact ⟨_, _, rfl, by decide, fun _ _ => rfl⟩

theorem not_extends?_of_isBlank {c : Char} (h : Text.isBlank c = true) (t : Token) :
    t.extends? c = false := by
  have hc : c ≠ '=' := by
    rintro rfl
    exact absurd h (by decide)
  unfold extends?
  split
  · exact isWordChar_of_isBlank h
  all_goals simp [hc]

/-! ### The scan of a text -/

/-- A token ends where a gap begins, or a token that may stand next to it. -/
theorem stopsAt_spread (hgap : ∀ i, ∀ c ∈ gap i, Text.isBlank c = true) (hts : ∀ u ∈ ts, u.Plain)
    (hapart : ∀ u ∈ ts.head?, t.Apart u) : t.StopsAt (spread gap ts) := by
  intro c hc
  cases hgap₀ : gap 0 with
  | cons d ds =>
    have hd : Text.isBlank d = true := hgap 0 d (by simp [hgap₀])
    have hcd : c = d := by cases ts <;> simpa [spread, hgap₀, eq_comm] using hc
    exact hcd ▸ not_extends?_of_isBlank hd t
  | nil =>
    cases ts with
    | nil => simp [spread, hgap₀] at hc
    | cons u ts =>
      obtain ⟨d, ds, htext, -⟩ := next_text (hts u (List.mem_cons_self ..))
      exact hapart u rfl c (by simpa [spread, hgap₀, htext] using hc)

theorem scanChars_gap {g : List Char} (hg : ∀ c ∈ g, Text.isBlank c = true) (rest : List Char) :
    scanChars (g ++ rest) = scanChars rest := by
  induction g with
  | nil => rfl
  | cons c g ih =>
    rw [List.cons_append, scanChars, if_pos (hg c (List.mem_cons_self ..))]
    exact ih fun d hd => hg d (List.mem_cons_of_mem _ hd)

theorem scanChars_next {c : Char} {cs : List Char} (hc : Text.isBlank c = false)
    (hnext : next c cs = .ok (t, rest)) (hrest : scanChars rest = .ok ts) :
    scanChars (c :: cs) = .ok (t :: ts) := by
  rw [scanChars, if_neg (by simp [hc])]
  split
  · next heq =>
    rw [hnext] at heq
    cases heq
  · next heq =>
    rw [hnext] at heq
    cases heq
    rw [hrest]

/-- The scan finds the tokens that are written. -/
theorem scanChars_spread (hgap : ∀ i, ∀ c ∈ gap i, Text.isBlank c = true)
    (hts : ∀ t ∈ ts, t.Plain) (hapart : ts.IsChain Apart) : scanChars (spread gap ts) = .ok ts := by
  induction ts generalizing gap with
  | nil =>
    have hnil := scanChars_gap (hgap 0) []
    rw [List.append_nil] at hnil
    rw [spread, hnil, scanChars]
  | cons t ts ih =>
    have hts' : ∀ u ∈ ts, u.Plain := fun u hu => hts u (List.mem_cons_of_mem _ hu)
    have hgap' : ∀ i, ∀ c ∈ gap (i + 1), Text.isBlank c = true := fun i => hgap (i + 1)
    rw [List.isChain_cons] at hapart
    obtain ⟨c, cs, htext, hblank, hnext⟩ := next_text (hts t (List.mem_cons_self ..))
    rw [spread, List.append_assoc, scanChars_gap (hgap 0), htext, List.cons_append]
    exact scanChars_next hblank (hnext _ (stopsAt_spread hgap' hts' hapart.1))
      (ih hgap' hts' hapart.2)

end Token

/-! ### Expressions -/

/-- The tokens of an operand in parentheses. -/
def paren (ts : List Token) : List Token := .openParen :: ts ++ [.closeParen]

/-- The token of a literal that is no number, array or object. -/
def literalTokens : Json → List Token
  | .string s => [.string s]
  | .bool true => [.ident "true"]
  | .bool false => [.ident "false"]
  | .null => [.ident "null"]
  | _ => []

/-- The tokens of an expression, with parentheses around the operands of its operators. -/
def tokens : Expr → List Token
  | literal v => literalTokens v
  | field path => .ident "ctx" :: path.flatMap fun s => [.dot, .ident s]
  | not e => .not :: paren e.tokens
  | and l r => paren l.tokens ++ .and :: paren r.tokens
  | or l r => paren l.tokens ++ .or :: paren r.tokens
  | compare op l r => paren l.tokens ++ .compare op :: paren r.tokens

example : String.ofList (Token.spread (fun _ => [])
    (not (compare .ge (field ["a", "b"]) (literal (.string "\"")))).tokens) =
      "!((ctx.a.b)>=(\"\\\"\"))" := by
  decide

/-- The expressions that are written in this way: their literals are strings, booleans and null, and
their paths have a segment and consist of identifiers. -/
inductive Writable : Expr → Prop
  | string (s : String) : Writable (.literal (.string s))
  | bool (b : Bool) : Writable (.literal (.bool b))
  | null : Writable (.literal .null)
  | field {path : List String} (nonempty : path ≠ []) (names : ∀ s ∈ path, isIdentifier s) :
      Writable (.field path)
  | not {e : Expr} (inner : Writable e) : Writable (.not e)
  | and {l r : Expr} (left : Writable l) (right : Writable r) : Writable (.and l r)
  | or {l r : Expr} (left : Writable l) (right : Writable r) : Writable (.or l r)
  | compare (op : Comparison) {l r : Expr} (left : Writable l) (right : Writable r) :
      Writable (.compare op l r)

variable {e l r : Expr} {ts us : List Token}

/-- The tokens of an expression can be written, and no neighbours run into each other. -/
structure Spelled (ts : List Token) : Prop where
  plain : ∀ t ∈ ts, t.Plain
  apart : ts.IsChain Token.Apart

theorem apart_openParen (t : Token) : t.Apart .openParen := by
  rintro _ ⟨⟩
  rcases t with _ | _ | _ | _ | (_ | _ | _ | _ | _ | _) | _ | _ | _ | _ | _ <;> rfl

theorem apart_closeParen (t : Token) : t.Apart .closeParen := by
  rintro _ ⟨⟩
  rcases t with _ | _ | _ | _ | (_ | _ | _ | _ | _ | _) | _ | _ | _ | _ | _ <;> rfl

theorem Spelled.single {t : Token} (ht : t.Plain) : Spelled [t] where
  plain := by simpa using ht
  apart := .singleton t

theorem Spelled.paren (h : Spelled ts) : Spelled (paren ts) where
  plain t ht := by
    rw [Expr.paren, List.mem_append, List.mem_cons, List.mem_singleton] at ht
    rcases ht with (rfl | ht) | rfl
    · trivial
    · exact h.plain t ht
    · trivial
  apart := by
    rw [Expr.paren, List.isChain_append, List.isChain_cons]
    refine ⟨⟨fun _ _ _ _ => rfl, h.apart⟩, .singleton _, fun t _ u hu => ?_⟩
    cases hu
    exact apart_closeParen t

theorem getLast?_paren (ts : List Token) : (paren ts).getLast? = some .closeParen := by
  rw [paren, List.getLast?_append]
  rfl

theorem Spelled.unary {op : Token} (hop : op.Plain) (h : Spelled ts) :
    Spelled (op :: Expr.paren ts) where
  plain := List.forall_mem_cons.2 ⟨hop, h.paren.plain⟩
  apart := by
    refine List.isChain_cons.2 ⟨fun t ht => ?_, h.paren.apart⟩
    cases ht
    exact apart_openParen op

theorem Spelled.binary {op : Token} (hop : op.Plain) (hts : Spelled ts) (hus : Spelled us) :
    Spelled (Expr.paren ts ++ op :: Expr.paren us) where
  plain := List.forall_mem_append.2 ⟨hts.paren.plain, (hus.unary hop).plain⟩
  apart := by
    refine List.isChain_append.2 ⟨hts.paren.apart, (hus.unary hop).apart, fun t ht _ _ => ?_⟩
    rw [getLast?_paren] at ht
    cases ht
    exact fun _ _ => rfl

/-- The tokens of a path. -/
theorem Spelled.field {w : String} (hw : isIdentifier w) {path : List String}
    (hpath : ∀ s ∈ path, isIdentifier s) :
    Spelled (.ident w :: path.flatMap fun s => [.dot, .ident s]) := by
  induction path generalizing w with
  | nil => exact .single hw
  | cons s path ih =>
    rw [List.forall_mem_cons] at hpath
    have hrest := ih hpath.1 hpath.2
    refine ⟨List.forall_mem_cons.2 ⟨hw, List.forall_mem_cons.2 ⟨trivial, hrest.plain⟩⟩, ?_⟩
    refine .cons_cons ?_ (.cons_cons (fun _ _ => rfl) hrest.apart)
    rintro _ ⟨⟩
    exact (by decide : isWordChar '.' = false)

theorem Writable.spelled (h : e.Writable) : Spelled e.tokens := by
  induction h with
  | string s => exact .single trivial
  | bool b =>
    cases b with
    | true => exact .single (by decide : isIdentifier "true")
    | false => exact .single (by decide : isIdentifier "false")
  | null => exact .single (by decide : isIdentifier "null")
  | field _ names => exact .field (by decide) names
  | not _ ih => exact ih.unary trivial
  | and _ _ ihl ihr => exact ihl.binary trivial ihr
  | or _ _ ihl ihr => exact ihl.binary trivial ihr
  | compare _ _ _ ihl ihr => exact ihl.binary trivial ihr

/-- An operand is an expression. -/
theorem Derives.alone (h : Derives .operand ts e) : Derives .or ts e :=
  .or (.and (.unary (.operand h)))

theorem segments_names {path : List String} :
    Segments (path.flatMap fun s => [.dot, .ident s]) path := by
  induction path with
  | nil => exact .nil
  | cons s path ih => exact .cons (.name s) ih

/-- The grammar derives the tokens of an expression as that expression. -/
theorem Writable.derives (h : e.Writable) : Derives .or e.tokens e := by
  induction h with
  | string s => exact Derives.alone (.string s)
  | bool b =>
    cases b with
    | true => exact Derives.alone .true
    | false => exact Derives.alone .false
  | null => exact Derives.alone .null
  | @field path hne names =>
    obtain ⟨s, path, rfl⟩ := List.exists_cons_of_ne_nil hne
    exact Derives.alone (.field segments_names)
  | not _ ih => exact .or (.and (.not (.unary (.operand (.paren ih)))))
  | and _ _ ihl ihr =>
    exact .or (.andMore (.and (.unary (.operand (.paren ihl)))) (.unary (.operand (.paren ihr))))
  | or _ _ ihl ihr =>
    exact .orMore (Derives.alone (.paren ihl)) (.and (.unary (.operand (.paren ihr))))
  | compare op _ _ ihl ihr =>
    exact .or (.and (.unary (.compare op (.paren ihl) (.paren ihr))))

/-- The text of an expression, with any blanks between its tokens, is parsed as that expression. -/
theorem parse_spread {gap : Nat → List Char} (he : e.Writable)
    (hgap : ∀ i, ∀ c ∈ gap i, Text.isBlank c = true) :
    parse (String.ofList (Token.spread gap e.tokens)) = .ok e := by
  have hscan : Token.scan (String.ofList (Token.spread gap e.tokens)) = .ok e.tokens := by
    rw [Token.scan, String.toList_ofList]
    exact Token.scanChars_spread hgap he.spelled.plain he.spelled.apart
  rw [parse, hscan]
  exact ofTokens_eq_ok_iff.2 he.derives

/-- An expression whose string holds what has to be escaped, and a path with the name of a literal. -/
def overdue : Expr :=
  .or (.not (.compare .ge (.field ["order", "true"]) (.literal (.bool false))))
    (.and (.literal (.string "a \"b\" \\n")) (.literal .null))

/-- Blanks of several kinds, in every other gap. -/
def unevenGap (i : Nat) : List Char := if i % 2 = 0 then [' ', '\n', '\u00a0'] else []

theorem parse_spread_overdue : overdue.Writable ∧
    (∀ i, ∀ c ∈ unevenGap i, Text.isBlank c = true) ∧
      parse (String.ofList (Token.spread unevenGap overdue.tokens)) = .ok overdue := by
  have hwritable : overdue.Writable :=
    .or (.not (.compare .ge (.field (by decide) (by decide)) (.bool false)))
      (.and (.string _) .null)
  have hgap : ∀ i, ∀ c ∈ unevenGap i, Text.isBlank c = true := by
    intro i
    rw [← List.all_eq_true]
    unfold unevenGap
    split <;> decide
  exact ⟨hwritable, hgap, parse_spread hwritable hgap⟩

end Statechart.Expr
