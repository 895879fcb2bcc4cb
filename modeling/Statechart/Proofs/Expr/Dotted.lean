import Statechart.Proofs.Expr.Assignment
import Statechart.Proofs.Expr.Spelling

/-!
# Paths as they are written

A path is written as its segments behind the mark `ctx`, with a dot before each.  Where a value is
assigned the text is cut at its dots, but where it is read a number takes what follows its dot with
it if that is a number too.

* `Scanned`: the tokens that the scan finds in a path (`Scanned.scanChars_eq`);
* `Spaced`: no number directly follows another one;
* `Reading`: what is read from the tokens of a path (`Scanned.reading`): the path if it is spaced,
  and otherwise a shorter one or none;
* `parse_fieldText`: all this for the text of a path, and what it means for an assignment.
-/

namespace Statechart.Expr

/-- A number that is a segment of a path: a whole one that a double represents, like all smaller
ones, without superfluous zeros. -/
def IsIndex (s : String) : Prop := ∃ n < Nat.pow 2 53, s = toString n

/-- A segment of a path. -/
def IsSegment (s : String) : Prop := isIdentifier s = true ∨ IsIndex s

/-- No number directly follows another one. -/
def Spaced (path : List String) : Prop :=
  path.IsChain fun s t => isIdentifier s = true ∨ isIdentifier t = true

/-- The text of a path. -/
def fieldText (path : List String) : String := "ctx." ++ ".".intercalate path

/-- The characters of some segments, each behind its dot. -/
def pathChars (path : List String) : List Char := path.flatMap fun s => '.' :: s.toList

variable {path : List String} {ts : List Token} {rest ds : List Char} {c d : Char} {n : Nat}

/-! ### Numbers -/

theorem isDigit_of_mem_toString (h : c ∈ (toString n).toList) : c.isDigit = true := by
  rw [Text.toList_toString] at h
  exact Nat.isDigit_of_mem_toDigits (by decide) (Nat.le_refl 10) h

/-- A number has a digit, and nothing but digits. -/
theorem exists_cons_of_toString (n : Nat) :
    ∃ d ds, (toString n).toList = d :: ds ∧ d.isDigit = true ∧ ∀ x ∈ ds, x.isDigit = true := by
  have hne : (toString n).toList ≠ [] := by
    rw [Text.toList_toString]
    exact Nat.toDigits_ne_nil
  obtain ⟨d, ds, hds⟩ := List.exists_cons_of_ne_nil hne
  have hall : ∀ x ∈ d :: ds, x.isDigit = true := fun x hx => isDigit_of_mem_toString (hds ▸ hx)
  exact ⟨d, ds, hds, List.forall_mem_cons.1 hall⟩

theorem decimalValue_toString (n : Nat) : Text.decimalValue (toString n).toList = n := by
  rw [Text.decimalValue]
  simpa only [Nat.ofDigitChars, Nat.mul_comm] using Text.ofDigitChars_toString n

theorem segment?_toString (hn : n < Nat.pow 2 53) :
    Numeral.segment? ⟨false, (toString n).toList, []⟩ = some (toString n) := by
  rw [Numeral.segment?]
  simp only [decimalValue_toString]
  exact if_pos ⟨trivial, trivial, hn⟩

/-- No number is an identifier. -/
theorem isIdentifier_toString (n : Nat) : isIdentifier (toString n) = false := by
  refine Bool.eq_false_iff.2 fun h => ?_
  obtain ⟨c, cs, hcs, hdigit, -⟩ := exists_cons_of_isIdentifier h
  have hc : c ∈ (toString n).toList := by rw [hcs]; exact List.mem_cons_self ..
  rw [isDigit_of_mem_toString hc] at hdigit
  cases hdigit

/-! ### The scan of a path -/

/-- A number goes as far as its digits, and as those behind the next point. -/
theorem Token.next_number (hd : d.isDigit = true) (hds : ∀ x ∈ ds, x.isDigit = true)
    (hrest : ∀ x ∈ rest.head?, x.isDigit = false) : Token.next d (ds ++ rest) =
      .ok (.number ⟨false, d :: ds, (scanFraction rest).1⟩, (scanFraction rest).2) := by
  obtain ⟨htake, hdrop⟩ := Text.takeWhile_of_stops hds hrest
  unfold Token.next
  split
  case h_14 => simp [hd, scanNumber, htake, hdrop]
  all_goals exact absurd hd (by decide)

theorem pathChars_cons (s : String) (path : List String) :
    pathChars (s :: path) = '.' :: (s.toList ++ pathChars path) := List.flatMap_cons

theorem head?_pathChars (h : c ∈ (pathChars path).head?) : c = '.' := by
  cases path with
  | nil => cases h
  | cons s path =>
    cases h
    rfl

theorem isDigit_of_head? (h : c ∈ (pathChars path).head?) : c.isDigit = false := by
  rw [head?_pathChars h]
  rfl

/-- An identifier behind a number is no part of it. -/
theorem scanFraction_pathChars (h : ∀ s ∈ path.head?, isIdentifier s = true) :
    scanFraction (pathChars path) = ([], pathChars path) := by
  cases path with
  | nil => rfl
  | cons s path =>
    obtain ⟨c, cs, hcs, hdigit, -⟩ := exists_cons_of_isIdentifier (h s rfl)
    rw [pathChars_cons, hcs, List.cons_append, scanFraction]
    simp [hdigit]

/-- Another number behind it is. -/
theorem scanFraction_toString (n : Nat) (path : List String) :
    scanFraction ('.' :: ((toString n).toList ++ pathChars path)) =
      ((toString n).toList, pathChars path) := by
  obtain ⟨d, ds, hds, hd, hall⟩ := exists_cons_of_toString n
  have hstops : ∀ x ∈ (pathChars path).head?, x.isDigit = false := fun _ => isDigit_of_head?
  obtain ⟨htake, hdrop⟩ := Text.takeWhile_of_stops hall hstops
  rw [hds, List.cons_append, scanFraction, if_pos hd, htake, hdrop]

/-- The tokens that the scan finds in a path: a number takes the next segment with it if that is a
number too. -/
inductive Scanned : List String → List Token → Prop
  | nil : Scanned [] []
  | name {w : String} {path : List String} {ts : List Token} (hw : isIdentifier w = true)
      (tail : Scanned path ts) : Scanned (w :: path) (.dot :: .ident w :: ts)
  | index {n : Nat} {path : List String} {ts : List Token} (hn : n < Nat.pow 2 53)
      (hnext : ∀ s ∈ path.head?, isIdentifier s = true) (tail : Scanned path ts) :
      Scanned (toString n :: path) (.dot :: .number ⟨false, (toString n).toList, []⟩ :: ts)
  | merged (m n : Nat) {path : List String} {ts : List Token} (tail : Scanned path ts) :
      Scanned (toString m :: toString n :: path)
        (.dot :: .number ⟨false, (toString m).toList, (toString n).toList⟩ :: ts)

theorem exists_scanned : ∀ path : List String, (∀ s ∈ path, IsSegment s) → ∃ ts, Scanned path ts
  | [], _ => ⟨_, .nil⟩
  | [s], h => by
    rcases h s (List.mem_singleton_self s) with hw | ⟨n, hn, rfl⟩
    · exact ⟨_, .name hw .nil⟩
    · exact ⟨_, .index hn (fun _ hs => by cases hs) .nil⟩
  | s :: t :: path, h => by
    have ht := List.forall_mem_of_forall_mem_cons h
    obtain ⟨ts, hts⟩ := exists_scanned (t :: path) ht
    rcases h s (List.mem_cons_self ..) with hw | ⟨m, hm, rfl⟩
    · exact ⟨_, .name hw hts⟩
    · rcases ht t (List.mem_cons_self ..) with hw | ⟨n, -, rfl⟩
      · exact ⟨_, .index hm (fun _ hs => by cases hs; exact hw) hts⟩
      · obtain ⟨us, hus⟩ := exists_scanned path (List.forall_mem_of_forall_mem_cons ht)
        exact ⟨_, .merged m n hus⟩

/-- A dot is a token by itself. -/
theorem scanChars_dot (h : Token.scanChars rest = .ok ts) :
    Token.scanChars ('.' :: rest) = .ok (.dot :: ts) :=
  Token.scanChars_next (by decide) rfl h

/-- A word before a dot is a token. -/
theorem scanChars_word {w : String} (hw : isIdentifier w = true)
    (h : Token.scanChars (pathChars path) = .ok ts) :
    Token.scanChars (w.toList ++ pathChars path) = .ok (.ident w :: ts) := by
  obtain ⟨c, cs, htext, hblank, hnext⟩ := Token.next_text (t := .ident w) hw
  have hstops : (Token.ident w).StopsAt (pathChars path) := fun x hx => by
    rw [head?_pathChars hx]
    exact (by decide : isWordChar '.' = false)
  have hword : w.toList = c :: cs := htext
  rw [hword, List.cons_append]
  exact Token.scanChars_next hblank (hnext _ hstops) h

theorem isBlank_of_isDigit (h : d.isDigit = true) : Text.isBlank d = false :=
  not_isBlank_of_isWordChar (isWordChar_of_ascii (by simp [Char.isAlphanum, h]))

theorem scanChars_number {fraction after : List Char}
    (hrest : ∀ x ∈ rest.head?, x.isDigit = false)
    (hfraction : scanFraction rest = (fraction, after)) (h : Token.scanChars after = .ok ts) :
    Token.scanChars ((toString n).toList ++ rest) =
      .ok (.number ⟨false, (toString n).toList, fraction⟩ :: ts) := by
  obtain ⟨d, ds, hds, hd, hall⟩ := exists_cons_of_toString n
  have hnext := Token.next_number hd hall hrest
  rw [hfraction] at hnext
  rw [hds, List.cons_append]
  exact Token.scanChars_next (isBlank_of_isDigit hd) hnext h

theorem Scanned.scanChars_eq (h : Scanned path ts) : Token.scanChars (pathChars path) = .ok ts := by
  induction h with
  | nil => rw [pathChars, List.flatMap_nil, Token.scanChars]
  | @name w path ts hw _ ih =>
    rw [pathChars_cons]
    exact scanChars_dot (scanChars_word hw ih)
  | @index n path ts _ hnext _ ih =>
    rw [pathChars_cons]
    have hfraction := scanFraction_pathChars hnext
    exact scanChars_dot (scanChars_number (fun _ => isDigit_of_head?) hfraction ih)
  | @merged m n path ts _ ih =>
    rw [pathChars_cons, pathChars_cons]
    refine scanChars_dot (scanChars_number (fun x hx => ?_) (scanFraction_toString n path) ih)
    cases hx
    rfl

/-! ### What is read -/

/-- What is read from the tokens of a path. -/
inductive Reading (path : List String) : Except Fault (List String × List Token) → Prop
  /-- The path. -/
  | whole (h : Spaced path) : Reading path (.ok (path, []))
  /-- Another path, which is shorter. -/
  | shorter (h : ¬ Spaced path) {found : List String} (hne : found ≠ [])
      (hlen : found.length < path.length) : Reading path (.ok (found, []))
  /-- A number that is not whole stands in the place of a segment. -/
  | refused (h : ¬ Spaced path) : Reading path (.error .missingField)

theorem spaced_cons_iff {s : String} (h : isIdentifier s = true ∨
      ∀ t ∈ path.head?, isIdentifier t = true) : Spaced (s :: path) ↔ Spaced path := by
  rw [Spaced, List.isChain_cons]
  refine and_iff_right fun t ht => ?_
  rcases h with hs | hnext
  · exact .inl hs
  · exact .inr (hnext t ht)

/-- A segment that is read by itself. -/
theorem Reading.cons {s : String} {r : Except Fault (List String × List Token)}
    (hs : isIdentifier s = true ∨ ∀ t ∈ path.head?, isIdentifier t = true) (h : Reading path r) :
    Reading (s :: path) (r >>= fun x => .ok (s :: x.1, x.2)) := by
  have hiff := spaced_cons_iff hs
  cases h with
  | whole h => exact .whole (hiff.2 h)
  | shorter h _ hlen => exact .shorter (mt hiff.1 h) (List.cons_ne_nil _ _) (Nat.succ_lt_succ hlen)
  | refused h => exact .refused (mt hiff.1 h)

theorem not_spaced_merged (m n : Nat) (path : List String) :
    ¬ Spaced (toString m :: toString n :: path) := by
  rw [Spaced, List.isChain_cons_cons, isIdentifier_toString, isIdentifier_toString]
  simp

/-- Two numbers are read as one segment, or as none. -/
theorem Reading.merged {number : Numeral} {r : Except Fault (List String × List Token)} (m n : Nat)
    (h : Reading path r) :
    Reading (toString m :: toString n :: path)
      (match number.segment? with
        | some s => r >>= fun x => .ok (s :: x.1, x.2)
        | none => .error .missingField) := by
  have hno := not_spaced_merged m n path
  cases number.segment? with
  | none => exact .refused hno
  | some s =>
    have hlen : ∀ found : List String, found.length ≤ path.length →
        (s :: found).length < (toString m :: toString n :: path).length := by
      intro found hle
      simp only [List.length_cons]
      omega
    cases h with
    | whole => exact .shorter hno (List.cons_ne_nil _ _) (hlen path (Nat.le_refl _))
    | shorter _ _ hlt => exact .shorter hno (List.cons_ne_nil _ _) (hlen _ (Nat.le_of_lt hlt))
    | refused => exact .refused hno

theorem path_number (number : Numeral) (ts : List Token) :
    plain (parsePath (.dot :: .number number :: ts)) =
      match number.segment? with
      | some s => plain (parsePath ts) >>= fun x => .ok (s :: x.1, x.2)
      | none => .error .missingField := by
  cases hs : number.segment? with
  | some s => exact path_segment (.index hs)
  | none =>
    rw [parsePath, hs]
    rfl

theorem Scanned.reading (h : Scanned path ts) : Reading path (plain (parsePath ts)) := by
  induction h with
  | nil =>
    rw [path_stop (by simp)]
    exact .whole .nil
  | @name w path ts hw _ ih =>
    rw [path_segment (.name w)]
    exact ih.cons (.inl hw)
  | @index n path ts hn hnext _ ih =>
    rw [path_segment (.index (segment?_toString hn))]
    exact ih.cons (.inr hnext)
  | merged m n _ ih =>
    rw [path_number]
    exact ih.merged m n

/-! ### The text of a path -/

/-- A path is parsed as it is read. -/
theorem ofTokens_ctx {found : List String} (hne : found ≠ [])
    (h : plain (parsePath ts) = .ok (found, [])) :
    ofTokens (.ident "ctx" :: ts) = .ok (.field found) := by
  obtain ⟨used, rfl, hused⟩ := segments_of_path h
  rw [List.append_nil, ofTokens_eq_ok_iff]
  obtain ⟨s, found, rfl⟩ := List.exists_cons_of_ne_nil hne
  exact Derives.alone (.field hused)

theorem ofTokens_ctx_error {f : Fault} (h : plain (parsePath ts) = .error f) :
    ofTokens (.ident "ctx" :: ts) = .error f := by
  have hoperand : front .operand (.ident "ctx" :: ts) = .error f := by
    rw [front_ctx, h]
    rfl
  have hor : front .or (.ident "ctx" :: ts) = .error f := by
    rw [chain_or.front_eq, chain_and.front_eq, front_unary (by simp), front_comparison, hoperand]
    rfl
  rw [ofTokens]
  rw [front] at hor
  rcases hp : parseOr (.ident "ctx" :: ts) with f' | ⟨e, rest⟩
  · rw [hp] at hor
    cases hor
    rfl
  · rw [hp] at hor
    cases hor

theorem pathChars_eq (s : String) (path : List String) :
    pathChars (s :: path) = '.' :: (".".intercalate (s :: path)).toList := by
  induction path generalizing s with
  | nil => simp [pathChars]
  | cons t path ih =>
    rw [pathChars_cons, ih t, String.intercalate_cons_cons]
    simp

theorem toList_fieldText (hne : path ≠ []) :
    (fieldText path).toList = 'c' :: 't' :: 'x' :: pathChars path := by
  obtain ⟨s, path, rfl⟩ := List.exists_cons_of_ne_nil hne
  rw [pathChars_eq]
  simp [fieldText]

theorem scan_fieldText (hne : path ≠ []) (h : Scanned path ts) :
    Token.scan (fieldText path) = .ok (.ident "ctx" :: ts) := by
  have hmark : "ctx".toList = ['c', 't', 'x'] := rfl
  have hscan := scanChars_word (w := "ctx") (by decide) h.scanChars_eq
  rw [hmark] at hscan
  rw [Token.scan, toList_fieldText hne]
  exact hscan

/-- The text of a path is parsed as what is read from its tokens. -/
theorem parse_of_reading (hne : path ≠ []) (hpath : ∀ s ∈ path, IsSegment s) :
    ∃ r, Reading path r ∧ parse (fieldText path) = r >>= fun x => .ok (.field x.1) := by
  obtain ⟨ts, hts⟩ := exists_scanned path hpath
  refine ⟨_, hts.reading, ?_⟩
  have hreading := hts.reading
  rw [parse, scan_fieldText hne hts]
  dsimp only
  generalize hr : plain (parsePath ts) = r at hreading ⊢
  cases hreading with
  | whole => exact ofTokens_ctx hne hr
  | shorter _ hne' => exact ofTokens_ctx hne' hr
  | refused => exact ofTokens_ctx_error hr

theorem parse_of_spaced (hne : path ≠ []) (hpath : ∀ s ∈ path, IsSegment s) (h : Spaced path) :
    parse (fieldText path) = .ok (.field path) := by
  obtain ⟨r, hr, hparse⟩ := parse_of_reading hne hpath
  cases hr with
  | whole => exact hparse
  | shorter hno | refused hno => exact absurd h hno

theorem parse_of_not_spaced (hne : path ≠ []) (hpath : ∀ s ∈ path, IsSegment s)
    (h : ¬ Spaced path) : parse (fieldText path) = .error .missingField ∨
      ∃ found, found.length < path.length ∧ parse (fieldText path) = .ok (.field found) := by
  obtain ⟨r, hr, hparse⟩ := parse_of_reading hne hpath
  cases hr with
  | whole hyes => exact absurd hyes h
  | @shorter _ found _ hlen => exact .inr ⟨found, hlen, hparse⟩
  | refused => exact .inl hparse

/-! ### Reading what is assigned -/

theorem not_mem_of_isSegment {s : String} (h : IsSegment s) : '.' ∉ s.toList := by
  intro hdot
  rcases h with hw | ⟨n, -, rfl⟩
  · obtain ⟨c, cs, hcs, -, hall⟩ := exists_cons_of_isIdentifier hw
    exact absurd (hall '.' (hcs ▸ hdot)) (by decide)
  · exact absurd (isDigit_of_mem_toString hdot) (by decide)

theorem ne_empty_of_isSegment {s : String} (h : IsSegment s) : s ≠ "" := by
  rintro rfl
  rcases h with hw | ⟨n, -, hn⟩
  · cases hw
  · obtain ⟨d, ds, hds, -⟩ := exists_cons_of_toString n
    rw [← hn] at hds
    cases hds

theorem exists_assigned (hne : path ≠ []) (hpath : ∀ s ∈ path, IsSegment s) (s : Scope) (v : Json) :
    ∃ t, Assigned s (fieldText path) path v t := by
  have hnames : Names (fieldText path) path :=
    ⟨hne, fun x hx => not_mem_of_isSegment (hpath x hx), .inl rfl⟩
  rw [names_iff] at hnames
  have hfull : "" ∉ Text.dotted (bareLocation (fieldText path)) := by
    rw [← hnames]
    exact fun hx => ne_empty_of_isSegment (hpath "" hx) rfl
  have hassigned := assigned_of_not_mem hfull s v
  rw [← hnames] at hassigned
  exact ⟨_, hassigned⟩

/-- A location may stand without its mark, unless its first segment is like the mark. -/
theorem bareLocation_intercalate (hne : path ≠ []) (hpath : ∀ s ∈ path, IsSegment s)
    (hmark : ∀ rest, path = "ctx" :: rest → rest = []) :
    bareLocation (".".intercalate path) = bareLocation (fieldText path) := by
  rw [fieldText, bareLocation_append, bareLocation_of_ne]
  intro rest hrest
  have hcut : path = "ctx" :: Text.dotted rest := by
    rw [← Text.dotted_intercalate hne fun x hx => not_mem_of_isSegment (hpath x hx), hrest]
    exact Text.dotted_append_dot "ctx" rest
  exact Text.dotted_ne_nil rest (hmark _ hcut)

/-- The text of a path is parsed as the path exactly if no number directly follows another one.
Otherwise it is refused, or parsed as a shorter path.  In any case a value can be assigned at this
location, and where the path is spaced its text has the value then.  The mark of the location may be
left out, unless the first of several segments is like the mark. -/
theorem parse_fieldText (hne : path ≠ []) (hpath : ∀ s ∈ path, IsSegment s) :
    (parse (fieldText path) = .ok (.field path) ↔ Spaced path) ∧
      (¬ Spaced path → parse (fieldText path) = .error .missingField ∨
        ∃ found, found.length < path.length ∧ parse (fieldText path) = .ok (.field found)) ∧
      (∀ (s : Scope) (v : Json), ∃ t, Assigned s (fieldText path) path v t ∧
        (Spaced path → ∀ m : Cache, m.Faithful → (m.evaluate t (fieldText path)).1 = .ok v)) ∧
      ((∀ rest, path = "ctx" :: rest → rest = []) → ∀ (s : Scope) (v : Json),
        assign s (".".intercalate path) v = assign s (fieldText path) v) := by
  have hspaced := parse_of_spaced hne hpath
  have hother := parse_of_not_spaced hne hpath
  refine ⟨⟨fun h => ?_, hspaced⟩, hother, fun s v => ?_, fun hmark s v => ?_⟩
  · by_contra hno
    rcases hother hno with hrefused | ⟨found, hlen, hfound⟩
    · rw [h] at hrefused
      cases hrefused
    · rw [h] at hfound
      cases hfound
      exact Nat.lt_irrefl _ hlen
  · obtain ⟨t, ht⟩ := exists_assigned hne hpath s v
    refine ⟨t, ht, fun h m hm => ?_⟩
    rw [Cache.evaluate_fst hm, hspaced h]
    exact congrArg Except.ok ht.read
  · rw [assign, assign, locationPath, locationPath, bareLocation_intercalate hne hpath hmark]

/-- The item of a list of lists is not read where it is written, though the field of an item is. -/
theorem parse_fieldText_grid :
    parse "ctx.grid.1.0" ≠ .ok (.field ["grid", "1", "0"]) ∧
      parse "ctx.rows.1.cells.0" = .ok (.field ["rows", "1", "cells", "0"]) ∧
      ∃ t, assign Scope.empty "rows.1.cells.0" (.bool true) = .ok t ∧
        (Cache.empty.evaluate t "ctx.rows.1.cells.0").1 = .ok (.bool true) := by
  have zero : IsIndex "0" := ⟨0, by decide, rfl⟩
  have one : IsIndex "1" := ⟨1, by decide, rfl⟩
  have hgrid : ∀ s ∈ ["grid", "1", "0"], IsSegment s := by
    simp only [List.forall_mem_cons]
    exact ⟨.inl (by decide), .inr one, .inr zero, nofun⟩
  have hrows : ∀ s ∈ ["rows", "1", "cells", "0"], IsSegment s := by
    simp only [List.forall_mem_cons]
    exact ⟨.inl (by decide), .inr one, .inl (by decide), .inr zero, nofun⟩
  have hspaced : Spaced ["rows", "1", "cells", "0"] :=
    .cons_cons (by decide) (.cons_cons (by decide) (.cons_cons (by decide) (.singleton _)))
  obtain ⟨hparsed, -, hmade, hbare⟩ := parse_fieldText (List.cons_ne_nil _ _) hrows
  obtain ⟨t, ht, hvalue⟩ := hmade Scope.empty (.bool true)
  refine ⟨fun h => ?_, hparsed.2 hspaced, t, ?_, hvalue hspaced Cache.empty Cache.faithful_empty⟩
  · have hno := (parse_fieldText (List.cons_ne_nil _ _) hgrid).1.1 h
    rw [Spaced, List.isChain_cons_cons, List.isChain_cons_cons] at hno
    exact absurd hno.2.1 (by decide)
  · exact (hbare (by simp) Scope.empty (.bool true)).trans ht.assign_eq

end Statechart.Expr
