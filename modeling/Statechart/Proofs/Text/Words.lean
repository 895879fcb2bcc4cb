import Mathlib.Tactic.Common
import Statechart.Text.Blank

/-!
# Words of a text

A word is a text with characters none of which is a blank.  Cutting a text gives words, and words
that are joined by spaces are cut apart again.

* `toString_injective`: a number is read back from its digits;
* `isWord_of_mem_words`: `words` gives words only;
* `words_of_isWord`, `flatMap_words`: a word is its own only word;
* `words_intercalate`: words are read back from the text that joins them;
* `dotted_eq_iff`: the pieces between dots are the only texts without dots that dots join to the
  text;
* `dotted_prefix_iff`: a text has the pieces of another one and perhaps more behind them if it is the
  other text, or starts with it and a dot.
-/

namespace Statechart.Text

/-- A text with characters, none of which is a blank. -/
def IsWord (s : String) : Prop := s ≠ "" ∧ ∀ c ∈ s.toList, isBlank c = false

-- The walk through the word is given by name: an instance for all characters would be found too.
instance : DecidablePred IsWord := fun s =>
  have := List.decidableBAll (isBlank · = false) s.toList
  inferInstanceAs (Decidable (s ≠ "" ∧ ∀ c ∈ s.toList, isBlank c = false))

/-! ### Runs of characters -/

/-- Characters of one sort go as far as those behind them are of another sort. -/
theorem takeWhile_of_stops {p : Char → Bool} {cs rest : List Char}
    (hcs : ∀ d ∈ cs, p d = true) (hrest : ∀ c ∈ rest.head?, p c = false) :
    (cs ++ rest).takeWhile p = cs ∧ (cs ++ rest).dropWhile p = rest := by
  rw [List.takeWhile_append_of_pos hcs, List.dropWhile_append_of_pos hcs]
  cases rest with
  | nil => simp
  | cons c rest => simp [hrest c rfl]

/-! ### Numbers -/

theorem toList_toString (n : Nat) : (toString n).toList = Nat.toDigits 10 n := Nat.toList_repr

/-- A number is read back from its digits. -/
theorem ofDigitChars_toString (n : Nat) : Nat.ofDigitChars 10 (toString n).toList 0 = n := by
  rw [toList_toString, Nat.ofDigitChars_ten_toDigits]

theorem toString_injective : Function.Injective (toString : Nat → String) := fun i j h => by
  rw [← ofDigitChars_toString i, h, ofDigitChars_toString]

/-! ### Pieces -/

section Pieces

variable {p : Char → Bool} {cs ds w : List Char} {c : Char}

theorem pieces_of_forall (h : ∀ c ∈ cs, p c = false) : pieces p cs = [cs] := by
  induction cs with
  | nil => rfl
  | cons c cs ih =>
    have hc : p c = false := h c (List.mem_cons_self ..)
    simp [pieces, hc, ih fun x hx => h x (List.mem_cons_of_mem _ hx)]

theorem pieces_append_cons (hc : p c) : pieces p (cs ++ c :: ds) = pieces p cs ++ pieces p ds := by
  induction cs with
  | nil => simp [pieces, hc]
  | cons x cs ih =>
    rw [List.cons_append, pieces, pieces, ih]
    split
    · rw [List.cons_append]
    · cases hw : pieces p cs with
      | nil => exact absurd hw (pieces_ne_nil p cs)
      | cons w ws => rfl

theorem eq_false_of_mem_pieces (hw : w ∈ pieces p cs) (hc : c ∈ w) : p c = false := by
  induction cs generalizing w with
  | nil =>
    rw [pieces, List.mem_singleton] at hw
    subst hw
    cases hc
  | cons x cs ih =>
    unfold pieces at hw
    split at hw
    · rcases List.mem_cons.1 hw with rfl | hw
      · cases hc
      · exact ih hw hc
    · next hx =>
      cases hps : pieces p cs with
      | nil => exact absurd hps (pieces_ne_nil p cs)
      | cons v vs =>
        rw [hps] at hw ih
        rcases List.mem_cons.1 hw with rfl | hw
        · rcases List.mem_cons.1 hc with rfl | hc
          · simpa using hx
          · exact ih (List.mem_cons_self ..) hc
        · exact ih (List.mem_cons_of_mem _ hw) hc

end Pieces

/-! ### Words -/

variable {s w : String} {ws : List String}

theorem isWord_of_mem_words (h : w ∈ words s) : IsWord w := by
  obtain ⟨cs, hcs, rfl⟩ := List.mem_map.1 h
  rw [List.mem_filter, decide_eq_true_eq] at hcs
  refine ⟨fun hnil => hcs.2 ?_, fun c hc => ?_⟩
  · simpa using congrArg String.toList hnil
  · rw [String.toList_ofList] at hc
    exact eq_false_of_mem_pieces hcs.1 hc

theorem IsWord.toList_ne_nil (h : IsWord w) : w.toList ≠ [] := by
  simpa using h.1

theorem words_of_isWord (h : IsWord w) : words w = [w] := by
  rw [words, pieces_of_forall h.2]
  simp [h.toList_ne_nil]

theorem flatMap_words (h : ∀ w ∈ ws, IsWord w) : ws.flatMap words = ws := by
  induction ws with
  | nil => rfl
  | cons w ws ih =>
    rw [List.flatMap_cons, words_of_isWord (h w (List.mem_cons_self ..)),
      ih fun v hv => h v (List.mem_cons_of_mem _ hv)]
    rfl

theorem words_append_space (s t : String) : words (s ++ " " ++ t) = words s ++ words t := by
  have blank : isBlank ' ' := by decide
  have cut : (s ++ " " ++ t).toList = s.toList ++ ' ' :: t.toList := by simp
  rw [words, cut, pieces_append_cons blank, List.filter_append, List.map_append]
  rfl

/-- Words that a space joins are cut apart again. -/
theorem words_intercalate (h : ∀ w ∈ ws, IsWord w) : words (" ".intercalate ws) = ws := by
  induction ws with
  | nil => rfl
  | cons w ws ih =>
    have hw : IsWord w := h w (List.mem_cons_self ..)
    cases ws with
    | nil => rw [String.intercalate_singleton, words_of_isWord hw]
    | cons v vs =>
      rw [String.intercalate_cons_cons, words_append_space, words_of_isWord hw,
        ih fun x hx => h x (List.mem_cons_of_mem _ hx)]
      rfl

/-! ### Pieces between dots -/

theorem intercalate_pieces (cs : List Char) : ['.'].intercalate (pieces (· == '.') cs) = cs := by
  induction cs with
  | nil => rfl
  | cons c cs ih =>
    unfold pieces
    split
    · next hc =>
      obtain ⟨w, ws, hw⟩ := List.exists_cons_of_ne_nil (pieces_ne_nil (· == '.') cs)
      rw [hw] at ih ⊢
      rw [List.intercalate_cons_cons, ih, beq_iff_eq.1 hc]
      rfl
    · split
      · next hw => exact absurd hw (pieces_ne_nil _ cs)
      · next w ws hw =>
        rw [hw] at ih
        cases ws with
        | nil => simpa using ih
        | cons v ws =>
          rw [List.intercalate_cons_cons] at ih ⊢
          simpa using ih

theorem dotted_ne_nil (s : String) : dotted s ≠ [] := by
  simpa [dotted] using pieces_ne_nil (· == '.') s.toList

theorem intercalate_dotted (s : String) : ".".intercalate (dotted s) = s := by
  rw [← String.toList_inj, String.toList_intercalate, dotted, List.map_map]
  simpa [Function.comp_def] using intercalate_pieces s.toList

theorem not_mem_of_mem_dotted (h : w ∈ dotted s) : '.' ∉ w.toList := by
  obtain ⟨cs, hcs, rfl⟩ := List.mem_map.1 h
  rw [String.toList_ofList]
  intro hdot
  have hno := eq_false_of_mem_pieces hcs hdot
  cases hno

theorem dotted_of_not_mem (h : '.' ∉ s.toList) : dotted s = [s] := by
  have hno : ∀ c ∈ s.toList, (c == '.') = false := fun c hc =>
    beq_eq_false_iff_ne.2 fun heq => h (heq ▸ hc)
  rw [dotted, pieces_of_forall hno]
  simp

theorem dotted_append_dot (s t : String) : dotted (s ++ "." ++ t) = dotted s ++ dotted t := by
  have cut : (s ++ "." ++ t).toList = s.toList ++ '.' :: t.toList := by simp
  rw [dotted, cut, pieces_append_cons rfl, List.map_append]
  rfl

/-- Texts without dots that dots join are cut apart again. -/
theorem dotted_intercalate (hne : ws ≠ []) (h : ∀ w ∈ ws, '.' ∉ w.toList) :
    dotted (".".intercalate ws) = ws := by
  induction ws with
  | nil => exact absurd rfl hne
  | cons w ws ih =>
    have hw : '.' ∉ w.toList := h w (List.mem_cons_self ..)
    cases ws with
    | nil => rw [String.intercalate_singleton, dotted_of_not_mem hw]
    | cons v vs =>
      rw [String.intercalate_cons_cons, dotted_append_dot, dotted_of_not_mem hw,
        ih (List.cons_ne_nil _ _) fun x hx => h x (List.mem_cons_of_mem _ hx)]
      rfl

/-- The pieces between dots are the texts without dots that dots join to the text. -/
theorem dotted_eq_iff :
    dotted s = ws ↔ ws ≠ [] ∧ (∀ w ∈ ws, '.' ∉ w.toList) ∧ s = ".".intercalate ws := by
  constructor
  · rintro rfl
    exact ⟨dotted_ne_nil s, fun w => not_mem_of_mem_dotted, (intercalate_dotted s).symm⟩
  · rintro ⟨hne, h, rfl⟩
    exact dotted_intercalate hne h

theorem eq_of_dotted_eq_append (h : dotted s = ws ++ [w]) (hws : ws ≠ []) :
    s = ".".intercalate ws ++ "." ++ w := by
  rw [← intercalate_dotted s, h,
    String.intercalate_append_of_ne_nil hws (List.cons_ne_nil w []), String.intercalate_singleton]

/-- The pieces of a text are the first ones of another text if dots go on where the first text ends. -/
theorem dotted_prefix_iff {t : String} :
    dotted s <+: dotted t ↔ t = s ∨ ∃ rest, t = s ++ "." ++ rest := by
  constructor
  · rintro ⟨ws, hws⟩
    have ht : ".".intercalate (dotted s ++ ws) = t := hws ▸ intercalate_dotted t
    cases ws with
    | nil => exact .inl (by rw [← ht, List.append_nil, intercalate_dotted])
    | cons v vs =>
      refine .inr ⟨".".intercalate (v :: vs), ?_⟩
      rw [← ht, String.intercalate_append_of_ne_nil (dotted_ne_nil s) (List.cons_ne_nil v vs),
        intercalate_dotted]
  · rintro (rfl | ⟨rest, rfl⟩)
    · exact List.prefix_rfl
    · rw [dotted_append_dot]
      exact List.prefix_append _ _

end Statechart.Text
