import Statechart.Event.Descriptor
import Statechart.Proofs.Text.Words

/-!
# What a descriptor matches

A descriptor matches by whole tokens.  Told without cutting texts into tokens, it matches the events
that have its name, and those whose name goes on with a dot where its own name ends.

* `stem`: a name or descriptor without the dot, or the dot and the star, at its end;
* `tokens_eq`: the tokens of a text are the pieces of its stem, unless the text is empty or a star,
  which have no tokens;
* `Selects`: a descriptor selects an event, told by their stems; `selects_refl`, `Selects.trans`,
  `Selects.eq_dot`: selection is a preorder, and does not look at parts of tokens;
* `accepts_spec`: a descriptor matches the events that it selects.
-/

namespace Statechart.Descriptor

open Text (dotted)

/-- What does not count as the last token: nothing, or a star. -/
def Elided (w : String) : Prop := w = "" ∨ w = "*"

/-- A name or descriptor without a dot at its end, or without a dot and a star. -/
def stem (s : String) : String :=
  match s.toList.reverse with
  | '*' :: '.' :: rest => String.ofList rest.reverse
  | '.' :: rest => String.ofList rest.reverse
  | _ => s

variable {s w d e f : String} {ws : List String}

/-! ### Stems and tokens -/

/-- A text is its stem with a dot, or a dot and a star, behind it, or ends in neither of them. -/
theorem stem_cases (s : String) :
    (∃ w, Elided w ∧ s = stem s ++ "." ++ w) ∨
      stem s = s ∧ ∀ t w, Elided w → s ≠ t ++ "." ++ w := by
  unfold stem
  split
  · next rest h =>
    refine .inl ⟨"*", .inr rfl, ?_⟩
    rw [← String.toList_inj, ← List.reverse_inj, h]
    simp
  · next rest h =>
    refine .inl ⟨"", .inl rfl, ?_⟩
    rw [← String.toList_inj, ← List.reverse_inj, h]
    simp
  · next hstar hdot =>
    refine .inr ⟨rfl, fun t w hw hs => ?_⟩
    rcases hw with rfl | rfl
    · exact hdot t.toList.reverse (by simp [hs])
    · exact hstar t.toList.reverse (by simp [hs])

/-- The last piece of a text may not count as a token. -/
theorem tokens_of_dotted (h : dotted s = ws ++ [w]) :
    (Elided w → tokens s = ws) ∧ (¬ Elided w → tokens s = dotted s) := by
  have hlast : (dotted s).getLast? = some w := by rw [h, List.getLast?_concat]
  simp only [tokens, hlast, Option.some.injEq]
  refine ⟨fun hw => (if_pos hw).trans ?_, fun hw => if_neg hw⟩
  rw [h, List.dropLast_concat]

theorem tokens_of_elided (h : Elided s) : tokens s = [] := by
  rcases h with rfl | rfl <;> rfl

/-- The tokens of a text are the pieces of its stem. -/
theorem tokens_eq (h : ¬ Elided s) : tokens s = dotted (stem s) := by
  rcases stem_cases s with ⟨w, hw, hs⟩ | ⟨hstem, hends⟩
  · have hpiece : dotted w = [w] := by rcases hw with rfl | rfl <;> rfl
    refine (tokens_of_dotted ?_).1 hw
    rw [← hpiece, ← Text.dotted_append_dot, ← hs]
  · rw [hstem]
    obtain ⟨ws, w, hpieces⟩ : ∃ ws w, dotted s = ws ++ [w] :=
      ⟨_, _, (List.dropLast_concat_getLast (Text.dotted_ne_nil s)).symm⟩
    refine (tokens_of_dotted hpieces).2 fun hw => ?_
    by_cases hws : ws = []
    · -- The text is its only piece.
      have hs := Text.intercalate_dotted s
      rw [hpieces, hws, List.nil_append, String.intercalate_singleton] at hs
      exact h (hs ▸ hw)
    · exact hends _ w hw (Text.eq_of_dotted_eq_append hpieces hws)

/-! ### Selected events -/

/-- A descriptor selects an event: it is empty or a star, or its name is the name of the event or
ends where that goes on with a dot. -/
def Selects (d e : String) : Prop :=
  Elided d ∨ ¬ Elided e ∧ (stem e = stem d ∨ ∃ rest, stem e = stem d ++ "." ++ rest)

theorem accepts_iff_selects : (Descriptor.mk d).accepts e ↔ Selects d e := by
  have haccepts : (Descriptor.mk d).accepts e ↔ d = "*" ∨ tokens d <+: tokens e := by
    simp [accepts]
  rw [haccepts, Selects]
  by_cases hd : Elided d
  · simp [hd, tokens_of_elided hd]
  · have hstar : d ≠ "*" := fun h => hd (.inr h)
    rw [tokens_eq hd]
    by_cases he : Elided e
    · simp [hd, he, hstar, tokens_of_elided he, Text.dotted_ne_nil]
    · simp [hd, he, hstar, tokens_eq he, Text.dotted_prefix_iff]

theorem selects_refl (d : String) : Selects d d := by
  by_cases hd : Elided d
  · exact .inl hd
  · exact .inr ⟨hd, .inl rfl⟩

theorem Selects.trans (h : Selects d e) (h' : Selects e f) : Selects d f := by
  rcases h with hd | ⟨he, hde⟩
  · exact .inl hd
  · obtain ⟨hf, hef⟩ := h'.resolve_left he
    refine .inr ⟨hf, ?_⟩
    rcases hde with hde | ⟨rest, hde⟩
    · rwa [hde] at hef
    · -- What follows the name of `d` in the one of `e` follows it in the one of `f`.
      rcases hef with hef | ⟨rest', hef⟩
      · exact .inr ⟨rest, hef.trans hde⟩
      · exact .inr ⟨rest ++ "." ++ rest', by rw [hef, hde]; simp only [String.append_assoc]⟩

/-- Where the name of a descriptor ends, the name of a selected event ends or has a dot. -/
theorem Selects.eq_dot (h : Selects d e) (hd : ¬ Elided d) {c : Char} {rest : String}
    (he : stem e = stem d ++ String.singleton c ++ rest) : c = '.' := by
  obtain ⟨-, hsame | ⟨rest', hdot⟩⟩ := h.resolve_left hd
  · have hlength := congrArg (·.toList.length) (he.symm.trans hsame)
    simp at hlength
  · have hlist := congrArg String.toList (he.symm.trans hdot)
    simp only [String.append_assoc, String.toList_append, List.append_cancel_left_eq] at hlist
    simpa using congrArg List.head? hlist

/-- A descriptor matches the events that it selects: those that have its name, or its name and more
behind a dot.  So it matches itself as an event, it matches what is matched by a descriptor that it
matches, and it matches nothing by a part of a token. -/
theorem accepts_spec :
    (∀ d e, (Descriptor.mk d).accepts e ↔ Selects d e) ∧
      (∀ d, (Descriptor.mk d).accepts d) ∧
      (∀ d e f, (Descriptor.mk d).accepts e → (Descriptor.mk e).accepts f →
        (Descriptor.mk d).accepts f) ∧
      ∀ d e c rest, ¬ Elided d → stem e = stem d ++ String.singleton c ++ rest → c ≠ '.' →
        ¬ (Descriptor.mk d).accepts e := by
  refine ⟨fun _ _ => accepts_iff_selects, fun d => ?_, fun d e f hde hef => ?_,
    fun d e c rest hd he hc h => ?_⟩
  · exact accepts_iff_selects.2 (selects_refl d)
  · exact accepts_iff_selects.2
      ((accepts_iff_selects.1 hde).trans (accepts_iff_selects.1 hef))
  · exact hc ((accepts_iff_selects.1 h).eq_dot hd he)

/-- Only one dot with a star is left out, and a star within a token is a character like others. -/
example : (Descriptor.mk "a..*").accepts "a..b" ∧ ¬ (Descriptor.mk "a..*").accepts "a.b" ∧
    ¬ (Descriptor.mk "a*").accepts "ab" := by decide

end Statechart.Descriptor
