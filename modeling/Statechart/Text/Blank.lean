/-!
# Blanks, words and pieces

The characters that separate words, and the few ways in which a text is cut.

* `isBlank` is Unicode's property `White_Space`;
* `trim` drops the blanks at both ends;
* `words` are the longest runs without a blank;
* `firstWord` splits a text after its first word;
* `pieces` cuts a text at every separator and keeps the empty pieces.
-/

namespace Statechart.Text

/-- The characters with the property `White_Space`, as closed ranges of code points. -/
def blankRanges : List (Nat × Nat) :=
  [(0x09, 0x0D), (0x20, 0x20), (0x85, 0x85), (0xA0, 0xA0), (0x1680, 0x1680), (0x2000, 0x200A),
    (0x2028, 0x2029), (0x202F, 0x202F), (0x205F, 0x205F), (0x3000, 0x3000)]

/-- Whether a code point lies in one of the ranges. -/
def inRanges (ranges : List (Nat × Nat)) (n : Nat) : Bool :=
  ranges.any fun r => r.1 ≤ n && n ≤ r.2

/-- Whether a character separates words. -/
def isBlank (c : Char) : Bool := inRanges blankRanges c.toNat

/-- A list without its leading blanks. -/
def trimLeft (cs : List Char) : List Char := cs.dropWhile isBlank

/-- A list without its trailing blanks. -/
def trimRight (cs : List Char) : List Char := (cs.reverse.dropWhile isBlank).reverse

/-- A text without the blanks at its ends. -/
def trim (s : String) : String := String.ofList (trimRight (trimLeft s.toList))

/-- Cuts a list at every character that satisfies `p`; the pieces between two neighbouring cuts
are kept although they are empty. -/
def pieces (p : Char → Bool) : List Char → List (List Char)
  | [] => [[]]
  | c :: cs =>
    if p c then [] :: pieces p cs
    else match pieces p cs with
      | [] => [[c]]
      | w :: ws => (c :: w) :: ws

/-- The words of a text: its pieces between blanks that are not empty. -/
def words (s : String) : List String :=
  ((pieces isBlank s.toList).filter (· ≠ [])).map String.ofList

/-- The pieces of a text between dots. -/
def dotted (s : String) : List String :=
  (pieces (· == '.') s.toList).map String.ofList

/-- The first word of a text that starts with a word, and what follows the blank behind it. -/
def firstWord (cs : List Char) : List Char × List Char :=
  (cs.takeWhile (! isBlank ·), trimLeft (cs.dropWhile (! isBlank ·)))

/-- Whether a text has no character, or blanks only. -/
def isBlankText (s : String) : Bool := s.toList.all isBlank

theorem pieces_ne_nil (p : Char → Bool) (cs : List Char) : pieces p cs ≠ [] := by
  cases cs with
  | nil => simp [pieces]
  | cons c cs => unfold pieces; split <;> (try split) <;> simp

end Statechart.Text
