import Statechart.Expr.Token
import Statechart.Text.Blank
import Statechart.Text.Letter

/-!
# From text to tokens

`Token.scan` cuts the text of an expression into tokens.

* a word is a run of letters, digits and underscores;
* a number is a run of ASCII digits, with a minus sign directly before it if it has one, and with a
  point and more digits behind it if a digit follows the point;
* in a string a backslash stands before a quote, a backslash, or a letter for a line feed or tab; any
  other character after a backslash is that character.

`length_of_next` says that every token takes a character, which is why the scan ends.
-/

namespace Statechart.Expr

/-- Whether a character may stand in a word. -/
def isWordChar (c : Char) : Bool := Text.isLetterOrDigit c || c = '_'

/-- The character that an escape stands for. -/
def unescape (c : Char) : Char := if c = 'n' then '\n' else if c = 't' then '\t' else c

/-- Reads a string up to its closing quote: its characters, and what follows the quote. -/
def scanString : List Char → Option (List Char × List Char)
  | [] => none
  | '"' :: rest => some ([], rest)
  | '\\' :: c :: rest => (scanString rest).map fun (s, rest) => (unescape c :: s, rest)
  | ['\\'] => none
  | c :: rest => (scanString rest).map fun (s, rest) => (c :: s, rest)

/-- The digits behind a point at the front of a text, if there are any, and what follows them. -/
def scanFraction : List Char → List Char × List Char
  | '.' :: c :: rest =>
    if c.isDigit then (c :: rest.takeWhile Char.isDigit, rest.dropWhile Char.isDigit)
    else ([], '.' :: c :: rest)
  | rest => ([], rest)

/-- The number whose first character stands before a text. -/
def scanNumber (negative : Bool) (first : List Char) (rest : List Char) : Numeral × List Char :=
  let (fraction, rest') := scanFraction (rest.dropWhile Char.isDigit)
  (⟨negative, first ++ rest.takeWhile Char.isDigit, fraction⟩, rest')

namespace Token

/-- The token that starts with the character `c`, which is no blank, and what follows it. -/
def next (c : Char) (rest : List Char) : Except Fault (Token × List Char) :=
  match c, rest with
  | '(', rest => .ok (openParen, rest)
  | ')', rest => .ok (closeParen, rest)
  | '.', rest => .ok (dot, rest)
  | '&', '&' :: rest => .ok (and, rest)
  | '|', '|' :: rest => .ok (or, rest)
  | '=', '=' :: rest => .ok (compare .eq, rest)
  | '!', '=' :: rest => .ok (compare .ne, rest)
  | '!', rest => .ok (not, rest)
  | '>', '=' :: rest => .ok (compare .ge, rest)
  | '>', rest => .ok (compare .gt, rest)
  | '<', '=' :: rest => .ok (compare .le, rest)
  | '<', rest => .ok (compare .lt, rest)
  | '"', rest =>
    match scanString rest with
    | some (s, rest) => .ok (string (String.ofList s), rest)
    | none => .error .unterminatedString
  | c, rest =>
    if c.isDigit then
      let (n, rest) := scanNumber false [c] rest
      .ok (number n, rest)
    else if c = '-' ∧ (rest.head?.any Char.isDigit) then
      let (n, rest) := scanNumber true [] rest
      .ok (number n, rest)
    else if isWordChar c then
      .ok (ident (String.ofList (c :: rest.takeWhile isWordChar)), rest.dropWhile isWordChar)
    else .error (.unexpectedCharacter c)

end Token

theorem length_of_scanString {cs s rest : List Char} (h : scanString cs = some (s, rest)) :
    rest.length < cs.length := by
  fun_induction scanString cs generalizing s rest with
  | case1 => simp at h
  | case2 => simp at h; simp [← h.2]
  | case3 c r ih =>
    simp only [Option.map_eq_some_iff, Prod.exists, Prod.mk.injEq] at h
    obtain ⟨a, b, hab, -, rfl⟩ := h
    have := ih hab
    simp; omega
  | case4 => simp at h
  | case5 c r _ _ _ ih =>
    simp only [Option.map_eq_some_iff, Prod.exists, Prod.mk.injEq] at h
    obtain ⟨a, b, hab, -, rfl⟩ := h
    have := ih hab
    simp; omega

theorem length_dropWhile_le (p : Char → Bool) (cs : List Char) :
    (cs.dropWhile p).length ≤ cs.length :=
  (List.dropWhile_sublist p).length_le

theorem length_of_scanFraction (cs : List Char) : (scanFraction cs).2.length ≤ cs.length := by
  fun_cases scanFraction cs with
  | case1 c rest => simp only [List.length_cons]; grind [length_dropWhile_le]
  | case2 => simp
  | case3 => simp

theorem length_of_scanNumber (negative : Bool) (first rest : List Char) :
    (scanNumber negative first rest).2.length ≤ rest.length :=
  Nat.le_trans (length_of_scanFraction _) (length_dropWhile_le _ _)

theorem Token.length_of_next {c : Char} {rest after : List Char} {t : Token}
    (h : Token.next c rest = .ok (t, after)) : after.length ≤ rest.length := by
  unfold Token.next at h
  split at h <;> try (simp at h; simp [← h.2])
  · split at h
    · next hs => simp at h; rw [← h.2]; exact Nat.le_of_lt (length_of_scanString hs)
    · simp at h
  · split at h
    · simp at h; rw [← h.2]; exact length_of_scanNumber _ _ _
    · split at h
      · simp at h; rw [← h.2]; exact length_of_scanNumber _ _ _
      · split at h
        · simp at h; rw [← h.2]; exact length_dropWhile_le _ _
        · simp at h

namespace Token

/-- The tokens of a list of characters. -/
def scanChars : List Char → Except Fault (List Token)
  | [] => .ok []
  | c :: rest =>
    if Text.isBlank c then scanChars rest
    else match _h : next c rest with
      | .error e => .error e
      | .ok (t, after) =>
        match scanChars after with
        | .error e => .error e
        | .ok ts => .ok (t :: ts)
termination_by cs => cs.length
decreasing_by
  · simp
  · have := length_of_next _h; simp; omega

/-- The tokens of a text. -/
def scan (s : String) : Except Fault (List Token) := scanChars s.toList

end Token

end Statechart.Expr
