/-
  White space.

  * `isBlank` is the Unicode property White_Space; `isSpace` is the smaller
    class of tab, line feed, form feed, carriage return and space.  Texts are
    trimmed and split at blanks, while the rule languages skip spaces only;
  * `trim` removes blanks at both ends, `words` are the maximal runs of
    characters that are not blank, and `oneSpaced` joins the words by single
    spaces.
-/
import SignGloss.Text.CharClass

namespace SignGloss.Text

/-- The ranges of the Unicode property White_Space. -/
def blankRanges : CharClass :=
  [(0x09, 0x0D), (0x20, 0x20), (0x85, 0x85), (0xA0, 0xA0), (0x1680, 0x1680), (0x2000, 0x200A),
   (0x2028, 0x2029), (0x202F, 0x202F), (0x205F, 0x205F), (0x3000, 0x3000)]

/-- A character with the property White_Space. -/
def isBlank (c : Char) : Bool := blankRanges.has c

/-- Tab, line feed, form feed, carriage return or space. -/
def isSpace (c : Char) : Bool :=
  c == '\t' || c == '\n' || c == '\x0c' || c == '\r' || c == ' '

/-- Every space is blank. -/
theorem isBlank_of_isSpace {c : Char} (h : isSpace c = true) : isBlank c = true := by
  simp only [isSpace, Bool.or_eq_true, beq_iff_eq] at h
  rcases h with (((h | h) | h) | h) | h <;> subst h <;> decide

/-- `s` without the blanks at its start. -/
def trimStart (s : List Char) : List Char := s.dropWhile isBlank

/-- `s` without the blanks at its end. -/
def trimEnd (s : List Char) : List Char := (s.reverse.dropWhile isBlank).reverse

/-- `s` without the blanks at either end. -/
def trimChars (s : List Char) : List Char := trimEnd (trimStart s)

/-- A string without the blanks at either end. -/
def trim (s : String) : String := String.ofList (trimChars s.toList)

/-- The words of a text: its maximal runs of characters that are not blank. -/
def words : List Char → List (List Char)
  | [] => []
  | c :: s =>
    if isBlank c then words s
    else match s with
      | [] => [[c]]
      | d :: _ =>
        if isBlank d then [c] :: words s
        else match words s with
          | [] => [[c]]
          | w :: ws => (c :: w) :: ws

/-- The words of a text, one space between neighbours. -/
def oneSpaced (s : String) : String :=
  String.ofList ([' '].intercalate (words s.toList))

end SignGloss.Text
