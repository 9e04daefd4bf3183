/-
  Cutting a text at a separator.

  * `pieces sep s`: the stretches of `s` between the occurrences of `sep`; a
    text with `n` separators has `n + 1` pieces (`length_pieces`), and the
    pieces joined by the separator are the text (`intercalate_pieces`);
  * `lines s`: the lines of `s`; a line ends at a line feed, which may have a
    carriage return before it, and the last line needs no end.
-/
namespace SignGloss.Text

/-- The stretches of a text between the occurrences of a separator. -/
def pieces (sep : Char) : List Char → List (List Char)
  | [] => [[]]
  | c :: s =>
    if c = sep then [] :: pieces sep s
    else match pieces sep s with
      | [] => [[c]]
      | p :: ps => (c :: p) :: ps

theorem pieces_ne_nil (sep : Char) (s : List Char) : pieces sep s ≠ [] := by
  cases s with
  | nil => simp [pieces]
  | cons c s =>
    rw [pieces]
    split
    · simp
    · split <;> simp

/-- A text with `n` separators has `n + 1` pieces. -/
theorem length_pieces (sep : Char) (s : List Char) :
    (pieces sep s).length = s.count sep + 1 := by
  induction s with
  | nil => rfl
  | cons c s ih =>
    by_cases h : c = sep
    · simp [pieces, h, ih]
    · have : (c == sep) = false := by simpa using h
      rw [pieces, if_neg h, List.count_cons, this]
      cases hp : pieces sep s with
      | nil => exact absurd hp (pieces_ne_nil sep s)
      | cons p ps => rw [hp] at ih; simpa using ih

/-- The pieces joined by the separator are the text. -/
theorem intercalate_pieces (sep : Char) (s : List Char) :
    [sep].intercalate (pieces sep s) = s := by
  induction s with
  | nil => rfl
  | cons c s ih =>
    cases hp : pieces sep s with
    | nil => exact absurd hp (pieces_ne_nil sep s)
    | cons p ps =>
      rw [hp] at ih
      by_cases h : c = sep
      · simp only [pieces, if_pos h, hp]
        rw [← ih, h]
        cases ps <;> simp [List.intercalate, List.intersperse]
      · simp only [pieces, if_neg h, hp]
        rw [← ih]
        cases ps <;> simp [List.intercalate, List.intersperse]

/-- `s` without a carriage return at its end. -/
def dropReturn (s : List Char) : List Char :=
  if s.getLast? = some '\r' then s.dropLast else s

/-- The lines that a list of pieces between line feeds makes: each piece but
    the last has lost its carriage return, and an empty last piece is no line. -/
def linesOfPieces : List (List Char) → List (List Char)
  | [] => []
  | [p] => if p.isEmpty then [] else [p]
  | p :: ps => dropReturn p :: linesOfPieces ps

/-- The lines of a text, without their ends. -/
def lines (s : List Char) : List (List Char) := linesOfPieces (pieces '\n' s)

end SignGloss.Text
