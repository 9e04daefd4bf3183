/-
  Places in a text.

  * `size` is the length of a text in UTF-8 bytes, and an offset counts bytes
    from the start;
  * `Place.of s n` is the place of the offset `n`: the line feeds before it and
    the bytes since the last of them;
  * `offsetAt s line column` goes back from a line and a column, both counted
    from 1, by the lengths of the lines before (`Text.lines`);
  * `Place.shown s n` is the place of `n` for a reader on a screen, for whom a
    line ends at a line feed, at a carriage return, or at both together.
-/
import SignGloss.Text.Pieces

namespace SignGloss.Text

/-- The number of UTF-8 bytes of a text. -/
def size : List Char → Nat
  | [] => 0
  | c :: s => c.utf8Size + size s

@[simp] theorem size_nil : size [] = 0 := rfl

@[simp] theorem size_cons (c : Char) (s : List Char) : size (c :: s) = c.utf8Size + size s := rfl

@[simp] theorem size_append (s t : List Char) : size (s ++ t) = size s + size t := by
  induction s with
  | nil => simp
  | cons c s ih => simp [ih, Nat.add_assoc]

/-- A number of complete lines and of bytes after them. -/
structure Place where
  line : Nat
  column : Nat
deriving Repr, DecidableEq

namespace Place

/-- The place behind a character. -/
def next (p : Place) (c : Char) : Place :=
  if c = '\n' then ⟨p.line + 1, 0⟩ else ⟨p.line, p.column + c.utf8Size⟩

/-- The place `n` bytes after `p`, where `s` starts at `p`.  An offset inside a
    character counts the bytes before it, and the text ends no later than `s`. -/
def advance (p : Place) : List Char → Nat → Place
  | [], _ => p
  | c :: s, n =>
    if c.utf8Size ≤ n then (p.next c).advance s (n - c.utf8Size) else ⟨p.line, p.column + n⟩

/-- The place of an offset. -/
def of (s : List Char) (n : Nat) : Place := advance ⟨0, 0⟩ s n

/-- The place `n` bytes after `p` on a screen.  A carriage return and a line
    feed after it end one line together, and an offset between them is still on
    that line. -/
def advanceShown (p : Place) : List Char → Nat → Place
  | [], _ => p
  | '\r' :: '\n' :: s, n => if 1 < n then advanceShown ⟨p.line + 1, 0⟩ s (n - 2) else p
  | c :: s, n =>
    if n = 0 then p
    else if c = '\r' ∨ c = '\n' then advanceShown ⟨p.line + 1, 0⟩ s (n - 1)
    else if c.utf8Size ≤ n then
      advanceShown ⟨p.line, p.column + c.utf8Size⟩ s (n - c.utf8Size)
    else ⟨p.line, p.column + n⟩

/-- The place of an offset on a screen. -/
def shown (s : List Char) (n : Nat) : Place := advanceShown ⟨0, 0⟩ s n

end Place

/-- The bytes of lines, each counted with one more. -/
def linesSize : List (List Char) → Nat
  | [] => 0
  | l :: ls => size l + 1 + linesSize ls

/-- The offset of a line and a column, both counted from 1, where each line
    before counts its length and one more, and no offset is behind the end. -/
def offsetAt (s : List Char) (line column : Nat) : Nat :=
  min (linesSize ((lines s).take (line - 1)) + (column - 1)) (size s)

end SignGloss.Text
