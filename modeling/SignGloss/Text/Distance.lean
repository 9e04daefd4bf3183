/-
  Edit distance.

  * `distance a b` is the least number of characters to insert, delete or
    replace that turns `a` into `b`.  It is computed row by row: the row of a
    part `p` of `a` holds the distances from `p` to all parts of `b` that start
    `b`, shortest first.
-/
namespace SignGloss.Text

/-- The rest of the row of `p` and then `c`, behind an entry `left`, from the
    rest of the row of `p` and the rest of `b`. -/
def rowRest (c : Char) (left : Nat) : List Nat → List Char → List Nat
  | corner :: up :: row, d :: b =>
    let x := min (min (left + 1) (up + 1)) (corner + if c = d then 0 else 1)
    x :: rowRest c x (up :: row) b
  | _, _ => []

/-- The row of `p` and then `c` from the row of `p`. -/
def nextRow (b : List Char) (row : List Nat) (c : Char) : List Nat :=
  let first := row.headD 0 + 1
  first :: rowRest c first row b

/-- The number of edits between two texts. -/
def distance (a b : List Char) : Nat :=
  (a.foldl (nextRow b) (List.range (b.length + 1))).getLastD 0

end SignGloss.Text
