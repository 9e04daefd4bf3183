/-
  Priorities.

  * a `Priority` is a weight and an identifier.  The greater weight comes first,
    and of equal weights the smaller identifier (`Priority.compare`), so that an
    order by priority depends on how a list was put together only where both are
    equal;
  * `sortByPriority key xs` orders `xs` by the priorities of its members, and
    members of equal priority keep their order.
-/
namespace SignGloss

/-- A weight and an identifier. -/
structure Priority where
  weight : Int32
  id : UInt32
deriving Repr, DecidableEq

namespace Priority

/-- Weights in descending, then identifiers in ascending order. -/
def compare (a b : Priority) : Ordering :=
  (compareOfLessAndEq b.weight a.weight).then (compareOfLessAndEq a.id b.id)

instance : Ord Priority := ⟨compare⟩

/-- `a` comes before `b` or has the same priority. -/
def le (a b : Priority) : Bool := (compare a b).isLE

end Priority

/-- A list in the order of the priorities of its members. -/
def sortByPriority {α : Type} (key : α → Priority) (xs : List α) : List α :=
  xs.mergeSort fun a b => (key a).le (key b)

end SignGloss
