/-
  Character classes given as lists of ranges of code points.

  * `CharClass`: a list of ranges, first and last code point included;
  * `CharClass.has`: membership of a character.

  The classes of the Unicode character database that the library needs
  (`Blank`, `Casing`, `Quoted`) are values of this type.
-/
namespace SignGloss.Text

/-- A set of characters as ranges of code points, both ends included. -/
abbrev CharClass := List (Nat × Nat)

namespace CharClass

/-- Membership: the code point lies in one of the ranges. -/
def has (k : CharClass) (c : Char) : Bool :=
  k.any fun r => r.1 ≤ c.toNat && c.toNat ≤ r.2

theorem has_iff {k : CharClass} {c : Char} :
    k.has c = true ↔ ∃ r ∈ k, r.1 ≤ c.toNat ∧ c.toNat ≤ r.2 := by
  simp [has, List.any_eq_true]

end CharClass

end SignGloss.Text
