/-
  Suggestions for misspelt names.

  `suggestions name known` are at most three of the known names, those with the
  fewest edits to `name` first.  A name of up to three bytes tolerates one edit
  and a longer one two; the name itself is no suggestion.
-/
import SignGloss.Distinct
import SignGloss.Text.Distance

namespace SignGloss

/-- The number of edits that a name tolerates. -/
def tolerance (name : String) : Nat := if name.utf8ByteSize ≤ 3 then 1 else 2

/-- The most names that are suggested. -/
def mostSuggestions : Nat := 3

/-- The distinct names within reach, with their numbers of edits. -/
def eligible (name : String) (known : List String) : List (Nat × String) :=
  ((distinct known).map fun k => (Text.distance name.toList k.toList, k)).filter
    fun d => 0 < d.1 && d.1 ≤ tolerance name

/-- The names that may have been meant. -/
def suggestions (name : String) (known : List String) : List String :=
  (((eligible name known).mergeSort fun a b => a.1 ≤ b.1).take mostSuggestions).map Prod.snd

end SignGloss
