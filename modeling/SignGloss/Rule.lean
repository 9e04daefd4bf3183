/-
  Grammar rules.

  A `Rule` maps a sequence of parts of speech, written as a pattern, to a text
  with placeholders, written as a template.  It may be limited to a locale and
  may be switched off, and among the rules that apply the priority decides.
-/
import SignGloss.Priority

namespace SignGloss

/-- A rule as its author writes it. -/
structure Rule where
  id : UInt32
  pattern : String
  template : String
  locale : Option String := none
  active : Bool := true
  weight : Int32 := 0
deriving Repr, DecidableEq

/-- Rules are ordered by weight and then by identifier. -/
def Rule.priority (r : Rule) : Priority := ⟨r.weight, r.id⟩

end SignGloss
