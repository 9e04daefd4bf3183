/-
  Choosing a rule.

  * `activeRules rules locale` are the rules that may be used in a locale, in
    order of priority;
  * `selectRule? rules ts` is the first of some rules whose pattern is the
    sequence of tags `ts`.
-/
import SignGloss.Locale
import SignGloss.Pattern
import SignGloss.Rule

namespace SignGloss

/-- The rule may be used in a locale. -/
def Rule.appliesIn (locale : String) (r : Rule) : Bool :=
  r.active && Locale.matchesScope r.locale locale

/-- The rules that may be used in a locale, in order of priority. -/
def activeRules (rules : List Rule) (locale : String) : List Rule :=
  sortByPriority Rule.priority (rules.filter (Rule.appliesIn locale))

/-- The pattern of the rule is the sequence of tags.  No sequence is matched by
    a text that is no pattern. -/
def Rule.matchesTags (r : Rule) (ts : List Tag) : Bool :=
  match Pattern.parse r.pattern with
  | .ok p => p.matchesTags ts
  | .error _ => false

/-- The first of the rules that matches a sequence of tags. -/
def selectRule? (rules : List Rule) (ts : List Tag) : Option Rule :=
  rules.find? (·.matchesTags ts)

end SignGloss
