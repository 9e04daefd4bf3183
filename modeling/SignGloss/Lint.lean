/-
  Checking rules.

  Interpretation puts up with every rule: one whose pattern cannot be read never
  applies, and a placeholder without a word is left out.  The findings tell the
  author of the rules.

  * `lintRule` looks at one rule: stray braces in the template, a pattern that
    cannot be read, and for each part of speech that the template refers to,
    whether the pattern has it, and has it once;
  * `shadowed` looks for active rules that are never chosen, since a rule that
    comes first has the same pattern and applies wherever they apply (`covers`);
  * `lint` does both for a list of rules.
-/
import SignGloss.Choice
import SignGloss.Lint.Suggestion
import SignGloss.Template.Scan

namespace SignGloss

/-- Something that the author of a rule should know. -/
inductive Finding where
  /-- the pattern cannot be read -/
  | invalidPattern (rule : UInt32) (pattern : String) (error : PatternError)
  /-- the template refers to a part of speech that the pattern does not have -/
  | notInPattern (rule : UInt32) (tag : Tag) (meant : List String)
  /-- the template has a brace that belongs nowhere -/
  | strayBrace (rule : UInt32)
  /-- the template refers to a part of speech that the pattern repeats -/
  | repeatedTag (rule : UInt32) (tag : Tag)
  /-- another rule is chosen wherever this one could be -/
  | shadowed (rule winner : UInt32)
deriving Repr, DecidableEq

namespace Finding

/-- The rule that the finding is about. -/
def rule : Finding → UInt32
  | invalidPattern r _ _ | notInPattern r _ _ | strayBrace r | repeatedTag r _ | shadowed r _ => r

/-- The rule cannot be used at all. -/
def isError : Finding → Bool
  | invalidPattern .. => true
  | _ => false

/-- What comes after the number of the rule. -/
def detail : Finding → String
  | invalidPattern _ p e => "invalid pattern '" ++ p ++ "': " ++ e.message
  | notInPattern _ t meant =>
    "placeholder \x7b" ++ t.name ++ "\x7d is not in the pattern"
      ++ (if meant.isEmpty then "" else " (did you mean: " ++ ", ".intercalate meant ++ ")")
  | strayBrace _ => "template has an unmatched brace"
  | repeatedTag _ t =>
    "pattern repeats [" ++ t.name ++ "] but every \x7b" ++ t.name ++ "\x7d uses the first one"
  | shadowed _ w => "never selected, shadowed by rule " ++ toString w

/-- The finding as told to the author. -/
def message (f : Finding) : String := "rule " ++ toString f.rule ++ ": " ++ f.detail

end Finding

/-! ## One rule -/

/-- What is wrong with a reference to a tag, if anything. -/
def tagFinding? (rule : UInt32) (p : Pattern) (t : Tag) : Option Finding :=
  if !p.contains t then some (.notInPattern rule t (suggestions t.name (p.tags.map Tag.name)))
  else if 1 < p.tags.count t then some (.repeatedTag rule t)
  else none

/-- The tags that a template refers to, in the order of first reference. -/
def Template.tags (t : Template) : List Tag := distinct (t.placeholders.map Placeholder.tag)

/-- The findings about one rule. -/
def lintRule (r : Rule) : List Finding :=
  let t := Template.parse r.template
  (if t.hasStray then [.strayBrace r.id] else []) ++
    match Pattern.parse r.pattern with
    | .error e => [.invalidPattern r.id r.pattern e]
    | .ok p => t.tags.filterMap (tagFinding? r.id p)

/-! ## Rules that are never chosen -/

/-- A rule with the scope `outer` applies wherever one with the scope `inner` does. -/
def covers (outer inner : Option String) : Bool :=
  match outer, inner with
  | none, _ => true
  | some _, none => false
  | some a, some b => Locale.canonical a = Locale.canonical b

/-- A rule that can be chosen, with its pattern. -/
def candidate? (r : Rule) : Option (Rule × Pattern) :=
  if r.active then
    match Pattern.parse r.pattern with
    | .ok p => some (r, p)
    | .error _ => none
  else none

/-- The rules that can be chosen, in order of priority. -/
def candidates (rules : List Rule) : List (Rule × Pattern) :=
  sortByPriority (fun c => c.1.priority) (rules.filterMap candidate?)

/-- The first of some rules that is chosen wherever `c` could be. -/
def winner? (earlier : List (Rule × Pattern)) (c : Rule × Pattern) : Option (Rule × Pattern) :=
  earlier.find? fun e => e.2 = c.2 && covers e.1.locale c.1.locale

/-- The rules among `cs` that are never chosen, where `earlier` come before them. -/
def shadowedAfter (earlier : List (Rule × Pattern)) : List (Rule × Pattern) → List Finding
  | [] => []
  | c :: cs =>
    ((winner? earlier c).map fun e => Finding.shadowed c.1.id e.1.id).toList
      ++ shadowedAfter (earlier ++ [c]) cs

/-- The rules that are never chosen. -/
def shadowed (rules : List Rule) : List Finding := shadowedAfter [] (candidates rules)

/-- The findings about a list of rules. -/
def lint (rules : List Rule) : List Finding := rules.flatMap lintRule ++ shadowed rules

end SignGloss
