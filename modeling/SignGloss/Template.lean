/-
  Output templates, such as `{PRON} {VERB:conj=pres,persona=1}, {{{NOUN}}}`.

  * a `Template` is a list of segments: literal text, placeholders, and braces
    that belong to neither a placeholder nor a doubled brace;
  * a `Placeholder` names a part of speech and has parameters; `param?` looks a
    parameter up, where the first of a key counts and one without a value is as
    good as none;
  * `Template.text` writes a template: braces of literal text are doubled.

  Reading is in `Template.Scan`.
-/
import SignGloss.Tag

namespace SignGloss

/-- A parameter of a placeholder.  The value is empty where none is given. -/
structure Param where
  key : String
  value : String
deriving Repr, DecidableEq

/-- A place for a word of some part of speech. -/
structure Placeholder where
  tag : Tag
  params : List Param
deriving Repr, DecidableEq

namespace Placeholder

/-- The value of the first parameter with a key, unless it is empty. -/
def param? (p : Placeholder) (key : String) : Option String :=
  ((p.params.find? (·.key == key)).map Param.value).filter (· ≠ "")

end Placeholder

/-- A part of a template. -/
inductive Segment where
  /-- text that stands for itself -/
  | literal (text : String)
  /-- a place for a word -/
  | placeholder (p : Placeholder)
  /-- a single brace that opens or closes no placeholder; it stands for itself -/
  | stray (brace : Char)
deriving Repr, DecidableEq

/-- A template as a list of segments. -/
structure Template where
  segments : List Segment
deriving Repr, DecidableEq

namespace Template

/-- The placeholder of a segment, if it is one. -/
def placeholder? : Segment → Option Placeholder
  | .placeholder p => some p
  | _ => none

/-- The segment is a stray brace. -/
def isStray : Segment → Bool
  | .stray _ => true
  | _ => false

/-- The placeholders in order. -/
def placeholders (t : Template) : List Placeholder := t.segments.filterMap placeholder?

/-- Some brace of the template belongs nowhere. -/
def hasStray (t : Template) : Bool := t.segments.any isStray

/-! ## Writing -/

/-- A character of literal text as it is written. -/
def literalChar (c : Char) : List Char :=
  if c = '{' ∨ c = '}' then [c, c] else [c]

/-- A parameter as it is written. -/
def paramText (p : Param) : List Char := p.key.toList ++ ['='] ++ p.value.toList

/-- A placeholder as it is written. -/
def placeholderText (p : Placeholder) : List Char :=
  ['{'] ++ p.tag.name.toList
    ++ (if p.params.isEmpty then [] else [':'] ++ [','].intercalate (p.params.map paramText))
    ++ ['}']

/-- A segment as it is written. -/
def segmentText : Segment → List Char
  | .literal t => t.toList.flatMap literalChar
  | .placeholder p => placeholderText p
  | .stray c => [c]

/-- A template as its author writes it. -/
def text (t : Template) : String := String.ofList (t.segments.flatMap segmentText)

end Template

end SignGloss
