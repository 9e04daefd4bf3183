/-
  Part-of-speech tags.

  * a `Tag` is any text; catalogs may introduce tags of their own;
  * only two tags have a meaning of their own: `Tag.verb`, whose placeholders
    are inflected, and `Tag.interjection`, the tag of signs without a lexeme.
-/
namespace SignGloss

/-- A part of speech. -/
structure Tag where
  name : String
deriving Repr, DecidableEq

namespace Tag

/-- The tag whose placeholders are inflected. -/
def verb : Tag := ⟨"VERB"⟩

/-- The tag of a sign that no lexeme is known for. -/
def interjection : Tag := ⟨"INTJ"⟩

/-- Tags are ordered by their names, code point by code point. -/
instance : Ord Tag := ⟨fun a b => compare a.name b.name⟩

end Tag

end SignGloss
