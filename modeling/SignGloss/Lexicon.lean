/-
  Lexical items.

  * a `Sense` is what a sign may mean: a gloss, a part of speech and perhaps a
    spelling for readers.  `Sense.fallback` is the sense of a sign that nothing
    is known about;
  * a `Lexeme` is a sense with an identifier, and a `Link` says that a sign may
    stand for a lexeme, the more likely the greater its weight.
-/
import SignGloss.Priority
import SignGloss.Tag
import SignGloss.Text.Casing

namespace SignGloss

/-- One meaning of a sign. -/
structure Sense where
  gloss : String
  tag : Tag
  surface : Option String := none
deriving Repr, DecidableEq

/-- The meaning of an unknown sign: its name in upper case, as an interjection. -/
def Sense.fallback (sign : String) : Sense := ⟨Text.toUpper sign, .interjection, none⟩

/-- A lexical item of a catalog. -/
structure Lexeme where
  id : UInt32
  gloss : String
  tag : Tag
  surface : Option String := none
deriving Repr, DecidableEq

/-- The meaning of a lexeme. -/
def Lexeme.sense (l : Lexeme) : Sense := ⟨l.gloss, l.tag, l.surface⟩

/-- A sign that may stand for a lexeme. -/
structure Link where
  sign : String
  lexeme : UInt32
  weight : Int32 := 0
deriving Repr, DecidableEq

/-- Links of one sign are ordered by weight and then by lexeme. -/
def Link.priority (l : Link) : Priority := ⟨l.weight, l.lexeme⟩

end SignGloss
