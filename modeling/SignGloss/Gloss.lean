/-
  Glosses.

  A gloss names a lexeme by its upper-case spelling (`QUERER`).  `plainForm` is
  the text that stands for a gloss where no inflected form does: a fixed form
  for a few glosses, and the lower-case spelling for all others.
-/
import SignGloss.Text.Casing

namespace SignGloss

/-- The glosses with a fixed form. -/
def fixedForms : List (String × String) := [("YO", "yo"), ("TU", "tú"), ("NO", "no")]

/-- The text of a gloss that is not inflected. -/
def plainForm (gloss : String) : String :=
  (fixedForms.lookup gloss).getD (Text.toLower gloss)

end SignGloss
