/-
  Conjugation tables.

  * a `Form` is a row: the spelling of a gloss for a conjugation code and
    perhaps a grammatical person;
  * a `Conjugation` keeps the last spelling written for each key, where glosses
    count as equal if they agree in upper case and without blanks around them
    (`FormKey.of`).  It is a table and makes up no forms: what was never written
    is unknown;
  * `Conjugation.spanish` holds the forms that every catalog document starts from.
-/
import SignGloss.Table
import SignGloss.Text.Blank
import SignGloss.Text.Casing

namespace SignGloss

/-- A row of a conjugation table. -/
structure Form where
  gloss : String
  code : String
  person : Option UInt8 := none
  surface : String
deriving Repr, DecidableEq

/-- What a form is found by. -/
structure FormKey where
  gloss : String
  code : String
  person : Option UInt8
deriving Repr, DecidableEq

/-- The key of a gloss in any spelling. -/
def FormKey.of (gloss code : String) (person : Option UInt8) : FormKey :=
  ⟨Text.toUpper (Text.trim gloss), code, person⟩

/-- The key of a row. -/
def Form.key (f : Form) : FormKey := .of f.gloss f.code f.person

/-- The known forms by their keys. -/
structure Conjugation where
  forms : Table FormKey String

namespace Conjugation

/-- The table without forms. -/
def empty : Conjugation := ⟨.empty⟩

/-- The table with one more row, which wins over an earlier one of its key. -/
def add (t : Conjugation) (f : Form) : Conjugation := ⟨t.forms.put f.key f.surface⟩

/-- The table with more rows, in order. -/
def addAll (t : Conjugation) (fs : List Form) : Conjugation := fs.foldl add t

/-- The spelling of a form, if it is known. -/
def find? (t : Conjugation) (gloss code : String) (person : Option UInt8) : Option String :=
  t.forms.get? (.of gloss code person)

/-- The number of forms. -/
def size (t : Conjugation) : Nat := t.forms.size

/-- The present tense of a gloss in the singular, first to third person. -/
def present (gloss first second third : String) : List Form :=
  [⟨gloss, "pres", some 1, first⟩, ⟨gloss, "pres", some 2, second⟩, ⟨gloss, "pres", some 3, third⟩]

/-- The forms that are known without a catalog. -/
def spanish : Conjugation :=
  empty.addAll (present "AMAR" "amo" "amas" "ama" ++ present "QUERER" "quiero" "quieres" "quiere")

end Conjugation

end SignGloss
