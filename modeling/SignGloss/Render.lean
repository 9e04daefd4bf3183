/-
  Rendering templates.

  * a `Word` is a token with the sense that was chosen for it;
  * a placeholder is filled from the first word of its part of speech and from
    no other (`fill`): a verb by an inflected form, if the morphology knows one,
    anything else by the plain form of its gloss, and where there is no such
    word by nothing;
  * `renderRaw` puts literals, stray braces and fills together, and `render`
    leaves single spaces between the words of the result.
-/
import SignGloss.Consultation
import SignGloss.Gloss
import SignGloss.Number.Binary
import SignGloss.Template.Scan

namespace SignGloss

/-- A token with its sense. -/
structure Word where
  sign : String
  sense : Sense
  confidence : Single
deriving Repr, DecidableEq

/-- The part of speech of a word. -/
def Word.tag (w : Word) : Tag := w.sense.tag

/-- The gloss of a word. -/
def Word.gloss (w : Word) : String := w.sense.gloss

/-- The text of a word that is not inflected. -/
def Word.plain (w : Word) : String := plainForm w.gloss

/-! ## Parameters of verbs -/

/-- The conjugation code of a verb that is given none. -/
def defaultCode : String := "infinitive"

/-- The value of a list of digits. -/
def digitsValue (ds : List Char) : Nat := ds.foldl (fun n c => 10 * n + (c.toNat - '0'.toNat)) 0

/-- The digits of a number that may start with a plus sign. -/
def dropPlus : List Char → List Char
  | '+' :: s => s
  | s => s

/-- A grammatical person: the number 1, 2 or 3.  Anything else is no person. -/
def readPerson? (s : String) : Option UInt8 :=
  let ds := dropPlus s.toList
  if ds.isEmpty || !ds.all Char.isDigit then none
  else
    let n := digitsValue ds
    if 1 ≤ n ∧ n ≤ 3 then some (UInt8.ofNat n) else none

namespace Placeholder

/-- The conjugation code that a placeholder asks for. -/
def code (p : Placeholder) : String := (p.param? "conj").getD defaultCode

/-- The person that a placeholder asks for: `persona`, or else `person`. -/
def person (p : Placeholder) : Option UInt8 :=
  ((p.param? "persona").or (p.param? "person")).bind readPerson?

end Placeholder

/-! ## Filling -/

variable (form : Morphology)

/-- The word that fills a placeholder. -/
def wordFor? (ws : List Word) (p : Placeholder) : Option Word := ws.find? (·.tag = p.tag)

/-- The text of a placeholder. -/
def fill (ws : List Word) (p : Placeholder) : Consultation String :=
  match wordFor? ws p with
  | none => pure ""
  | some w =>
    if p.tag = .verb then do
      let known ← .ask (.form w.gloss p.code p.person) (form w.gloss p.code p.person)
      pure (known.getD w.plain)
    else pure w.plain

/-- The text of a segment. -/
def renderSegment (ws : List Word) : Segment → Consultation String
  | .literal t => pure t
  | .stray c => pure (String.singleton c)
  | .placeholder p => fill form ws p

/-- The texts of segments, one after the other. -/
def renderRaw (ws : List Word) : List Segment → Consultation String
  | [] => pure ""
  | s :: segs => do
    let t ← renderSegment form ws s
    let ts ← renderRaw ws segs
    pure (t ++ ts)

/-- The text of a template, with single spaces between its words. -/
def render (ws : List Word) (t : Template) : Consultation String := do
  let raw ← renderRaw form ws t.segments
  pure (Text.oneSpaced raw)

end SignGloss
