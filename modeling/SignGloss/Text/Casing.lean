/-
  Case mapping.

  * `upperChar`, `lowerChar`: the full case images of one character, which may
    have several characters (`ß` becomes `SS`);
  * `toUpper`, `toLower`: the case images of a text.  A capital sigma becomes
    the final small sigma where it ends a word (`endsWord`): some letter with
    case stands before it and none after it, looking past apostrophes, accents
    and the like on both sides.
-/
import SignGloss.Text.CaseData

namespace SignGloss.Text

/-- The image of a character under case data: one character by a run, several
    by a text, and else the character itself. -/
def caseImage (runs : List CaseRun) (texts : List (Nat × List Nat)) (c : Char) : List Char :=
  match runs.findSome? (·.imageOf c) with
  | some d => [d]
  | none =>
    match texts.lookup c.toNat with
    | some ds => ds.map Char.ofNat
    | none => [c]

/-- The upper-case form of a character. -/
def upperChar (c : Char) : List Char := caseImage upperRuns upperTexts c

/-- The lower-case form of a character, where its place in a word is ignored. -/
def lowerChar (c : Char) : List Char := caseImage lowerRuns lowerTexts c

/-- The upper-case form of a text. -/
def toUpper (s : String) : String := String.ofList (s.toList.flatMap upperChar)

/-! ## Lower case -/

/-- The first character of `s` that is not case-ignorable is there and has case. -/
def seesCased (s : List Char) : Bool :=
  match s.dropWhile ignorableClass.has with
  | [] => false
  | c :: _ => casedClass.has c

/-- Whether a sigma between two texts ends a word.  The text before it is given
    backwards. -/
def endsWord (before after : List Char) : Bool := seesCased before && !seesCased after

/-- The lower-case form of a text that has `before`, given backwards, before it. -/
def lowerAfter (before : List Char) : List Char → List Char
  | [] => []
  | c :: s =>
    (if c = 'Σ' then [if endsWord before s then 'ς' else 'σ'] else lowerChar c)
      ++ lowerAfter (c :: before) s

/-- The lower-case form of a text. -/
def toLower (s : String) : String := String.ofList (lowerAfter [] s.toList)

end SignGloss.Text
