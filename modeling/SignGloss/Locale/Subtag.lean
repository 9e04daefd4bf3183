/-
  Subtags of locale tags.

  A locale tag is a list of subtags with hyphens between them.  What a subtag
  may stand for shows in its length and in the kinds of its characters; letters
  and digits are those of ASCII, and case does not matter.
-/
import SignGloss.Text.Place

namespace SignGloss

/-- A stretch of a locale tag between hyphens. -/
abbrev Subtag := List Char

namespace Subtag

/-- The subtag in lower case. -/
def lower (s : Subtag) : Subtag := s.map Char.toLower

/-- The subtag in upper case. -/
def upper (s : Subtag) : Subtag := s.map Char.toUpper

/-- The subtag with a capital at its start. -/
def title : Subtag → Subtag
  | [] => []
  | c :: s => c.toUpper :: lower s

/-- The length lies in a range. -/
def sizeIn (low high : Nat) (s : Subtag) : Bool := low ≤ s.length && s.length ≤ high

/-- A language: two or three letters. -/
def isLanguage (s : Subtag) : Bool := s.sizeIn 2 3 && s.all Char.isAlpha

/-- A script: four letters. -/
def isScript (s : Subtag) : Bool := s.sizeIn 4 4 && s.all Char.isAlpha

/-- A region: two letters or three digits. -/
def isRegion (s : Subtag) : Bool :=
  (s.sizeIn 2 2 && s.all Char.isAlpha) || (s.sizeIn 3 3 && s.all Char.isDigit)

/-- A variant: five to eight letters or digits, or four that start with a digit. -/
def isVariant (s : Subtag) : Bool :=
  s.all Char.isAlphanum && (s.sizeIn 5 8 || (s.sizeIn 4 4 && (s.head?.any Char.isDigit)))

/-- An attribute or a part of a keyword's value: three to eight letters or digits. -/
def isValue (s : Subtag) : Bool := s.sizeIn 3 8 && s.all Char.isAlphanum

/-- A key of a Unicode extension: a letter or digit, then a letter. -/
def isUnicodeKey : Subtag → Bool
  | [a, b] => a.isAlphanum && b.isAlpha
  | _ => false

/-- A key of a transformed content extension: a letter, then a digit. -/
def isTransformKey : Subtag → Bool
  | [a, b] => a.isAlpha && b.isDigit
  | _ => false

/-- A part of a private use extension: one to eight letters or digits. -/
def isPrivatePart (s : Subtag) : Bool := s.sizeIn 1 8 && s.all Char.isAlphanum

/-- A subtag of one byte, which starts an extension. -/
def isSingleton (s : Subtag) : Bool := Text.size s == 1

/-- The length in bytes that a part of any other extension has. -/
def isOtherSized (s : Subtag) : Bool := 2 ≤ Text.size s && Text.size s ≤ 8

/-- The value that says no more than that its key is there. -/
def trueValue : Subtag := ['t', 'r', 'u', 'e']

/-- The order of subtags, character by character. -/
def le : Subtag → Subtag → Bool
  | [], _ => true
  | _ :: _, [] => false
  | c :: s, d :: t => if c = d then le s t else c.toNat < d.toNat

/-- Subtags in order. -/
def sort (ss : List Subtag) : List Subtag := ss.mergeSort le

end Subtag

end SignGloss
