/-
  Part-of-speech patterns, such as `[PRON] [VERB] [NOUN]`.

  * a `Pattern` is a list of tags; it matches a sequence of tags iff it is that
    list (`matchesTags`, `matchesTags_iff`);
  * `Pattern.parse` reads a pattern: one or more bracketed tags, with spaces
    around the brackets and inside them.  A tag is a non-empty run of characters
    other than blanks and brackets;
  * a text that is no pattern is blank or has a place where reading stopped
    (`PatternError`).  A first tag that is not well formed is reported where it
    goes wrong, a later one at its start, since what was read before it is a
    pattern already.
-/
import SignGloss.Tag
import SignGloss.Text.Blank
import SignGloss.Text.Place

namespace SignGloss

open Text

/-- A sequence of parts of speech. -/
structure Pattern where
  tags : List Tag
deriving Repr, DecidableEq

/-- Why a text is no pattern. -/
inductive PatternError where
  /-- nothing but blanks -/
  | blank
  /-- no tag at a line and column, both from 1, where a character or the end is -/
  | noTag (line column : Nat) (found : Option Char)
deriving Repr, DecidableEq

namespace PatternError

/-- What was expected where reading stopped. -/
def detail : Option Char → String
  | some c => "expected '[TAG]', found '" ++ String.singleton c ++ "'"
  | none => "expected '[TAG]'"

/-- The error as told to the author of a rule. -/
def message : PatternError → String
  | blank => "empty pattern"
  | noTag line column found =>
    "syntax error at " ++ toString line ++ ":" ++ toString column ++ ": " ++ detail found

/-- The error of a text `s` of which `rest` is left. -/
def stopped (s rest : List Char) : PatternError :=
  let p := Place.of s (size s - size rest)
  noTag (p.line + 1) (p.column + 1) rest.head?

end PatternError

namespace Pattern

/-- A pattern in its usual form, one space between the tags. -/
def text (p : Pattern) : String :=
  " ".intercalate (p.tags.map fun t => "[" ++ t.name ++ "]")

/-- Two sequences of tags agree place by place, up to the end of both. -/
def agree : List Tag → List Tag → Bool
  | [], us => us.isEmpty
  | _ :: _, [] => false
  | t :: ts, u :: us => u = t && agree ts us

/-- The sequence of tags is the pattern. -/
def matchesTags (p : Pattern) (us : List Tag) : Bool := agree p.tags us

theorem agree_iff {ts us : List Tag} : agree ts us = true ↔ us = ts := by
  induction ts generalizing us with
  | nil => simp [agree]
  | cons t ts ih =>
    cases us with
    | nil => simp [agree]
    | cons u us => simp [agree, ih]

theorem matchesTags_iff {p : Pattern} {us : List Tag} : p.matchesTags us = true ↔ us = p.tags :=
  agree_iff

/-- The tag occurs in the pattern. -/
def contains (p : Pattern) (t : Tag) : Bool := p.tags.contains t

/-! ## Reading -/

/-- A character that may stand in a tag of a pattern. -/
def isTagChar (c : Char) : Bool := !isBlank c && c != '[' && c != ']'

/-- `s` without the spaces at its start. -/
def skipSpaces (s : List Char) : List Char := s.dropWhile isSpace

/-- Read a bracketed tag and the spaces after it; otherwise give what is left
    where the tag goes wrong. -/
def readTag : List Char → Except (List Char) (Tag × List Char)
  | '[' :: s =>
    let inner := skipSpaces s
    let name := inner.takeWhile isTagChar
    let rest := inner.dropWhile isTagChar
    if name.isEmpty then .error rest
    else match skipSpaces rest with
      | ']' :: r => .ok (⟨String.ofList name⟩, skipSpaces r)
      | r => .error r
  | s => .error s

theorem length_skipSpaces (s : List Char) : (skipSpaces s).length ≤ s.length :=
  (List.dropWhile_suffix _).length_le

theorem length_of_readTag {s r : List Char} {t : Tag} (h : readTag s = .ok (t, r)) :
    r.length < s.length := by
  unfold readTag at h
  split at h
  · rename_i s'
    simp only at h
    split at h
    · cases h
    · split at h
      · rename_i r' hr
        cases h
        have h₁ := length_skipSpaces r'
        have h₂ := length_skipSpaces ((skipSpaces s').dropWhile isTagChar)
        have h₃ : ((skipSpaces s').dropWhile isTagChar).length ≤ (skipSpaces s').length :=
          (List.dropWhile_suffix _).length_le
        have h₄ := length_skipSpaces s'
        rw [hr] at h₂
        simp only [List.length_cons] at h₂ ⊢
        omega
      · cases h
  · cases h

/-- Read bracketed tags as long as they are well formed. -/
def readTags (s : List Char) : List Tag × List Char :=
  match h : readTag s with
  | .error _ => ([], s)
  | .ok (t, r) =>
    have := length_of_readTag h
    let (ts, r') := readTags r
    (t :: ts, r')
termination_by s.length

/-- Read a pattern. -/
def parse (s : String) : Except PatternError Pattern :=
  let cs := s.toList
  if cs.all isBlank then .error .blank
  else match readTag (skipSpaces cs) with
    | .error rest => .error (.stopped cs rest)
    | .ok (t, r) =>
      match readTags r with
      | (ts, []) => .ok ⟨t :: ts⟩
      | (_, rest) => .error (.stopped cs rest)

end Pattern

end SignGloss
