/-
  Faults of JSON texts.

  * a `Cause` says what is wrong: the text is no JSON, or a value is not what is
    expected at its place (`Found` says what is there instead);
  * a `Fault` is a cause with the place where reading stopped, given by what was
    left of the text and how many bytes of that had been looked at;
  * `Fault.locate` turns the place into a line, from 1, and the number of bytes
    of that line up to it.
-/
import SignGloss.Number.Layout
import SignGloss.Text.Place
import SignGloss.Text.Quoted

namespace SignGloss.Json

/-- A value that was not expected. -/
inductive Found where
  | null
  | boolean (b : Bool)
  | integer (n : Int)
  | real (x : Double)
  | text (s : String)
  | list
  | record
deriving Repr, DecidableEq

/-- The value in a message. -/
def Found.describe : Found → String
  | null => "null"
  | boolean b => "boolean `" ++ toString b ++ "`"
  | integer n => "integer `" ++ toString n ++ "`"
  | real x => "floating point `" ++ String.ofList (Layout.json64.text x) ++ "`"
  | text s => "string " ++ Text.quoted s
  | list => "sequence"
  | record => "map"

/-- What is wrong with a text. -/
inductive Cause where
  | endOfValue
  | endOfList
  | endOfRecord
  | endOfText
  | expectedValue
  | expectedWord
  | expectedColon
  | expectedListEnd
  | expectedRecordEnd
  | keyNotText
  | trailingComma
  | trailingCharacters
  | invalidNumber
  | numberOutOfRange
  | invalidEscape
  | endOfEscape
  | loneSurrogate
  | controlCharacter
  /-- a value of another kind -/
  | wrongType (found : Found) (expected : String)
  /-- a number out of range -/
  | wrongValue (found : Int) (expected : String)
  | missingField (name : String)
  | duplicateField (name : String)
  /-- a list of the wrong length for a record with so many fields -/
  | wrongLength (found : Nat) (record : String) (fields : Nat)
deriving Repr, DecidableEq

/-- The cause in a message. -/
def Cause.message : Cause → String
  | endOfValue => "EOF while parsing a value"
  | endOfList => "EOF while parsing a list"
  | endOfRecord => "EOF while parsing an object"
  | endOfText => "EOF while parsing a string"
  | expectedValue => "expected value"
  | expectedWord => "expected ident"
  | expectedColon => "expected `:`"
  | expectedListEnd => "expected `,` or `]`"
  | expectedRecordEnd => "expected `,` or `\x7d`"
  | keyNotText => "key must be a string"
  | trailingComma => "trailing comma"
  | trailingCharacters => "trailing characters"
  | invalidNumber => "invalid number"
  | numberOutOfRange => "number out of range"
  | invalidEscape => "invalid escape"
  | endOfEscape => "unexpected end of hex escape"
  | loneSurrogate => "lone leading surrogate in hex escape"
  | controlCharacter => "control character (\\u0000-\\u001F) found while parsing a string"
  | wrongType found expected => "invalid type: " ++ found.describe ++ ", expected " ++ expected
  | wrongValue found expected =>
    "invalid value: " ++ (Found.integer found).describe ++ ", expected " ++ expected
  | missingField name => "missing field `" ++ name ++ "`"
  | duplicateField name => "duplicate field `" ++ name ++ "`"
  | wrongLength found record fields =>
    "invalid length " ++ toString found ++ ", expected struct " ++ record ++ " with "
      ++ toString fields ++ " elements"

/-- A cause, what was left of the text, and the bytes of it that were looked at. -/
structure Fault where
  cause : Cause
  rest : List Char
  ahead : Nat
deriving Repr, DecidableEq

namespace Fault

/-- A fault found before `rest`. -/
def before (rest : List Char) (cause : Cause) : Fault := ⟨cause, rest, 0⟩

/-- A fault found in the first byte of `rest`. -/
def within (rest : List Char) (cause : Cause) : Fault := ⟨cause, rest, 1⟩

end Fault

/-- A cause with a line, from 1, and the bytes read of that line. -/
structure Located where
  line : Nat
  column : Nat
  cause : Cause
deriving Repr, DecidableEq

/-- The fault as told to the author of the text. -/
def Located.message (l : Located) : String :=
  l.cause.message ++ " at line " ++ toString l.line ++ " column " ++ toString l.column

/-- Find the place of a fault in a text. -/
def Fault.locate (s : List Char) (f : Fault) : Located :=
  let p := Text.Place.of s (Text.size s - Text.size f.rest + f.ahead)
  ⟨p.line + 1, p.column, f.cause⟩

end SignGloss.Json
