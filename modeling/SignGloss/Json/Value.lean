/-
  Values and how they are written.

  * a `Value` is a tree.  Integers and numbers of 32 bits are kept apart, since
    they are written differently, and the members of a record have an order;
  * `Value.compact` writes a value without space, and `Value.indented` with every
    element and member on a line of its own.
-/
import SignGloss.Number.Layout

namespace SignGloss.Json

/-- A value to be written. -/
inductive Value where
  | null
  | boolean (b : Bool)
  | integer (n : Int)
  | single (x : Single)
  | text (s : String)
  | list (vs : List Value)
  | record (ms : List (String × Value))

/-! ## Strings -/

/-- A character of a string. -/
def escaped (c : Char) : List Char :=
  match c with
  | '"' => ['\\', '"']
  | '\\' => ['\\', '\\']
  | '\x08' => ['\\', 'b']
  | '\x0c' => ['\\', 'f']
  | '\n' => ['\\', 'n']
  | '\r' => ['\\', 'r']
  | '\t' => ['\\', 't']
  | c =>
    if c.toNat < 0x20 then
      ['\\', 'u', '0', '0', Nat.digitChar (c.toNat / 16), Nat.digitChar (c.toNat % 16)]
    else [c]

/-- A string in quotes. -/
def writeText (s : String) : List Char := ['"'] ++ s.toList.flatMap escaped ++ ['"']

/-! ## Numbers -/

/-- An integer. -/
def writeInteger (n : Int) : List Char := (toString n).toList

/-- A number of 32 bits.  One that is not finite is lost. -/
def writeSingle (x : Single) : List Char :=
  if x.isFinite then Layout.json32.text x else ['n', 'u', 'l', 'l']

/-! ## Trees -/

/-- How values are spread over lines: not at all, or indented to a depth. -/
abbrev Spread := Option Nat

namespace Spread

/-- One step deeper. -/
def deeper (d : Spread) : Spread := d.map (· + 1)

/-- The start of a line. -/
def lineStart : Spread → List Char
  | none => []
  | some n => '\n' :: List.replicate (2 * n) ' '

/-- What stands between a key and its value. -/
def colon : Spread → List Char
  | none => [':']
  | some _ => [':', ' ']

end Spread

/-- A comma, unless nothing follows. -/
def commaBefore {α : Type} : List α → List Char
  | [] => []
  | _ => [',']

namespace Value

mutual

/-- A value at a depth. -/
def write (d : Spread) : Value → List Char
  | null => ['n', 'u', 'l', 'l']
  | boolean true => ['t', 'r', 'u', 'e']
  | boolean false => ['f', 'a', 'l', 's', 'e']
  | integer n => writeInteger n
  | single x => writeSingle x
  | text s => writeText s
  | list [] => ['[', ']']
  | list vs => ['['] ++ writeItems d.deeper vs ++ d.lineStart ++ [']']
  | record [] => ['{', '}']
  | record ms => ['{'] ++ writeMembers d.deeper ms ++ d.lineStart ++ ['}']

/-- The elements of a list, inside the brackets. -/
def writeItems (d : Spread) : List Value → List Char
  | [] => []
  | v :: vs => d.lineStart ++ v.write d ++ commaBefore vs ++ writeItems d vs

/-- The members of a record, inside the braces. -/
def writeMembers (d : Spread) : List (String × Value) → List Char
  | [] => []
  | (k, v) :: ms =>
    d.lineStart ++ writeText k ++ d.colon ++ v.write d ++ commaBefore ms ++ writeMembers d ms

end

/-- A value on one line without space. -/
def compact (v : Value) : String := String.ofList (v.write none)

/-- A value spread over lines. -/
def indented (v : Value) : String := String.ofList (v.write (some 0))

end Value

end SignGloss.Json
