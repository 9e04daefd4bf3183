/-
  Texts as they are quoted in messages.

  * `quoted s` is `s` between double quotes.  A quote and a backslash have a
    backslash before them, NUL, tab, line feed and carriage return are written
    by a letter, and another character without a picture of its own is written
    by its code point, as `\u{301}`.
-/
import SignGloss.Text.InvisibleData

namespace SignGloss.Text

/-- A code point between braces after `\u`. -/
def codePointEscape (c : Char) : List Char :=
  ['\\', 'u', '\x7b'] ++ Nat.toDigits 16 c.toNat ++ ['\x7d']

/-- A character as it stands in a quoted text. -/
def quotedChar (c : Char) : List Char :=
  if c = '\x00' then ['\\', '0']
  else if c = '\t' then ['\\', 't']
  else if c = '\n' then ['\\', 'n']
  else if c = '\r' then ['\\', 'r']
  else if c = '"' then ['\\', '"']
  else if c = '\\' then ['\\', '\\']
  else if invisibleClass.has c then codePointEscape c
  else [c]

/-- A text between double quotes. -/
def quoted (s : String) : String :=
  String.ofList (['"'] ++ s.toList.flatMap quotedChar ++ ['"'])

end SignGloss.Text
