/-
  Diagnostics.

  A `Diagnostic` points at a place in a named text.  The place is given by line
  and column and shown as a reader would count them on a screen.
-/
import SignGloss.Text.Place

namespace SignGloss.Command

/-- A message about a place in a text. -/
structure Diagnostic where
  /-- What the text is called. -/
  source : String
  content : String
  /-- The line, from 1. -/
  line : Nat
  /-- The byte of the line, from 1. -/
  column : Nat
  message : String
  help : Option String := none
deriving Repr, DecidableEq

namespace Diagnostic

/-- The offset that the diagnostic points at. -/
def offset (d : Diagnostic) : Nat := Text.offsetAt d.content.toList d.line d.column

/-- The line that names the place. -/
def header (d : Diagnostic) : String :=
  let p := Text.Place.shown d.content.toList d.offset
  "╭─[" ++ d.source ++ ":" ++ toString (p.line + 1) ++ ":" ++ toString (p.column + 1) ++ "]"

/-- The lines of the diagnostic. -/
def lines (d : Diagnostic) : List String :=
  ["  × syntax error: " ++ d.message, "   " ++ d.header]
    ++ (d.help.map fun h => "  help: " ++ h).toList

end Diagnostic

end SignGloss.Command
