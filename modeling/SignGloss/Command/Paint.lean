/-
  Colours on a terminal.

  A `Paint` puts a text between the control sequences that start and end a colour
  or a weight.
-/
namespace SignGloss.Command

/-- A colour or a weight. -/
inductive Paint where
  | bold
  | dim
  | green
  | yellow
  | cyan
deriving Repr, DecidableEq

namespace Paint

/-- The codes that start and end it. -/
def codes : Paint → Nat × Nat
  | bold => (1, 0)
  | dim => (2, 0)
  | green => (32, 39)
  | yellow => (33, 39)
  | cyan => (36, 39)

/-- The control sequence with a code. -/
def sequence (code : Nat) : String := "\x1b[" ++ toString code ++ "m"

/-- A painted text. -/
def apply (p : Paint) (s : String) : String := sequence p.codes.1 ++ s ++ sequence p.codes.2

end Paint

end SignGloss.Command
