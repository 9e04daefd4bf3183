/-
  Written forms of floating-point numbers.

  * `Layout` says how the shortest decimal of a number is laid out: the powers
    of ten of the first digit that are written without an exponent, whether a
    whole number keeps a `.0`, and how ties go;
  * `Layout.json32`, `Layout.json64` are the layouts of documents, and
    `Layout.plain` that of messages, which never has an exponent;
  * `fixed places` is a number with a fixed number of digits after the point.
-/
import SignGloss.Number.Decimal

namespace SignGloss

/-- How a decimal is laid out. -/
structure Layout where
  /-- The powers of the first digit that need no exponent; `none`: all do. -/
  positional : Option (Int × Int)
  /-- A whole number ends in `.0`. -/
  pointZero : Bool
  /-- How a value half-way between two decimals is written. -/
  tie : Tie

namespace Layout

/-- Documents write a 32-bit number without an exponent from `10 ^ -6` to below
    `10 ^ 13`. -/
def json32 : Layout := ⟨some (-6, 12), true, .even⟩

/-- Documents write a 64-bit number without an exponent from `10 ^ -5` to below
    `10 ^ 16`. -/
def json64 : Layout := ⟨some (-5, 15), true, .even⟩

/-- Messages write a number without an exponent, and a whole one without a point. -/
def plain : Layout := ⟨none, false, .up⟩

/-- A decimal without an exponent. -/
def positionalText (pointZero : Bool) (d : Decimal) : List Char :=
  let ds := d.digits
  if d.leading < 0 then
    ['0', '.'] ++ List.replicate (-d.leading - 1).toNat '0' ++ ds
  else if 0 ≤ d.scale then
    ds ++ List.replicate d.scale.toNat '0' ++ if pointZero then ['.', '0'] else []
  else
    let whole := (d.leading + 1).toNat
    ds.take whole ++ ['.'] ++ ds.drop whole

/-- A decimal with an exponent, which always has a sign. -/
def scientificText (d : Decimal) : List Char :=
  let e := d.leading
  let mark := if e < 0 then '-' else '+'
  let tail := ['e', mark] ++ Nat.toDigits 10 e.natAbs
  match d.digits with
  | [] => tail
  | [c] => c :: tail
  | c :: ds => [c, '.'] ++ ds ++ tail

/-- The absolute value of a finite number. -/
def magnitudeText (l : Layout) {w f : Nat} (x : Binary w f) : List Char :=
  if x.magnitude = 0 then
    if l.pointZero then ['0', '.', '0'] else ['0']
  else
    let d := x.shortest l.tie
    match l.positional with
    | none => positionalText l.pointZero d
    | some (low, high) =>
      if low ≤ d.leading ∧ d.leading ≤ high then positionalText l.pointZero d
      else scientificText d

/-- A number; what is not finite is spelled out. -/
def text (l : Layout) {w f : Nat} (x : Binary w f) : List Char :=
  if x.isFinite then (if x.negative then ['-'] else []) ++ l.magnitudeText x
  else if x.isInfinite then (if x.negative then ['-'] else []) ++ ['i', 'n', 'f']
  else ['N', 'a', 'N']

end Layout

/-- A finite number with `places` digits after the point, a half going to the
    even neighbour. -/
def Binary.fixed {w f : Nat} (places : Nat) (x : Binary w f) : List Char :=
  let n := roundEven (x.ratio.1 * tenTo places) x.ratio.2
  let part := Nat.toDigits 10 (n % tenTo places)
  (if x.negative then ['-'] else []) ++ Nat.toDigits 10 (n / tenTo places) ++ ['.']
    ++ List.replicate (places - part.length) '0' ++ part

end SignGloss
