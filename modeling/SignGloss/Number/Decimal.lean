/-
  Decimal forms of binary floating-point numbers.

  * `Decimal` is a natural number with a power of ten, `coefficient · 10 ^ scale`;
  * the reals nearer to a number than to its neighbours form an interval
    (`Reach`), whose ends belong to it iff the mantissa is even;
  * `shortest` is the decimal with the fewest digits in that interval, of those
    the nearest one.  For each number of digits only the two neighbours of the
    value on the decimal grid can be nearest, so only they are tried.
-/
import SignGloss.Number.Binary

namespace SignGloss

/-- The value `coefficient · 10 ^ scale`. -/
structure Decimal where
  coefficient : Nat
  scale : Int
deriving Repr, DecidableEq

/-- How a value half-way between two decimals is written. -/
inductive Tie where
  /-- by the decimal with an even last digit -/
  | even
  /-- by the greater decimal -/
  | up
deriving Repr, DecidableEq

namespace Decimal

/-- The digits, most significant first. -/
def digits (d : Decimal) : List Char := Nat.toDigits 10 d.coefficient

/-- The power of ten of the first digit. -/
def leading (d : Decimal) : Int := d.scale + d.digits.length - 1

/-- The same value without zeros at the end; at most `n` of them are dropped. -/
def dropZeros : Nat → Decimal → Decimal
  | 0, d => d
  | n + 1, d =>
    if d.coefficient % 10 = 0 ∧ d.coefficient ≠ 0 then dropZeros n ⟨d.coefficient / 10, d.scale + 1⟩
    else d

end Decimal

namespace Binary

variable {w f : Nat}

/-- A value and the ends of the interval that rounds to it, as multiples of
    `1 / unit`. -/
structure Reach where
  low : Nat
  value : Nat
  high : Nat
  unit : Nat
  closed : Bool

/-- The interval of a finite number other than zero.  Below a power of two the
    neighbour is half as far away. -/
def reach (x : Binary w f) : Reach :=
  let m := x.mantissa
  let below := if m = twoTo f ∧ 1 < x.exponent.toNat then 1 else 2
  let s := scale 1 1 (x.power - 2)
  ⟨(4 * m - below) * s.1, 4 * m * s.1, (4 * m + 2) * s.1, s.2, m % 2 = 0⟩

namespace Reach

/-- Membership of `n · 10 ^ s`. -/
def has (r : Reach) (n : Nat) (s : Int) : Bool :=
  let p := r.unit * (if 0 ≤ s then n * tenTo s.toNat else n)
  let t := if 0 ≤ s then 1 else tenTo (-s).toNat
  if r.closed then r.low * t ≤ p && p ≤ r.high * t else r.low * t < p && p < r.high * t

/-- The power of ten of the first digit of the value. -/
def leading (r : Reach) : Int :=
  if r.unit ≤ r.value then (Nat.toDigits 10 (r.value / r.unit)).length - 1
  else -(Nat.toDigits 10 ((r.unit + r.value - 1) / r.value - 1)).length

/-- The decimal with `n` digits that stands for the value, if one does. -/
def point? (r : Reach) (tie : Tie) (n : Nat) : Option Decimal :=
  let s := r.leading + 1 - n
  let num := if 0 ≤ s then r.value else r.value * tenTo (-s).toNat
  let den := if 0 ≤ s then r.unit * tenTo s.toNat else r.unit
  let d := num / den
  let rest := num % den
  let upward := den < 2 * rest ∨ (2 * rest = den ∧ (tie = .up ∨ d % 2 = 1))
  match r.has d s, r.has (d + 1) s with
  | true, true => some ⟨if upward then d + 1 else d, s⟩
  | true, false => some ⟨d, s⟩
  | false, true => some ⟨d + 1, s⟩
  | false, false => none

end Reach

/-- The fewest digits that a number needs at most: 17 are enough for 64 bits. -/
def mostDigits : Nat := 17

/-- The shortest decimal that reads back as `x`, for a finite `x` other than zero. -/
def shortest (tie : Tie) (x : Binary w f) : Decimal :=
  let r := x.reach
  match (List.range mostDigits).findSome? fun n => r.point? tie (n + 1) with
  | some d => d.dropZeros mostDigits
  | none => ⟨0, 0⟩

end Binary

end SignGloss
