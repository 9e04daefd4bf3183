/-
  Binary floating-point numbers.

  * `Binary w f` holds the fields of an interchange format with `w` exponent
    bits and `f` fraction bits; `Single` and `Double` are those of 32 and 64
    bits;
  * a finite number is `± mantissa · 2 ^ power`, and `magnitude` numbers the
    absolute values of a format in increasing order, infinity behind the finite
    ones and the values that are not a number behind infinity;
  * `ofRatio` is the number nearest to a fraction, of two equally near ones the
    one with an even mantissa.  The operations round their exact result so.
-/
import SignGloss.Number.Power

namespace SignGloss

/-- The fields of a floating-point number with `w` exponent bits and `f`
    fraction bits. -/
structure Binary (w f : Nat) where
  negative : Bool
  exponent : BitVec w
  fraction : BitVec f
deriving Repr, DecidableEq

/-- The numbers of 32 bits. -/
abbrev Single := Binary 8 23

/-- The numbers of 64 bits. -/
abbrev Double := Binary 11 52

/-- `num / den` to the nearest whole number, a half to the even one. -/
def roundEven (num den : Nat) : Nat :=
  let q := num / den
  let r := num % den
  if 2 * r < den then q
  else if den < 2 * r then q + 1
  else if q % 2 = 0 then q else q + 1

namespace Binary

variable {w f : Nat}

/-! ## Values -/

/-- The position of the absolute value among those of the format. -/
def magnitude (x : Binary w f) : Nat := x.exponent.toNat * twoTo f + x.fraction.toNat

/-- The position of infinity. -/
def infiniteMagnitude (w f : Nat) : Nat := (twoTo w - 1) * twoTo f

/-- The number with a sign and a position. -/
def ofMagnitude (negative : Bool) (n : Nat) : Binary w f :=
  ⟨negative, BitVec.ofNat w (n / twoTo f), BitVec.ofNat f n⟩

/-- Neither infinite nor without a value. -/
def isFinite (x : Binary w f) : Bool := x.magnitude < infiniteMagnitude w f

/-- An infinite number. -/
def isInfinite (x : Binary w f) : Bool := x.magnitude == infiniteMagnitude w f

/-- The power of two that the least mantissas are scaled by. -/
def minPower (w f : Nat) : Int := 2 - twoTo (w - 1) - f

/-- The mantissa of a finite number. -/
def mantissa (x : Binary w f) : Nat :=
  if x.exponent.toNat = 0 then x.fraction.toNat else twoTo f + x.fraction.toNat

/-- The power of two that the mantissa is scaled by. -/
def power (x : Binary w f) : Int := minPower w f + (x.exponent.toNat - 1 : Nat)

/-- The fraction `n / d · 2 ^ q`. -/
def scale (n d : Nat) (q : Int) : Nat × Nat :=
  if 0 ≤ q then (n * twoTo q.toNat, d) else (n, d * twoTo (-q).toNat)

/-- The absolute value of a finite number, as a fraction. -/
def ratio (x : Binary w f) : Nat × Nat := scale x.mantissa 1 x.power

/-! ## Rounding -/

/-- A power `q` with `2 ^ f ≤ n / d / 2 ^ q < 2 ^ (f + 1)`, where the format has
    one, and else the least power. -/
def powerFor (w f n d : Nat) : Int :=
  let q := (n.log2 : Int) - d.log2 - f
  let s := scale n d (-q)
  max (if s.1 < s.2 * twoTo f then q - 1 else q) (minPower w f)

/-- The number nearest to `± n / d`. -/
def ofRatio (negative : Bool) (n d : Nat) : Binary w f :=
  let q := powerFor w f n d
  let s := scale n d (-q)
  let m := (q - minPower w f).toNat * twoTo f + roundEven s.1 s.2
  if n = 0 then ofMagnitude negative 0
  else ofMagnitude negative (min m (infiniteMagnitude w f))

/-- The number nearest to a natural number. -/
def ofNat (n : Nat) : Binary w f := ofRatio false n 1

/-- The number nearest to an integer. -/
def ofInt (n : Int) : Binary w f := ofRatio (n < 0) n.natAbs 1

/-- The negated number. -/
def neg (x : Binary w f) : Binary w f := { x with negative := !x.negative }

/-- The number of another format nearest to `x`. -/
def convert {w' f' : Nat} (x : Binary w f) : Binary w' f' :=
  if x.isFinite then ofRatio x.negative x.ratio.1 x.ratio.2
  else if x.isInfinite then ofMagnitude x.negative (infiniteMagnitude w' f')
  else ofMagnitude x.negative (infiniteMagnitude w' f' + 1)

/-- The product of two finite numbers, rounded. -/
def mul (x y : Binary w f) : Binary w f :=
  ofRatio (x.negative != y.negative) (x.ratio.1 * y.ratio.1) (x.ratio.2 * y.ratio.2)

/-- The quotient of two finite numbers, rounded; `y` is not zero. -/
def div (x y : Binary w f) : Binary w f :=
  ofRatio (x.negative != y.negative) (x.ratio.1 * y.ratio.2) (x.ratio.2 * y.ratio.1)

/-! ## Comparison -/

/-- The number one. -/
def one : Binary w f := ofNat 1

/-- `0 ≤ x ≤ 1`.  Both zeros qualify, and what is not a number does not. -/
def inUnit (x : Binary w f) : Bool :=
  (!x.negative || x.magnitude == 0) && x.magnitude ≤ (one : Binary w f).magnitude

end Binary

end SignGloss
