/-
  Confidences between 0 and 1.

  `Binary.value` is the number that a finite number of a format stands for, as a
  rational.  A confidence passes the check of requests iff it is finite and its
  value is between 0 and 1 (`inUnit_iff`), and a request passes iff its tokens do
  (`Request.check_eq_ok_iff`).
-/
import Mathlib.Algebra.Order.Field.Basic
import Mathlib.Algebra.Order.Field.Rat
import SignGloss.Request

namespace SignGloss

namespace Binary

/-- The value of a finite number. -/
def value {w f : Nat} (x : Binary w f) : ℚ :=
  (if x.negative then -1 else 1) * (x.ratio.1 / x.ratio.2)

variable {x : Single}

theorem twoTo_pos (n : Nat) : 0 < twoTo n := Nat.pow_pos (by decide)

theorem twoTo_le {m n : Nat} (h : m ≤ n) : twoTo m ≤ twoTo n :=
  Nat.pow_le_pow_right (by decide) h

theorem twoTo_23 : twoTo 23 = 8388608 := by decide

theorem ratio_pos {w f : Nat} (x : Binary w f) : 0 < x.ratio.2 := by
  unfold ratio scale
  split
  · exact Nat.one_pos
  · rw [Nat.one_mul]
    exact twoTo_pos _

theorem power_single (x : Single) : x.power = (x.exponent.toNat - 1 : Nat) - 149 := by
  have h : minPower 8 23 = -149 := by decide
  rw [power, h]
  omega

theorem ratio_eq_zero_iff : x.ratio.1 = 0 ↔ x.magnitude = 0 := by
  have hpos := twoTo_pos x.power.toNat
  have hmantissa : x.mantissa = 0 ↔ x.magnitude = 0 := by
    unfold mantissa magnitude
    rw [twoTo_23]
    split <;> omega
  unfold ratio scale
  split
  · rw [← hmantissa, Nat.mul_eq_zero, or_iff_left hpos.ne']
  · exact hmantissa

/-- A number is at most one iff its position is at most that of one. -/
theorem ratio_le_iff : x.ratio.1 ≤ x.ratio.2 ↔ x.magnitude ≤ 127 * twoTo 23 := by
  have h22 : twoTo 22 = 4194304 := by decide
  have h24 : twoTo 24 = 16777216 := by decide
  have hf : x.fraction.toNat < 8388608 := x.fraction.isLt
  have hp := power_single x
  unfold ratio scale
  split
  · have hm : x.mantissa ≤ x.mantissa * twoTo x.power.toNat :=
      Nat.le_mul_of_pos_right _ (twoTo_pos _)
    rw [mantissa, if_neg (by omega), twoTo_23] at hm
    simp only [mantissa, magnitude, twoTo_23]
    rw [if_neg (by omega)]
    omega
  · rw [Nat.one_mul]
    simp only [mantissa, magnitude, twoTo_23]
    rcases Nat.lt_trichotomy x.exponent.toNat 127 with he | he | he
    · have hden := twoTo_le (show 24 ≤ (-x.power).toNat by omega)
      split <;> omega
    · have hden : (-x.power).toNat = 23 := by omega
      rw [hden, twoTo_23, if_neg (by omega)]
      omega
    · have hden := twoTo_le (show (-x.power).toNat ≤ 22 by omega)
      rw [if_neg (by omega)]
      omega

theorem quotient_nonneg (x : Single) : (0 : ℚ) ≤ x.ratio.1 / x.ratio.2 :=
  div_nonneg (Nat.cast_nonneg _) (Nat.cast_nonneg _)

theorem quotient_le_one_iff : (x.ratio.1 / x.ratio.2 : ℚ) ≤ 1 ↔ x.magnitude ≤ 127 * twoTo 23 := by
  have hden : (0 : ℚ) < x.ratio.2 := Nat.cast_pos.2 (ratio_pos x)
  rw [div_le_one hden, Nat.cast_le, ratio_le_iff]

theorem quotient_eq_zero_iff : (x.ratio.1 / x.ratio.2 : ℚ) = 0 ↔ x.magnitude = 0 := by
  have hden : (x.ratio.2 : ℚ) ≠ 0 := Nat.cast_ne_zero.2 (ratio_pos x).ne'
  rw [div_eq_zero_iff, or_iff_left hden, Nat.cast_eq_zero, ratio_eq_zero_iff]

theorem isFinite_of_magnitude_le (h : x.magnitude ≤ 127 * twoTo 23) : x.isFinite = true := by
  have hinf : infiniteMagnitude 8 23 = 255 * twoTo 23 := by decide +kernel
  rw [isFinite, decide_eq_true_eq, hinf]
  rw [twoTo_23] at h ⊢
  omega

/-- **A confidence passes iff its value is between 0 and 1.** -/
theorem inUnit_iff : x.inUnit = true ↔ x.isFinite = true ∧ 0 ≤ x.value ∧ x.value ≤ 1 := by
  have hone : (one : Single).magnitude = 127 * twoTo 23 := by decide +kernel
  simp only [inUnit, hone, value, Bool.and_eq_true, Bool.or_eq_true, Bool.not_eq_true',
    beq_iff_eq, decide_eq_true_eq]
  cases x.negative with
  | false =>
    simp only [true_or, true_and, Bool.false_eq_true, if_false, one_mul, quotient_nonneg,
      quotient_le_one_iff]
    exact ⟨fun h => ⟨isFinite_of_magnitude_le h, h⟩, fun h => h.2⟩
  | true =>
    -- a number with the sign that passes is the negative zero
    simp only [Bool.true_eq_false, false_or, if_true, neg_mul, one_mul, Left.nonneg_neg_iff]
    constructor
    · rintro ⟨h0, h1⟩
      have hzero := quotient_eq_zero_iff.2 h0
      exact ⟨isFinite_of_magnitude_le h1, hzero.le, by rw [hzero]; decide⟩
    · rintro ⟨-, h0, -⟩
      have h := quotient_eq_zero_iff.1 (le_antisymm h0 (quotient_nonneg x))
      exact ⟨h, by omega⟩

end Binary

/-! ## The check of requests -/

theorem Token.error?_eq_none_iff {i : Nat} {t : Token} :
    t.error? i = none ↔ ¬ t.stop < t.start ∧ t.confidence.inUnit = true := by
  unfold error?
  split
  · rename_i h
    simp [h]
  · rename_i h
    split <;> simp_all

theorem firstError?_eq_none_iff {ts : List Token} {i : Nat} : firstError? i ts = none ↔
    ∀ t ∈ ts, ¬ t.stop < t.start ∧ t.confidence.inUnit = true := by
  induction ts generalizing i with
  | nil => simp [firstError?]
  | cons t ts ih =>
    rw [firstError?, Option.or_eq_none_iff, Token.error?_eq_none_iff, ih, List.forall_mem_cons]

/-- A request passes iff no token ends before it starts and all confidences are
    between 0 and 1. -/
theorem Request.check_eq_ok_iff {req : Request} : req.check = .ok () ↔
    ∀ t ∈ req.tokens, ¬ t.stop < t.start ∧ t.confidence.inUnit = true := by
  rw [← firstError?_eq_none_iff (i := 0), check]
  cases firstError? 0 req.tokens <;> simp

end SignGloss
