/-
  Numbers of JSON texts.

  * a `Number` without a fraction and an exponent is an integer as long as it
    fits 64 bits; any other number is a `Double`;
  * a double is read as a whole number `n` with a power of ten: `n` is made of
    the digits that keep it below `2 ^ 64`, digits behind those are dropped, and
    `scaleTen` multiplies or divides once by the power, so that the result may
    differ from the nearest double in the last place;
  * `skipNumber` checks the form of a number only.
-/
import SignGloss.Json.Lexical

namespace SignGloss.Json

/-- A number as it was written. -/
inductive Number where
  /-- an integer from 0 to below `2 ^ 64` -/
  | natural (n : Nat)
  /-- the negative of an integer from 1 to `2 ^ 63` -/
  | negative (n : Nat)
  | real (x : Double)
deriving Repr, DecidableEq

/-- The number in a message. -/
def Number.found : Number → Found
  | natural n => .integer n
  | negative n => .integer (-n)
  | real x => .real x

/-! ## Powers of ten -/

/-- The greatest power of ten that is a finite double. -/
def mostPower : Nat := 308

/-- A power of ten as a double. -/
def tenPower (e : Nat) : Double := .ofNat (tenTo e)

/-- `x · 10 ^ e`, unless it is too great.  Beyond the powers of ten of doubles a
    division is done in several steps. -/
def scaleTen (x : Double) (e : Int) : Option Double :=
  if x.magnitude = 0 then some x
  else if 0 ≤ e then
    if e ≤ mostPower then
      let y := x.mul (tenPower e.toNat)
      if y.isFinite then some y else none
    else none
  else if -e ≤ mostPower then some (x.div (tenPower (-e).toNat))
  else scaleTen (x.div (tenPower mostPower)) (e + mostPower)
termination_by e.natAbs
decreasing_by
  simp only [mostPower] at *
  omega

/-! ## Digits -/

/-- The value of a digit. -/
def digitValue (c : Char) : Nat := c.toNat - '0'.toNat

/-- The text starts with a digit. -/
def startsWithDigit (s : List Char) : Bool := s.head?.any Char.isDigit

/-- The text behind the digits at its start. -/
def dropDigits (s : List Char) : List Char := s.dropWhile Char.isDigit

theorem length_dropDigits (s : List Char) : (dropDigits s).length ≤ s.length :=
  (List.dropWhile_suffix _).length_le

/-- Append digits to `n` as long as the number stays below `2 ^ 64`; `k` counts
    them. -/
def takeDigits (n k : Nat) : List Char → Nat × Nat × List Char
  | [] => (n, k, [])
  | c :: s =>
    if c.isDigit ∧ 10 * n + digitValue c < UInt64.size then takeDigits (10 * n + digitValue c) (k + 1) s
    else (n, k, c :: s)

theorem length_takeDigits (n k : Nat) (s : List Char) :
    (takeDigits n k s).2.2.length ≤ s.length := by
  induction s generalizing n k with
  | nil => exact Nat.le_refl _
  | cons c s ih =>
    rw [takeDigits]
    split
    · exact Nat.le_succ_of_le (ih _ _)
    · exact Nat.le_refl _

/-- The greatest exponent that is kept: the greatest integer of 32 bits. -/
def mostExponent : Nat := 2147483647

/-- Append digits to an exponent, which is given up once it is too great. -/
def takeExponent (e : Nat) : List Char → Option Nat × List Char
  | [] => (some e, [])
  | c :: s =>
    if c.isDigit then
      if 10 * e + digitValue c ≤ mostExponent then takeExponent (10 * e + digitValue c) s else (none, s)
    else (some e, c :: s)

theorem length_takeExponent (e : Nat) (s : List Char) :
    (takeExponent e s).2.length ≤ s.length := by
  induction s generalizing e with
  | nil => exact Nat.le_refl _
  | cons c s ih =>
    rw [takeExponent]
    split
    · split
      · exact Nat.le_succ_of_le (ih _)
      · exact Nat.le_succ _
    · exact Nat.le_refl _

/-! ## Reading -/

/-- The number `± n · 10 ^ e`. -/
def realOf (minus : Bool) (n : Nat) (e : Int) (r : List Char) : Except Fault (Number × List Char) :=
  match scaleTen (.ofNat n) e with
  | some x => .ok (.real (if minus then x.neg else x), r)
  | none => .error (.before r .numberOutOfRange)

/-- The sign of an exponent, and what is behind it. -/
def exponentSign : List Char → Bool × List Char
  | '+' :: s => (false, s)
  | '-' :: s => (true, s)
  | s => (false, s)

theorem length_exponentSign (s : List Char) : (exponentSign s).2.length ≤ s.length := by
  unfold exponentSign
  split <;> simp

/-- Read an exponent behind its `e`, for the number `± n · 10 ^ e`. -/
def readExponent (minus : Bool) (n : Nat) (e : Int) (s : List Char) :
    Except Fault (Number × List Char) :=
  match (exponentSign s).2 with
  | [] => .error (.before [] .endOfValue)
  | c :: r =>
    if !c.isDigit then .error (.within (c :: r) .invalidNumber)
    else match takeExponent (digitValue c) r with
      | (some k, r') => realOf minus n (if (exponentSign s).1 then e - k else e + k) r'
      | (none, r') =>
        if n ≠ 0 ∧ (exponentSign s).1 = false then .error (.before r' .numberOutOfRange)
        else realOf minus 0 0 (dropDigits r')

/-- Read what may follow the digits of the number `± n · 10 ^ e`: an exponent. -/
def readTail (minus : Bool) (n : Nat) (e : Int) : List Char → Except Fault (Number × List Char)
  | 'e' :: r => readExponent minus n e r
  | 'E' :: r => readExponent minus n e r
  | r => realOf minus n e r

/-- Read a fraction behind its point, for the number `± n · 10 ^ e`. -/
def readFraction (minus : Bool) (n : Nat) (e : Int) (s : List Char) :
    Except Fault (Number × List Char) :=
  match takeDigits n 0 s with
  | (m, k, r) =>
    if startsWithDigit r then readTail minus m (e - k) (dropDigits r)
    else if k = 0 then
      if r.isEmpty then .error (.before [] .endOfValue) else .error (.within r .invalidNumber)
    else readTail minus m (e - k) r

/-- The absolute value of the least integer of 64 bits. -/
def mostNegative : Nat := 9223372036854775808

/-- The integer `± n`.  Zero keeps its sign as a double only. -/
def integerOf (minus : Bool) (n : Nat) : Number :=
  if !minus then .natural n
  else if 0 < n ∧ n ≤ mostNegative then .negative n
  else .real (Binary.ofNat n).neg

/-- Read what may follow the digits of the integer `± n`. -/
def readIntegerTail (minus : Bool) (n : Nat) : List Char → Except Fault (Number × List Char)
  | '.' :: r => readFraction minus n 0 r
  | 'e' :: r => readExponent minus n 0 r
  | 'E' :: r => readExponent minus n 0 r
  | r => .ok (integerOf minus n, r)

/-- Read what follows `k` dropped digits of an integer that starts with `n`. -/
def readLongTail (minus : Bool) (n : Nat) (k : Nat) : List Char → Except Fault (Number × List Char)
  | '.' :: r => readFraction minus n k r
  | r => readTail minus n k r

/-- Read a number behind its sign. -/
def readNumber (minus : Bool) : List Char → Except Fault (Number × List Char)
  | [] => .error (.before [] .endOfValue)
  | c :: s =>
    if !c.isDigit then .error (.within (c :: s) .invalidNumber)
    else if c = '0' then
      if startsWithDigit s then .error (.within s .invalidNumber) else readIntegerTail minus 0 s
    else match takeDigits (digitValue c) 0 s with
      | (n, _, r) =>
        if startsWithDigit r then
          readLongTail minus n (r.length - (dropDigits r).length) (dropDigits r)
        else readIntegerTail minus n r

/-! ### What is left -/

theorem length_of_realOf {minus : Bool} {n : Nat} {e : Int} {s r : List Char} {x : Number}
    (h : realOf minus n e s = .ok (x, r)) : r.length ≤ s.length := by
  unfold realOf at h
  split at h
  · cases h; exact Nat.le_refl _
  · cases h

theorem length_of_readExponent {minus : Bool} {n : Nat} {e : Int} {s r : List Char} {x : Number}
    (h : readExponent minus n e s = .ok (x, r)) : r.length ≤ s.length := by
  have hs := length_exponentSign s
  unfold readExponent at h
  split at h
  · cases h
  · rename_i c t ht
    rw [ht, List.length_cons] at hs
    split at h
    · cases h
    · have hk := length_takeExponent (digitValue c) t
      split at h
      · rename_i k t' ht'
        rw [ht'] at hk
        have := length_of_realOf h
        simp only at hk
        omega
      · rename_i t' ht'
        rw [ht'] at hk
        split at h
        · cases h
        · have := length_of_realOf h
          have := length_dropDigits t'
          simp only at hk
          omega

theorem length_of_readTail {minus : Bool} {n : Nat} {e : Int} {s r : List Char} {x : Number}
    (h : readTail minus n e s = .ok (x, r)) : r.length ≤ s.length := by
  unfold readTail at h
  split at h
  · have := length_of_readExponent h; simp only [List.length_cons]; omega
  · have := length_of_readExponent h; simp only [List.length_cons]; omega
  · exact length_of_realOf h

theorem length_of_readFraction {minus : Bool} {n : Nat} {e : Int} {s r : List Char} {x : Number}
    (h : readFraction minus n e s = .ok (x, r)) : r.length ≤ s.length := by
  have hk := length_takeDigits n 0 s
  unfold readFraction at h
  split at h
  rename_i m k t ht
  rw [ht] at hk
  simp only at hk
  split at h
  · have := length_of_readTail h
    have := length_dropDigits t
    omega
  · split at h
    · split at h <;> cases h
    · have := length_of_readTail h
      omega

theorem length_of_readIntegerTail {minus : Bool} {n : Nat} {s r : List Char} {x : Number}
    (h : readIntegerTail minus n s = .ok (x, r)) : r.length ≤ s.length := by
  unfold readIntegerTail at h
  split at h
  · have := length_of_readFraction h; simp only [List.length_cons]; omega
  · have := length_of_readExponent h; simp only [List.length_cons]; omega
  · have := length_of_readExponent h; simp only [List.length_cons]; omega
  · cases h; exact Nat.le_refl _

theorem length_of_readLongTail {minus : Bool} {n k : Nat} {s r : List Char} {x : Number}
    (h : readLongTail minus n k s = .ok (x, r)) : r.length ≤ s.length := by
  unfold readLongTail at h
  split at h
  · have := length_of_readFraction h; simp only [List.length_cons]; omega
  · exact length_of_readTail h

theorem length_of_readNumber {minus : Bool} {s r : List Char} {x : Number}
    (h : readNumber minus s = .ok (x, r)) : r.length < s.length := by
  unfold readNumber at h
  split at h
  · cases h
  · rename_i c t
    simp only [List.length_cons]
    split at h
    · cases h
    · split at h
      · split at h
        · cases h
        · have := length_of_readIntegerTail h; omega
      · have hk := length_takeDigits (digitValue c) 0 t
        split at h
        rename_i n k t' ht
        rw [ht] at hk
        simp only at hk
        split at h
        · have := length_of_readLongTail h
          have := length_dropDigits t'
          omega
        · have := length_of_readIntegerTail h
          omega

/-! ## Skipping -/

/-- Skip an exponent behind its `e`. -/
def skipExponent (s : List Char) : Except Fault (List Char) :=
  if startsWithDigit (exponentSign s).2 then .ok (dropDigits (exponentSign s).2)
  else .error (.within (exponentSign s).2 .invalidNumber)

/-- Skip what may follow the digits of a number: an exponent. -/
def skipTail : List Char → Except Fault (List Char)
  | 'e' :: r => skipExponent r
  | 'E' :: r => skipExponent r
  | r => .ok r

/-- Skip what may follow an integer: a fraction, an exponent. -/
def skipIntegerTail : List Char → Except Fault (List Char)
  | '.' :: r =>
    if startsWithDigit r then skipTail (dropDigits r) else .error (.within r .invalidNumber)
  | r => skipTail r

/-- Skip a number behind its sign. -/
def skipNumber : List Char → Except Fault (List Char)
  | [] => .error (.before [] .invalidNumber)
  | c :: s =>
    if !c.isDigit then .error (.within (c :: s) .invalidNumber)
    else if c = '0' then
      if startsWithDigit s then .error (.within s .invalidNumber) else skipIntegerTail s
    else skipIntegerTail (dropDigits s)

theorem length_of_skipExponent {s r : List Char} (h : skipExponent s = .ok r) :
    r.length ≤ s.length := by
  unfold skipExponent at h
  split at h
  · cases h
    exact Nat.le_trans (length_dropDigits _) (length_exponentSign s)
  · cases h

theorem length_of_skipTail {s r : List Char} (h : skipTail s = .ok r) : r.length ≤ s.length := by
  unfold skipTail at h
  split at h
  · have := length_of_skipExponent h; simp only [List.length_cons]; omega
  · have := length_of_skipExponent h; simp only [List.length_cons]; omega
  · cases h; exact Nat.le_refl _

theorem length_of_skipIntegerTail {s r : List Char} (h : skipIntegerTail s = .ok r) :
    r.length ≤ s.length := by
  unfold skipIntegerTail at h
  split at h
  · rename_i t
    split at h
    · have := length_of_skipTail h
      have := length_dropDigits t
      simp only [List.length_cons]
      omega
    · cases h
  · exact length_of_skipTail h

theorem length_of_skipNumber {s r : List Char} (h : skipNumber s = .ok r) :
    r.length < s.length := by
  unfold skipNumber at h
  split at h
  · cases h
  · rename_i c t
    simp only [List.length_cons]
    split at h
    · cases h
    · split at h
      · split at h
        · cases h
        · have := length_of_skipIntegerTail h; omega
      · have := length_of_skipIntegerTail h
        have := length_dropDigits t
        omega

end SignGloss.Json
