/-
  Integers are read as they were written.

  * `Ended r`: what is left starts with nothing that a number goes on with;
  * digits below `2 ^ 64` are taken one by one, up to the end (`takeDigits_append`);
  * a natural number is written without leading zeros (`exists_toDigits`).

  Main statements: `readNumber_toDigits` for the digits, and `writeInteger_cases`
  for the sign.
-/
import SignGloss.Json.Number
import SignGloss.Proofs.WrittenText

namespace SignGloss.Json

variable {c : Char} {ds r : List Char} {n k : Nat}

/-! ## What is behind a number -/

/-- Nothing that a number goes on with is next: a comma, a bracket or space. -/
def Ended (r : List Char) : Prop :=
  ∀ c ∈ r.head?, c = ',' ∨ c = ']' ∨ c = '}' ∨ isSpace c = true

theorem ended_nil : Ended [] := fun _ h => absurd h (Option.not_mem_none _)

theorem ended_comma (r : List Char) : Ended (',' :: r) := by
  rintro _ ⟨⟩
  exact Or.inl rfl

theorem ended_closing {w : List Char} (hw : Blank w) (hc : c = ']' ∨ c = '}') :
    Ended (w ++ c :: r) := by
  cases w with
  | nil =>
    rintro _ ⟨⟩
    exact Or.inr (hc.imp_right Or.inl)
  | cons d w =>
    rintro _ ⟨⟩
    exact Or.inr (Or.inr (Or.inr (hw d List.mem_cons_self)))

theorem Ended.ne {d : Char} (h : Ended (c :: r))
    (hd : ¬ (d = ',' ∨ d = ']' ∨ d = '}' ∨ isSpace d = true)) : c ≠ d :=
  fun hc => hd (hc ▸ h c rfl)

theorem not_isDigit_of_ended (h : Ended (c :: r)) : c.isDigit = false := by
  rcases h c rfl with rfl | rfl | rfl | hspace
  · decide
  · decide
  · decide
  · simp only [isSpace, Bool.or_eq_true, beq_iff_eq] at hspace
    rcases hspace with ((rfl | rfl) | rfl) | rfl <;> decide

theorem startsWithDigit_of_ended (h : Ended r) : startsWithDigit r = false := by
  cases r with
  | nil => rfl
  | cons c r => simp [startsWithDigit, not_isDigit_of_ended h]

/-- An integer is not followed by a fraction or an exponent. -/
theorem readIntegerTail_of_ended (minus : Bool) (n : Nat) (h : Ended r) :
    readIntegerTail minus n r = .ok (integerOf minus n, r) := by
  unfold readIntegerTail
  split
  case h_4 => rfl
  all_goals exact absurd rfl (h.ne (by decide))

/-! ## Digits -/

theorem ne_of_isDigit {d : Char} (hc : c.isDigit = true) (hd : d.isDigit = false) : c ≠ d := by
  rintro rfl
  rw [hc] at hd
  cases hd

theorem isSpace_of_isDigit (h : c.isDigit = true) : isSpace c = false := by
  simp only [isSpace, Bool.or_eq_false_iff, beq_eq_false_iff_ne]
  exact ⟨⟨⟨ne_of_isDigit h (by decide), ne_of_isDigit h (by decide)⟩,
    ne_of_isDigit h (by decide)⟩, ne_of_isDigit h (by decide)⟩

theorem le_ofDigitChars (ds : List Char) (n : Nat) : n ≤ Nat.ofDigitChars 10 ds n := by
  rw [Nat.ofDigitChars_eq_ofDigitChars_zero]
  have hpos : 1 ≤ 10 ^ ds.length := Nat.one_le_pow _ _ (by decide)
  exact Nat.le_add_right_of_le (Nat.le_mul_of_pos_left n hpos)

/-- Digits are taken as long as the number is small enough. -/
theorem takeDigits_append (hds : ∀ c ∈ ds, c.isDigit = true) (hr : Ended r)
    (hn : Nat.ofDigitChars 10 ds n < UInt64.size) :
    takeDigits n k (ds ++ r) = (Nat.ofDigitChars 10 ds n, k + ds.length, r) := by
  induction ds generalizing n k with
  | nil =>
    cases r with
    | nil => rfl
    | cons c r => simp [takeDigits, not_isDigit_of_ended hr, Nat.ofDigitChars_nil]
  | cons c ds ih =>
    rw [Nat.ofDigitChars_cons] at hn ⊢
    have hstep : 10 * n + digitValue c < UInt64.size := Nat.lt_of_le_of_lt (le_ofDigitChars _ _) hn
    rw [List.cons_append, takeDigits, if_pos ⟨hds c List.mem_cons_self, hstep⟩]
    rw [digitValue, ih (fun c hc => hds c (List.mem_cons_of_mem _ hc)) hn, List.length_cons]
    congr 2
    omega

theorem isDigit_of_mem_toDigits (h : c ∈ Nat.toDigits 10 n) : c.isDigit = true :=
  Nat.isDigit_of_mem_toDigits (by decide) (by decide) h

/-- A positive number does not start with the digit 0. -/
theorem exists_toDigits (hn : 0 < n) : ∃ c ds, Nat.toDigits 10 n = c :: ds ∧ c ≠ '0' := by
  induction n using Nat.strongRecOn with
  | ind n ih =>
    by_cases h : n < 10
    · refine ⟨_, _, Nat.toDigits_of_lt_base h, ?_⟩
      have hall : ∀ n < 10, 0 < n → Nat.digitChar n ≠ '0' := by decide
      exact hall n h hn
    · obtain ⟨c, ds, hds, hc⟩ := ih (n / 10) (by omega) (by omega)
      exact ⟨c, _, by rw [Nat.toDigits_of_base_le (by decide) (by omega), hds]; rfl, hc⟩

/-- **The digits of a natural number are read as that number.** -/
theorem readNumber_toDigits (minus : Bool) (hn : n < UInt64.size) (hr : Ended r) :
    readNumber minus (Nat.toDigits 10 n ++ r) = .ok (integerOf minus n, r) := by
  have hdigits : ∀ c ∈ Nat.toDigits 10 n, c.isDigit = true := fun _ => isDigit_of_mem_toDigits
  rcases Nat.eq_zero_or_pos n with rfl | hpos
  · have hzero : Nat.toDigits 10 0 = ['0'] := by decide
    rw [hzero, List.singleton_append, readNumber, startsWithDigit_of_ended hr,
      readIntegerTail_of_ended minus 0 hr]
    rfl
  · obtain ⟨c, ds, hds, hc⟩ := exists_toDigits hpos
    have hvalue : Nat.ofDigitChars 10 ds (digitValue c) = n := by
      have h := @Nat.ofDigitChars_ten_toDigits n
      rw [hds, Nat.ofDigitChars_cons] at h
      simpa [digitValue] using h
    rw [hds] at hdigits ⊢
    have htake := @takeDigits_append ds r (digitValue c) 0
      (fun c hc => hdigits c (List.mem_cons_of_mem _ hc)) hr (by rwa [hvalue])
    simp [readNumber, hdigits c List.mem_cons_self, hc, htake, hvalue, startsWithDigit_of_ended hr,
      readIntegerTail_of_ended minus n hr]

/-! ## Signs -/

/-- An integer is written as digits, behind a sign if it is negative. -/
theorem writeInteger_cases (z : Int) :
    (∃ (n : Nat) (c : Char) (ds : List Char), z = n ∧ writeInteger z = Nat.toDigits 10 n ∧
      Nat.toDigits 10 n = c :: ds ∧ c.isDigit = true) ∨
      ∃ n : Nat, 0 < n ∧ z = -n ∧ writeInteger z = '-' :: Nat.toDigits 10 n := by
  cases z with
  | ofNat n =>
    obtain ⟨c, ds, hds⟩ := List.exists_cons_of_ne_nil (@Nat.toDigits_ne_nil n 10)
    have hc : c.isDigit = true := isDigit_of_mem_toDigits (n := n) (hds ▸ List.mem_cons_self)
    exact Or.inl ⟨n, c, ds, rfl, Nat.toList_repr, hds, hc⟩
  | negSucc n =>
    refine Or.inr ⟨n + 1, Nat.succ_pos n, rfl, ?_⟩
    have hsign : writeInteger (.negSucc n) = ("-" ++ Nat.repr (n + 1)).toList := rfl
    rw [hsign, String.toList_append, Nat.toList_repr]
    rfl

end SignGloss.Json
