/-
  Values that are skipped.

  A value of any kind and depth is skipped from its first token to its last, whatever its
  strings hold: `skipText_append` for strings, `skipNumber_append` for numbers and
  `skipScalar_append` for all values without parts, each with what is behind it.

  A bracket that was opened is closed where its tree ends.  The induction is on trees, and says
  for any brackets around the tree that skipping comes to stand behind it with these brackets
  open (`skipFrom_tree`, with `skipFrom_laterItems` and `skipFrom_laterMembers` behind the first
  element and the first member of a bracket).

  Main statement: `skipValue_tokens`.
-/
import SignGloss.Json.Skip
import SignGloss.Proofs.TokenTrees

namespace SignGloss.Json

variable {s t r ds whole fraction exponent : List Char} {c : Char}

/-! ## Strings -/

theorem skipEscape_letter (h : (letterEscape? c).isSome) : skipEscape (c :: r) = .ok r := by
  have hu : c ≠ 'u' := by
    rintro rfl
    exact absurd h (by decide)
  rw [skipEscape, if_neg hu, if_pos h]

theorem skipEscape_code {a b c d : Char} (h : (hexValue? a b c d).isSome) :
    skipEscape ('u' :: a :: b :: c :: d :: r) = .ok r := by
  obtain ⟨n, hn⟩ := Option.isSome_iff_exists.1 h
  rw [skipEscape, if_pos rfl, readHex_cons hn]

theorem skipText_of_escape {u : List Char} (h : skipEscape s = .ok t) (ht : skipText t = .ok u) :
    skipText ('\\' :: s) = .ok u := by
  rw [skipText, if_neg (by decide), if_pos rfl]
  split
  · rename_i hs
    cases h.symm.trans hs
  · rename_i hs
    cases h.symm.trans hs
    exact ht

/-- A string is skipped up to its closing quote. -/
theorem skipText_append (h : InQuotes s) (r : List Char) : skipText (s ++ '"' :: r) = .ok r := by
  induction h with
  | nil =>
    rw [List.nil_append, skipText]
    rfl
  | plain hquote hslash hc _ ih =>
    rw [List.cons_append, skipText, if_neg hquote, if_neg hslash, hc]
    exact ih
  | letter hc _ ih => exact skipText_of_escape (skipEscape_letter hc) ih
  | code hcode _ ih => exact skipText_of_escape (skipEscape_code hcode) ih

/-! ## Numbers -/

theorem startsWithDigit_append (hds : Digits ds) (hne : ds ≠ []) :
    startsWithDigit (ds ++ r) = true := by
  cases ds with
  | nil => exact absurd rfl hne
  | cons c ds => simp [startsWithDigit, hds c List.mem_cons_self]

theorem dropDigits_append (hds : Digits ds) (hr : startsWithDigit r = false) :
    dropDigits (ds ++ r) = r := by
  rw [dropDigits, List.dropWhile_append_of_pos hds]
  cases r with
  | nil => rfl
  | cons c r =>
    have hc : ¬ c.isDigit = true := by simpa [startsWithDigit] using hr
    exact List.dropWhile_cons_of_neg hc

/-- What is behind the digits of a number is no digit. -/
theorem startsWithDigit_exponent (h : Exponent exponent) (hr : Ended r) :
    startsWithDigit (exponent ++ r) = false := by
  cases h with
  | none => exact startsWithDigit_of_ended hr
  | digits he _ _ _ => rcases he with rfl | rfl <;> rfl

theorem startsWithDigit_fraction (h : Fraction fraction) (he : Exponent exponent) (hr : Ended r) :
    startsWithDigit (fraction ++ (exponent ++ r)) = false := by
  cases h with
  | none =>
    rw [List.nil_append]
    exact startsWithDigit_exponent he hr
  | digits _ _ => rfl

theorem exponentSign_append {sign : List Char} (hsign : sign = [] ∨ sign = ['+'] ∨ sign = ['-'])
    (hds : Digits ds) (hne : ds ≠ []) : (exponentSign (sign ++ (ds ++ r))).2 = ds ++ r := by
  rcases hsign with rfl | rfl | rfl
  · obtain ⟨c, ds, rfl⟩ := List.exists_cons_of_ne_nil hne
    have hc := hds c List.mem_cons_self
    unfold exponentSign
    split
    · rename_i h
      exact absurd (List.cons.inj h).1 (ne_of_isDigit hc (by decide))
    · rename_i h
      exact absurd (List.cons.inj h).1 (ne_of_isDigit hc (by decide))
    · rfl
  · rfl
  · rfl

/-- Neither an exponent nor what is behind it starts with a point. -/
theorem exponent_ne_point (h : Exponent exponent) (hr : Ended r) : exponent ++ r ≠ '.' :: t := by
  cases h with
  | none =>
    rintro rfl
    exact absurd rfl (hr.ne (d := '.') (by decide))
  | digits he _ _ _ =>
    rcases he with rfl | rfl <;> exact fun h => absurd (List.cons.inj h).1 (by decide)

theorem skipTail_of_ended (hr : Ended r) : skipTail r = .ok r := by
  unfold skipTail
  split
  · exact absurd rfl (hr.ne (d := 'e') (by decide))
  · exact absurd rfl (hr.ne (d := 'E') (by decide))
  · rfl

theorem skipTail_append (h : Exponent exponent) (hr : Ended r) :
    skipTail (exponent ++ r) = .ok r := by
  cases h with
  | none => exact skipTail_of_ended hr
  | @digits e sign ds he hsign hne hds =>
    have hexp : skipExponent (sign ++ (ds ++ r)) = .ok r := by
      rw [skipExponent, exponentSign_append hsign hds hne, startsWithDigit_append hds hne,
        if_pos rfl, dropDigits_append hds (startsWithDigit_of_ended hr)]
    rw [List.cons_append, List.append_assoc]
    rcases he with rfl | rfl <;> exact hexp

theorem skipIntegerTail_append (hf : Fraction fraction) (he : Exponent exponent) (hr : Ended r) :
    skipIntegerTail (fraction ++ (exponent ++ r)) = .ok r := by
  cases hf with
  | none =>
    rw [List.nil_append]
    unfold skipIntegerTail
    split
    · rename_i h
      exact absurd h (exponent_ne_point he hr)
    · exact skipTail_append he hr
  | digits hne hds =>
    rw [List.cons_append, skipIntegerTail, startsWithDigit_append hds hne, if_pos rfl,
      dropDigits_append hds (startsWithDigit_exponent he hr), skipTail_append he hr]

/-- A number is skipped up to its end. -/
theorem skipNumber_append (h : Unsigned s) (hr : Ended r) : skipNumber (s ++ r) = .ok r := by
  cases h with
  | @mk whole fraction exponent hwhole hf he =>
    have hdigit := startsWithDigit_fraction hf he hr
    rw [List.append_assoc, List.append_assoc]
    cases hwhole with
    | zero =>
      rw [List.singleton_append, skipNumber, hdigit]
      exact skipIntegerTail_append hf he hr
    | @digits c ds hc hzero hds =>
      rw [List.cons_append, skipNumber, hc, if_neg hzero, dropDigits_append hds hdigit]
      exact skipIntegerTail_append hf he hr

/-! ## Values without parts -/

theorem readWord_append (w r : List Char) : readWord w (w ++ r) = .ok r := by
  induction w with
  | nil => rfl
  | cons c w ih => rw [List.cons_append, readWord, if_pos rfl, ih]

theorem skipScalar_digit (hc : c.isDigit = true) : skipScalar (c :: s) = skipNumber (c :: s) := by
  unfold skipScalar
  split
  case h_6 =>
    rename_i h
    obtain ⟨rfl, rfl⟩ := List.cons.inj h
    rw [if_pos hc]
  case h_7 =>
    rename_i h
    cases h
  all_goals
    rename_i h
    exact absurd (List.cons.inj h).1 (ne_of_isDigit hc (by decide))

/-- A value without parts is skipped up to its end. -/
theorem skipScalar_append (h : IsScalar s) (hr : Ended r) : skipScalar (s ++ r) = .ok r := by
  cases h with
  | null | yes | no => exact readWord_append _ r
  | text h =>
    rw [List.cons_append, List.append_assoc]
    exact skipText_append h r
  | number h =>
    cases h with
    | positive h =>
      have hskip := skipNumber_append h hr
      obtain ⟨c, u, rfl, hc⟩ := h.head
      rw [List.cons_append] at hskip ⊢
      rw [skipScalar_digit hc, hskip]
    | negative h => exact skipNumber_append h hr

/-! ## Brackets -/

variable {bs : List Bracket} {b : Bracket} {toks : List (List Char)}

theorem skipFrom_value_list (h : skip s = '[' :: r) :
    skipFrom .value bs s = skipFrom (.first .list) (.list :: bs) r := by
  rw [skipFrom]
  split
  · rename_i hs
    cases h.symm.trans hs
    rfl
  · rename_i hs
    cases h.symm.trans hs
  · rename_i hlist _
    exact absurd h (hlist r)

theorem skipFrom_value_record (h : skip s = '{' :: r) :
    skipFrom .value bs s = skipFrom (.first .record) (.record :: bs) r := by
  rw [skipFrom]
  split
  · rename_i hs
    cases h.symm.trans hs
  · rename_i hs
    cases h.symm.trans hs
    rfl
  · rename_i _ hrecord
    exact absurd h (hrecord r)

theorem skipFrom_value_scalar (hlist : ∀ t, skip s ≠ '[' :: t) (hrecord : ∀ t, skip s ≠ '{' :: t)
    (h : skipScalar (skip s) = .ok r) : skipFrom .value bs s = skipFrom .after bs r := by
  rw [skipFrom]
  split
  · rename_i hs
    exact absurd hs (hlist _)
  · rename_i hs
    exact absurd hs (hrecord _)
  · split
    · rename_i hs
      cases h.symm.trans hs
    · rename_i hs
      cases h.symm.trans hs
      rfl

theorem skipFrom_key (h : skipKey s = .ok r) : skipFrom .key bs s = skipFrom .value bs r := by
  conv => lhs; rw [skipFrom]
  split
  · rename_i hs
    cases h.symm.trans hs
  · rename_i hs
    cases h.symm.trans hs
    rfl

theorem skipFrom_first_end (h : skip s = b.closing :: r) :
    skipFrom (.first b) bs s = skipFrom .after bs.tail r := by
  rw [skipFrom]
  split
  · rename_i hs
    cases h.symm.trans hs
  · rename_i hs
    cases h.symm.trans hs
    rw [if_pos rfl]

theorem skipFrom_first_member (h : skip s = c :: r) (hc : c ≠ b.closing) :
    skipFrom (.first b) bs s = skipFrom (.member b) bs (skip s) := by
  rw [skipFrom]
  split
  · rename_i hs
    cases h.symm.trans hs
  · rename_i hs
    cases h.symm.trans hs
    rw [if_neg hc, h]

theorem skipFrom_after_end (h : skip s = b.closing :: r) :
    skipFrom .after (b :: bs) s = skipFrom .after bs r := by
  have hcomma : b.closing ≠ ',' := by cases b <;> decide
  rw [skipFrom]
  split
  · rename_i hs
    cases h.symm.trans hs
  · rename_i hs
    cases h.symm.trans hs
    rw [if_neg hcomma, if_pos rfl]

theorem skipFrom_after_comma (h : skip s = ',' :: r) :
    skipFrom .after (b :: bs) s = skipFrom (.member b) (b :: bs) r := by
  rw [skipFrom]
  split
  · rename_i hs
    cases h.symm.trans hs
  · rename_i hs
    cases h.symm.trans hs
    rw [if_pos rfl]

/-- The key of a member and the colon behind it are skipped. -/
theorem Spaced.skipKey {k : Key} (h : Spaced (k.token :: [':'] :: toks) s) :
    ∃ r, Json.skipKey s = .ok r ∧ Spaced toks r := by
  obtain ⟨t, hs, ht⟩ := h.skip (by decide)
  obtain ⟨r, hr, htoks⟩ := ht.skip (by decide)
  refine ⟨r, ?_, htoks⟩
  have htext : skipText (k.body ++ ['"'] ++ t) = .ok t := by
    rw [List.append_assoc]
    exact skipText_append k.inQuotes t
  simp only [Json.skipKey, hs, htext, readColon, hr]
  rfl

/-- The text of a value without parts, behind the space at its start. -/
theorem Spaced.skip_text {k : Scalar} (h : Spaced (k.text :: toks) s) :
    ∃ r, Json.skip s = k.text ++ r ∧ Spaced toks r := by
  obtain ⟨c, u, hk, hspace, -⟩ := k.isScalar.head
  rw [hk] at h ⊢
  exact h.skip hspace

theorem Spaced.skip_scalar {k : Scalar} (h : Spaced (k.text :: toks) s)
    (htoks : Ended toks.flatten) :
    ∃ r, skipFrom .value bs s = skipFrom .after bs r ∧ Spaced toks r := by
  obtain ⟨c, u, hk, -, hlist, hrecord, -⟩ := k.isScalar.head
  obtain ⟨r, hs, hr⟩ := h.skip_text
  have hcons : Json.skip s = c :: (u ++ r) := by rw [hs, hk, List.cons_append]
  refine ⟨r, skipFrom_value_scalar (fun t ht => ?_) (fun t ht => ?_) ?_, hr⟩
  · exact hlist (List.cons.inj (hcons.symm.trans ht)).1
  · exact hrecord (List.cons.inj (hcons.symm.trans ht)).1
  · rw [hs]
    exact skipScalar_append k.isScalar (hr.ended htoks)

/-! ## Trees -/

mutual

/-- **A tree is skipped up to its last token**, with any brackets open around it. -/
theorem skipFrom_tree (T : Tree) (bs : List Bracket) {toks : List (List Char)} {s : List Char}
    (h : Spaced (T.tokens ++ toks) s) (htoks : Ended toks.flatten) :
    ∃ r, skipFrom .value bs s = skipFrom .after bs r ∧ Spaced toks r := by
  match T with
  | .scalar k => exact Spaced.skip_scalar h htoks
  | .list [] =>
    obtain ⟨t, hs, ht⟩ := h.skip (by decide)
    obtain ⟨r, hr, hrest⟩ := ht.skip (by decide)
    exact ⟨r, (skipFrom_value_list hs).trans (skipFrom_first_end hr), hrest⟩
  | .list (t :: ts) =>
    rw [Tree.tokens, List.cons_append, List.append_assoc] at h
    obtain ⟨u, hs, hu⟩ := h.skip (by decide)
    obtain ⟨c, v, hv, hc, ht⟩ := hu.skip_tree t
    obtain ⟨w, hw, hlater⟩ := skipFrom_tree t (.list :: bs) ht (ended_laterItems_tokens ts toks)
    obtain ⟨r, hr, hrest⟩ := skipFrom_laterItems ts bs hlater
    refine ⟨r, ?_, hrest⟩
    calc skipFrom .value bs s
        = skipFrom (.first .list) (.list :: bs) u := skipFrom_value_list hs
      _ = skipFrom .value (.list :: bs) (skip u) := skipFrom_first_member hv hc
      _ = skipFrom .after (.list :: bs) w := by rw [hv, hw]
      _ = skipFrom .after bs r := hr
  | .record [] =>
    obtain ⟨t, hs, ht⟩ := h.skip (by decide)
    obtain ⟨r, hr, hrest⟩ := ht.skip (by decide)
    exact ⟨r, (skipFrom_value_record hs).trans (skipFrom_first_end hr), hrest⟩
  | .record ((k, t) :: ms) =>
    rw [Tree.tokens, List.cons_append, List.cons_append, List.cons_append, List.append_assoc] at h
    obtain ⟨u, hs, hu⟩ := h.skip (by decide)
    obtain ⟨v, hv, -⟩ := hu.skip (by decide)
    obtain ⟨w, hw, ht⟩ := (hu.of_skip (by decide)).skipKey
    obtain ⟨x, hx, hlater⟩ := skipFrom_tree t (.record :: bs) ht (ended_laterMembers_tokens ms toks)
    obtain ⟨r, hr, hrest⟩ := skipFrom_laterMembers ms bs hlater
    refine ⟨r, ?_, hrest⟩
    calc skipFrom .value bs s
        = skipFrom (.first .record) (.record :: bs) u := skipFrom_value_record hs
      _ = skipFrom .key (.record :: bs) (skip u) := skipFrom_first_member hv (by decide)
      _ = skipFrom .value (.record :: bs) w := skipFrom_key hw
      _ = skipFrom .after (.record :: bs) x := hx
      _ = skipFrom .after bs r := hr

/-- The rest of a list is skipped, behind an element. -/
theorem skipFrom_laterItems (ts : List Tree) (bs : List Bracket) {toks : List (List Char)}
    {s : List Char} (h : Spaced (Tree.laterItems ts ++ toks) s) :
    ∃ r, skipFrom .after (.list :: bs) s = skipFrom .after bs r ∧ Spaced toks r := by
  match ts with
  | [] =>
    obtain ⟨r, hr, hrest⟩ := h.skip (by decide)
    exact ⟨r, skipFrom_after_end hr, hrest⟩
  | t :: ts =>
    rw [Tree.laterItems, List.cons_append, List.append_assoc] at h
    obtain ⟨u, hs, ht⟩ := h.skip (by decide)
    obtain ⟨w, hw, hlater⟩ := skipFrom_tree t (.list :: bs) ht (ended_laterItems_tokens ts toks)
    obtain ⟨r, hr, hrest⟩ := skipFrom_laterItems ts bs hlater
    refine ⟨r, ?_, hrest⟩
    calc skipFrom .after (.list :: bs) s
        = skipFrom .value (.list :: bs) u := skipFrom_after_comma hs
      _ = skipFrom .after (.list :: bs) w := hw
      _ = skipFrom .after bs r := hr

/-- The rest of a record is skipped, behind a member. -/
theorem skipFrom_laterMembers (ms : List (Key × Tree)) (bs : List Bracket)
    {toks : List (List Char)} {s : List Char} (h : Spaced (Tree.laterMembers ms ++ toks) s) :
    ∃ r, skipFrom .after (.record :: bs) s = skipFrom .after bs r ∧ Spaced toks r := by
  match ms with
  | [] =>
    obtain ⟨r, hr, hrest⟩ := h.skip (by decide)
    exact ⟨r, skipFrom_after_end hr, hrest⟩
  | (k, t) :: ms =>
    rw [Tree.laterMembers, List.cons_append, List.cons_append, List.cons_append,
      List.append_assoc] at h
    obtain ⟨u, hs, hu⟩ := h.skip (by decide)
    obtain ⟨v, hv, ht⟩ := Spaced.skipKey hu
    obtain ⟨w, hw, hlater⟩ := skipFrom_tree t (.record :: bs) ht (ended_laterMembers_tokens ms toks)
    obtain ⟨r, hr, hrest⟩ := skipFrom_laterMembers ms bs hlater
    refine ⟨r, ?_, hrest⟩
    calc skipFrom .after (.record :: bs) s
        = skipFrom .key (.record :: bs) u := skipFrom_after_comma hs
      _ = skipFrom .value (.record :: bs) v := skipFrom_key hv
      _ = skipFrom .after (.record :: bs) w := hw
      _ = skipFrom .after bs r := hr

end

/-- **Skipping a value takes its tokens**, and leaves what is behind them. -/
theorem skipValue_tokens {T : Tree} (h : Spaced (T.tokens ++ toks) s) (htoks : Ended toks.flatten) :
    ∃ r, skipValue s = .ok r ∧ Spaced toks r := by
  obtain ⟨r, hr, hrest⟩ := skipFrom_tree T [] h htoks
  refine ⟨r, ?_, hrest⟩
  rw [skipValue, hr, skipFrom]

end SignGloss.Json
