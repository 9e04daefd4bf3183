/-
  The first error of a request.

  * a token is `Ordered` if it does not end before it starts, and `Credible` if its
    confidence is a number between 0 and 1;
  * `Token.Violates t i e`: the error `e` tells what is wrong with the token `t` at the
    position `i`.  Where both conditions fail it is the times that are told;
  * `RequestError.after n e`: the error with `n` more tokens before it.

  Errors of single tokens (`Token.error?_eq_some_iff`) give those of sequences, by their
  first token that violates anything (`firstError?_eq_some_iff`), and a sequence is checked
  part by part (`firstError?_append`).

  Main statement: `check_finds_first_error`.
-/
import SignGloss.Proofs.UnitInterval

namespace SignGloss

variable {t : Token} {ts us : List Token} {i n : Nat} {e : RequestError}

/-! ## Tokens -/

/-- The token does not end before it starts. -/
def Token.Ordered (t : Token) : Prop := t.start.toInt ≤ t.stop.toInt

/-- The confidence is a number between 0 and 1, so neither infinite nor without a value. -/
def Token.Credible (t : Token) : Prop :=
  t.confidence.isFinite = true ∧ 0 ≤ t.confidence.value ∧ t.confidence.value ≤ 1

/-- What is wrong with a token at a position. -/
inductive Token.Violates (t : Token) (i : Nat) : RequestError → Prop
  | endsBeforeStart : ¬ t.Ordered → Violates t i (.endsBeforeStart i t.sign t.start t.stop)
  | confidenceOutOfRange : t.Ordered → ¬ t.Credible →
      Violates t i (.confidenceOutOfRange i t.sign t.confidence)

theorem Token.ordered_iff : t.Ordered ↔ ¬ t.stop < t.start := by
  rw [Ordered, Int64.lt_iff_toInt_lt, Int.not_lt]

theorem Token.credible_iff : t.Credible ↔ t.confidence.inUnit = true := Binary.inUnit_iff.symm

/-- The error of a token is what is wrong with it. -/
theorem Token.error?_eq_some_iff : t.error? i = some e ↔ t.Violates i e := by
  unfold error?
  constructor
  · intro h
    split at h
    · rename_i htime
      cases h
      exact .endsBeforeStart fun ho => ordered_iff.1 ho htime
    · rename_i htime
      split at h
      · cases h
      · rename_i hunit
        cases h
        exact .confidenceOutOfRange (ordered_iff.2 htime) fun hc => hunit (credible_iff.1 hc)
  · intro h
    cases h with
    | endsBeforeStart htime => rw [if_pos (not_not.1 (mt ordered_iff.2 htime))]
    | confidenceOutOfRange htime hunit =>
      rw [if_neg (ordered_iff.1 htime), if_neg (mt credible_iff.2 hunit)]

theorem Token.error?_eq_none : t.error? i = none ↔ t.Ordered ∧ t.Credible := by
  rw [error?_eq_none_iff, ordered_iff, credible_iff]

/-! ## Sequences of tokens -/

theorem firstError?_eq_none : firstError? i ts = none ↔ ∀ t ∈ ts, t.Ordered ∧ t.Credible := by
  simp only [firstError?_eq_none_iff, Token.ordered_iff, Token.credible_iff]

/-- A sequence is checked part by part. -/
theorem firstError?_append :
    firstError? i (ts ++ us) = (firstError? i ts).or (firstError? (i + ts.length) us) := by
  induction ts generalizing i with
  | nil => rfl
  | cons t ts ih =>
    have hi : i + 1 + ts.length = i + (t :: ts).length := by
      rw [List.length_cons]
      omega
    rw [List.cons_append, firstError?, firstError?, ih, hi, Option.or_assoc]

/-- The first error is that of the first token with an error. -/
theorem firstError?_eq_some_iff : firstError? i ts = some e ↔ ∃ before t after,
    ts = before ++ t :: after ∧ (∀ u ∈ before, u.Ordered ∧ u.Credible) ∧
      t.Violates (i + before.length) e := by
  constructor
  · intro h
    induction ts generalizing i with
    | nil => cases h
    | cons t ts ih =>
      rw [firstError?] at h
      cases ht : t.error? i with
      | some e' =>
        rw [ht, Option.some_or] at h
        cases h
        exact ⟨[], t, ts, rfl, by simp, Token.error?_eq_some_iff.1 ht⟩
      | none =>
        rw [ht, Option.none_or] at h
        obtain ⟨before, u, after, rfl, hbefore, hu⟩ := ih h
        refine ⟨t :: before, u, after, rfl,
          List.forall_mem_cons.2 ⟨Token.error?_eq_none.1 ht, hbefore⟩, ?_⟩
        rwa [List.length_cons, Nat.add_comm before.length, ← Nat.add_assoc]
  · rintro ⟨before, t, after, rfl, hbefore, ht⟩
    rw [firstError?_append, firstError?_eq_none.2 hbefore, Option.none_or, firstError?,
      Token.error?_eq_some_iff.2 ht, Option.some_or]

/-- The error with more tokens before it. -/
def RequestError.after (n : Nat) : RequestError → RequestError
  | endsBeforeStart i sign start stop => endsBeforeStart (i + n) sign start stop
  | confidenceOutOfRange i sign c => confidenceOutOfRange (i + n) sign c

theorem Token.error?_add : t.error? (i + n) = (t.error? i).map (.after n) := by
  unfold error?
  split
  · rfl
  · split <;> rfl

theorem firstError?_add : firstError? (i + n) ts = (firstError? i ts).map (.after n) := by
  induction ts generalizing i with
  | nil => rfl
  | cons t ts ih =>
    rw [firstError?, firstError?, Token.error?_add, Nat.add_right_comm, ih, Option.map_or]

/-! ## Requests -/

/-- The tokens of one request behind those of another, for any locale. -/
def Request.join (x y : Request) (locale : String) : Request := ⟨x.tokens ++ y.tokens, locale⟩

theorem Request.check_eq_error_iff {req : Request} :
    req.check = .error e ↔ firstError? 0 req.tokens = some e := by
  unfold check
  cases firstError? 0 req.tokens <;> simp

/-- **The check of a request finds its first error.**  A request passes iff all tokens are
    ordered and credible.  Otherwise the error is that of the first token that is not both,
    and tells its times if these are reversed, whatever its confidence.  Of two requests one
    behind the other the first is checked first, and then the second, whose positions start
    behind it. -/
theorem check_finds_first_error :
    (∀ req : Request, req.check = .ok () ↔ ∀ t ∈ req.tokens, t.Ordered ∧ t.Credible) ∧
    (∀ (req : Request) (e : RequestError), req.check = .error e ↔ ∃ before t after,
      req.tokens = before ++ t :: after ∧ (∀ u ∈ before, u.Ordered ∧ u.Credible) ∧
        t.Violates before.length e) ∧
    ∀ (x y : Request) (locale : String), (x.join y locale).check =
      x.check.bind fun _ => y.check.mapError (.after x.tokens.length) := by
  refine ⟨fun req => ?_, fun req e => ?_, fun x y locale => ?_⟩
  · simp only [Request.check_eq_ok_iff, Token.ordered_iff, Token.credible_iff]
  · rw [Request.check_eq_error_iff, firstError?_eq_some_iff]
    simp only [Nat.zero_add]
  · have hlater : firstError? x.tokens.length y.tokens =
        (firstError? 0 y.tokens).map (.after x.tokens.length) := by
      rw [← firstError?_add, Nat.zero_add]
    simp only [Request.check, Request.join, firstError?_append, Nat.zero_add, hlater]
    cases firstError? 0 x.tokens with
    | some e => rfl
    | none => cases firstError? 0 y.tokens <;> rfl

/-- Reversed times are told before a confidence that is not a number. -/
example : Request.check
      ⟨[⟨"YO", 0, 1, .one⟩, ⟨"PAN", 50, 40, .ofMagnitude false 2143289344⟩], "es"⟩ =
    .error (.endsBeforeStart 1 "PAN" 50 40) := by
  decide +kernel

end SignGloss
