/-
  Values without parts are read by themselves.

  What a reader makes of a string, a word or a number depends on its text only, and not on what
  is behind it, as long as that ends a number: `Settled f` says that the reading `f` of a text
  with anything behind it either gives the same value always, or always fails.

  * a text between quotes is read as the characters it stands for (`Spells.readText_append`), and
    not at all if it stands for none (`legible_of_inQuotes`);
  * digits are taken up to the same one whatever is behind them (`exists_takeDigits`,
    `takeExponent_cases`), so that numbers are settled part by part (`settled_readNumber`);
  * `Reader.Plain x`: the reader `x` takes values without parts only, and these are settled.

  Main statements: the readers of strings, truth values and numbers are plain, and so are those
  of optional values and of values of another type that are made of plain ones
  (`Reader.plain_text` and others).
-/
import Mathlib.Data.List.DropRight
import SignGloss.Json.Reader
import SignGloss.Proofs.RequestExchange
import SignGloss.Proofs.SkippedValues

namespace SignGloss.Json

variable {α β : Type} {s t r ds fraction exponent : List Char} {c : Char} {minus : Bool} {n : Nat}
  {e : Int}

/-! ## Readings that do not depend on what follows -/

/-- The reading gives one value and leaves what is behind, or it always fails. -/
def Settled (f : List Char → Except Fault (α × List Char)) : Prop :=
  (∃ a, ∀ r, Ended r → f r = .ok (a, r)) ∨ ∀ r, Ended r → ∃ fault, f r = .error fault

section
variable {f g : List Char → Except Fault (α × List Char)}

theorem Settled.congr (h : Settled g) (hfg : ∀ r, Ended r → f r = g r) : Settled f := by
  rcases h with ⟨a, ha⟩ | hfault
  · exact Or.inl ⟨a, fun r hr => (hfg r hr).trans (ha r hr)⟩
  · refine Or.inr fun r hr => ?_
    obtain ⟨fault, hf⟩ := hfault r hr
    exact ⟨fault, (hfg r hr).trans hf⟩

theorem settled_error {fault : List Char → Fault} (h : ∀ r, Ended r → f r = .error (fault r)) :
    Settled f :=
  Or.inr fun r hr => ⟨_, h r hr⟩

end

/-! ## Strings -/

theorem readText_escape_error {fault : Fault} (h : readEscape s = .error fault) :
    readText ('\\' :: s) = .error fault := by
  rw [readText, if_neg (by decide), if_pos rfl]
  split
  · rename_i hs
    cases h.symm.trans hs
    rfl
  · rename_i hs
    cases h.symm.trans hs

theorem readText_escape (h : readEscape s = .ok (c, r)) :
    readText ('\\' :: s) = (readText r).map fun p => (c :: p.1, p.2) := by
  rw [readText, if_neg (by decide), if_pos rfl]
  split
  · rename_i hs
    cases h.symm.trans hs
  · rename_i hs
    cases h.symm.trans hs
    cases readText r <;> rfl

theorem readText_plain (hquote : c ≠ '"') (hslash : c ≠ '\\') (hc : isControl c = false) :
    readText (c :: s) = (readText s).map fun p => (c :: p.1, p.2) := by
  rw [readText, if_neg hquote, if_neg hslash, hc, if_neg Bool.false_ne_true]
  cases readText s <;> rfl

theorem readEscape_of_letter {d : Char} (h : letterEscape? c = some d) :
    readEscape (c :: s) = .ok (d, s) := by
  refine readEscape_letter ?_ h
  rintro rfl
  cases h

theorem readEscape_of_code {a b c d : Char} (h : hexValue? a b c d = some n) :
    readEscape ('u' :: a :: b :: c :: d :: s) =
      if isTrailing n then .error (.before s .loneSurrogate)
      else if isLeading n then readTrailing n s else .ok (Char.ofNat n, s) := by
  rw [readEscape, if_pos rfl, readCode, readHex_cons h]

theorem isTrailing_of_isLeading (h : isLeading n = true) : isTrailing n = false := by
  simp only [isLeading, isTrailing, Bool.and_eq_true, decide_eq_true_eq, Bool.and_eq_false_iff,
    decide_eq_false_iff_not] at h ⊢
  omega

/-- **A text between quotes is read as the characters that it stands for.** -/
theorem Spells.readText_append (h : Spells s t) (r : List Char) :
    readText (s ++ '"' :: r) = .ok (t, r) := by
  induction h with
  | nil => exact readText_quote
  | plain hquote hslash hc _ ih => exact readText_of_plain hquote hslash hc ih
  | letter hc _ ih => exact readText_of_escape (readEscape_of_letter hc) ih
  | code hcode hlead htrail _ ih =>
    refine readText_of_escape ((readEscape_of_code hcode).trans ?_) ih
    rw [htrail, hlead]
    rfl
  | pair hcode hlead hcode' htrail _ ih =>
    refine readText_of_escape ((readEscape_of_code hcode).trans ?_) ih
    rw [isTrailing_of_isLeading hlead, hlead]
    simp [readTrailing, readHex_cons hcode', htrail]

/-- A text between quotes stands for some characters, or it is never read. -/
def Legible (s : List Char) : Prop :=
  (∃ t, Spells s t) ∨ ∀ r, ∃ fault, readText (s ++ '"' :: r) = .error fault

theorem Legible.step (h : Legible t) (hspells : ∀ {u}, Spells t u → Spells s (c :: u))
    (hread : ∀ r, readText (s ++ '"' :: r) =
      (readText (t ++ '"' :: r)).map fun p => (c :: p.1, p.2)) : Legible s := by
  rcases h with ⟨u, hu⟩ | hfault
  · exact Or.inl ⟨_, hspells hu⟩
  · refine Or.inr fun r => ?_
    obtain ⟨fault, hf⟩ := hfault r
    exact ⟨fault, by rw [hread, hf]; rfl⟩

theorem legible_of_error (h : ∀ r, ∃ fault, readEscape (s ++ '"' :: r) = .error fault) :
    Legible ('\\' :: s) := by
  refine Or.inr fun r => ?_
  obtain ⟨fault, hf⟩ := h r
  exact ⟨fault, readText_escape_error hf⟩

theorem readTrailing_of_ne_slash (h : c ≠ '\\') :
    ∃ fault, readTrailing n (c :: s) = .error fault := by
  unfold readTrailing
  split
  case h_5 => exact ⟨_, rfl⟩
  all_goals
    rename_i hs
    cases hs
    try exact absurd rfl h

theorem readTrailing_of_ne_u (h : c ≠ 'u') :
    ∃ fault, readTrailing n ('\\' :: c :: s) = .error fault := by
  unfold readTrailing
  split
  case h_3 =>
    rename_i hs
    cases hs
    exact absurd rfl h
  case h_4 | h_5 => exact ⟨_, rfl⟩
  all_goals
    rename_i hs
    cases hs

theorem readTrailing_of_code {a b c d : Char} {m : Nat} (h : hexValue? a b c d = some m) :
    readTrailing n ('\\' :: 'u' :: a :: b :: c :: d :: s) =
      if isTrailing m then .ok (pairChar n m, s) else .error (.before s .loneSurrogate) := by
  simp only [readTrailing, readHex_cons h]

/-- Behind the first half of a pair comes the second, or reading fails. -/
theorem readTrailing_cases (n : Nat) (h : InQuotes s) :
    (∃ a b c d m t, s = '\\' :: 'u' :: a :: b :: c :: d :: t ∧ hexValue? a b c d = some m ∧
      isTrailing m = true ∧ InQuotes t) ∨
    ∀ r, ∃ fault, readTrailing n (s ++ '"' :: r) = .error fault := by
  cases h with
  | nil => exact Or.inr fun r => readTrailing_of_ne_slash (c := '"') (by decide)
  | plain _ hslash _ _ => exact Or.inr fun r => readTrailing_of_ne_slash hslash
  | letter hc _ =>
    refine Or.inr fun r => readTrailing_of_ne_u ?_
    rintro rfl
    cases hc
  | @code a b c d s hcode hs =>
    obtain ⟨m, hm⟩ := Option.isSome_iff_exists.1 hcode
    cases htrail : isTrailing m with
    | true => exact Or.inl ⟨a, b, c, d, m, s, rfl, hm, htrail, hs⟩
    | false =>
      refine Or.inr fun r => ?_
      have hread := readTrailing_of_code (n := n) (s := s ++ '"' :: r) hm
      rw [htrail, if_neg Bool.false_ne_true] at hread
      exact ⟨_, hread⟩

theorem legible_of_inQuotes (h : InQuotes s) : Legible s := by
  -- a pair takes two escapes at once, so the induction is on the length
  induction hlen : s.length using Nat.strongRecOn generalizing s with
  | ind len ih =>
    subst hlen
    cases h with
    | nil => exact Or.inl ⟨_, .nil⟩
    | @plain c s hquote hslash hc hs =>
      exact (ih _ (Nat.lt_succ_self _) hs rfl).step (.plain hquote hslash hc)
        fun r => readText_plain hquote hslash hc
    | @letter c s hc hs =>
      obtain ⟨d, hd⟩ := Option.isSome_iff_exists.1 hc
      exact (ih s.length (by simp only [List.length_cons]; omega) hs rfl).step (.letter hd)
        fun r => readText_escape (readEscape_of_letter hd)
    | @code a b c d s hcode hs =>
      obtain ⟨n, hn⟩ := Option.isSome_iff_exists.1 hcode
      cases htrail : isTrailing n with
      | true =>
        refine legible_of_error fun r => ?_
        have hread := readEscape_of_code (s := s ++ '"' :: r) hn
        rw [htrail, if_pos rfl] at hread
        exact ⟨_, hread⟩
      | false =>
        cases hlead : isLeading n with
        | false =>
          refine (ih s.length (by simp only [List.length_cons]; omega) hs rfl).step
            (.code hn hlead htrail) fun r => readText_escape ((readEscape_of_code hn).trans ?_)
          rw [htrail, hlead]
          rfl
        | true =>
          have hescape : ∀ r, readEscape ('u' :: a :: b :: c :: d :: r) = readTrailing n r := by
            intro r
            rw [readEscape_of_code hn, htrail, if_neg Bool.false_ne_true, hlead, if_pos rfl]
          rcases readTrailing_cases n hs with ⟨a', b', c', d', m, t, rfl, hm, htrail', ht⟩ | hfault
          · refine (ih t.length (by simp only [List.length_cons]; omega) ht rfl).step
              (.pair hn hlead hm htrail') fun r => readText_escape ((hescape _).trans ?_)
            exact (readTrailing_of_code hm).trans (if_pos htrail')
          · refine legible_of_error fun r => ?_
            obtain ⟨fault, hf⟩ := hfault r
            exact ⟨fault, (hescape _).trans hf⟩

/-! ## Numbers -/

theorem settled_realOf (minus : Bool) (n : Nat) (e : Int) : Settled (realOf minus n e) := by
  unfold realOf
  cases scaleTen (.ofNat n) e with
  | some x => exact Or.inl ⟨_, fun _ _ => rfl⟩
  | none => exact settled_error fun _ _ => rfl

/-- Digits are taken up to one of them, the same whatever is behind them. -/
theorem exists_takeDigits (hds : Digits ds) (n k : Nat) : ∃ m k' rest, Digits rest ∧
    (k' = k → rest = ds) ∧ k ≤ k' ∧
      ∀ t, startsWithDigit t = false → takeDigits n k (ds ++ t) = (m, k', rest ++ t) := by
  induction ds generalizing n k with
  | nil =>
    refine ⟨n, k, [], hds, fun _ => rfl, Nat.le_refl _, fun t ht => ?_⟩
    cases t with
    | nil => rfl
    | cons c t =>
      have hc : c.isDigit = false := by simpa [startsWithDigit] using ht
      simp [takeDigits, hc]
  | cons c ds ih =>
    by_cases h : c.isDigit = true ∧ 10 * n + digitValue c < UInt64.size
    · obtain ⟨m, k', rest, hrest, hk, hle, htake⟩ :=
        ih (fun d hd => hds d (List.mem_cons_of_mem _ hd)) (10 * n + digitValue c) (k + 1)
      refine ⟨m, k', rest, hrest, fun hk' => ?_, by omega, fun t ht => ?_⟩
      · omega
      · rw [List.cons_append, takeDigits, if_pos h, htake t ht]
    · refine ⟨n, k, c :: ds, hds, fun _ => rfl, Nat.le_refl _, fun t _ => ?_⟩
      rw [List.cons_append, takeDigits, if_neg h]

/-- The digits of an exponent are all taken, or it is given up at one of them. -/
theorem takeExponent_cases (hds : Digits ds) (e : Nat) :
    (∃ k, ∀ r, Ended r → takeExponent e (ds ++ r) = (some k, r)) ∨
      ∃ rest, Digits rest ∧ ∀ r, takeExponent e (ds ++ r) = (none, rest ++ r) := by
  induction ds generalizing e with
  | nil =>
    refine Or.inl ⟨e, fun r hr => ?_⟩
    cases r with
    | nil => rfl
    | cons c r => simp [takeExponent, not_isDigit_of_ended hr]
  | cons c ds ih =>
    have hc := hds c List.mem_cons_self
    have hrest : Digits ds := fun d hd => hds d (List.mem_cons_of_mem _ hd)
    by_cases h : 10 * e + digitValue c ≤ mostExponent
    · rcases ih hrest (10 * e + digitValue c) with ⟨k, hk⟩ | ⟨rest, hd, hk⟩
      · refine Or.inl ⟨k, fun r hr => ?_⟩
        rw [List.cons_append, takeExponent, if_pos hc, if_pos h, hk r hr]
      · refine Or.inr ⟨rest, hd, fun r => ?_⟩
        rw [List.cons_append, takeExponent, if_pos hc, if_pos h, hk r]
    · refine Or.inr ⟨ds, hrest, fun r => ?_⟩
      rw [List.cons_append, takeExponent, if_pos hc, if_neg h]

theorem exists_exponentSign {sign : List Char} (hsign : sign = [] ∨ sign = ['+'] ∨ sign = ['-'])
    (hds : Digits ds) (hne : ds ≠ []) :
    ∃ b, ∀ r, exponentSign (sign ++ (ds ++ r)) = (b, ds ++ r) := by
  rcases hsign with rfl | rfl | rfl
  · obtain ⟨c, ds, rfl⟩ := List.exists_cons_of_ne_nil hne
    have hc := hds c List.mem_cons_self
    refine ⟨false, fun r => ?_⟩
    have hplus : c ≠ '+' := ne_of_isDigit hc (by decide)
    have hminus : c ≠ '-' := ne_of_isDigit hc (by decide)
    rw [List.nil_append, List.cons_append, exponentSign]
    · exact fun _ h => hplus (List.cons.inj h).1
    · exact fun _ h => hminus (List.cons.inj h).1
  · exact ⟨false, fun r => rfl⟩
  · exact ⟨true, fun r => rfl⟩

theorem settled_readExponent {sign : List Char} (hsign : sign = [] ∨ sign = ['+'] ∨ sign = ['-'])
    (hne : ds ≠ []) (hds : Digits ds) (minus : Bool) (n : Nat) (e : Int) :
    Settled fun r => readExponent minus n e (sign ++ (ds ++ r)) := by
  obtain ⟨c, ds, rfl⟩ := List.exists_cons_of_ne_nil hne
  obtain ⟨hc, hds'⟩ := List.forall_mem_cons.1 hds
  obtain ⟨b, hb⟩ := exists_exponentSign hsign hds hne
  have hb : ∀ r, exponentSign (sign ++ c :: (ds ++ r)) = (b, c :: (ds ++ r)) := hb
  rcases takeExponent_cases hds' (digitValue c) with ⟨k, hk⟩ | ⟨rest, hrest, hk⟩
  · refine (settled_realOf minus n (if b then e - k else e + k)).congr fun r hr => ?_
    simp only [readExponent, List.cons_append, hb, hc, hk r hr]
    rfl
  · by_cases h : n ≠ 0 ∧ b = false
    · refine Or.inr fun r _ => ⟨.before (rest ++ r) .numberOutOfRange, ?_⟩
      simp only [readExponent, List.cons_append, hb, hc, hk r]
      exact if_pos h
    · refine (settled_realOf minus 0 0).congr fun r hr => ?_
      simp only [readExponent, List.cons_append, hb, hc, hk r,
        dropDigits_append hrest (startsWithDigit_of_ended hr)]
      exact if_neg h

theorem settled_readTail (h : Exponent exponent) (minus : Bool) (n : Nat) (e : Int) :
    Settled fun r => readTail minus n e (exponent ++ r) := by
  cases h with
  | none => exact (settled_realOf minus n e).congr fun r hr => Codec.readTail_of_ended minus n e hr
  | @digits ch sign ds he hsign hne hds =>
    refine (settled_readExponent hsign hne hds minus n e).congr fun r _ => ?_
    rw [List.cons_append, List.append_assoc]
    rcases he with rfl | rfl <;> rfl

theorem settled_readFraction (hne : ds ≠ []) (hds : Digits ds) (he : Exponent exponent)
    (minus : Bool) (n : Nat) (e : Int) :
    Settled fun r => readFraction minus n e (ds ++ (exponent ++ r)) := by
  obtain ⟨m, k, rest, hrest, hk, -, htake⟩ := exists_takeDigits hds n 0
  refine (settled_readTail he minus m (e - k)).congr fun r hr => ?_
  have hdigit := startsWithDigit_exponent he hr
  simp only [readFraction, htake _ hdigit]
  cases rest with
  | nil =>
    have hk0 : k ≠ 0 := fun h => hne (hk h).symm
    rw [List.nil_append, hdigit, if_neg Bool.false_ne_true, if_neg hk0]
  | cons c rest =>
    rw [startsWithDigit_append hrest (List.cons_ne_nil _ _), if_pos rfl,
      dropDigits_append hrest hdigit]

/-- An integer part is followed by a fraction, by an exponent or by neither. -/
theorem settled_readIntegerTail (hf : Fraction fraction) (he : Exponent exponent) (minus : Bool)
    (n : Nat) : Settled fun r => readIntegerTail minus n (fraction ++ (exponent ++ r)) := by
  cases hf with
  | digits hne hds => exact settled_readFraction hne hds he minus n 0
  | none =>
    cases he with
    | none => exact Or.inl ⟨_, fun r hr => readIntegerTail_of_ended minus n hr⟩
    | @digits ch sign ds he hsign hne hds =>
      refine (settled_readExponent hsign hne hds minus n 0).congr fun r _ => ?_
      rw [List.nil_append, List.cons_append, List.append_assoc]
      rcases he with rfl | rfl <;> rfl

theorem settled_readLongTail (hf : Fraction fraction) (he : Exponent exponent) (minus : Bool)
    (n k : Nat) : Settled fun r => readLongTail minus n k (fraction ++ (exponent ++ r)) := by
  cases hf with
  | digits hne hds => exact settled_readFraction hne hds he minus n k
  | none =>
    refine (settled_readTail he minus n k).congr fun r hr => ?_
    rw [List.nil_append]
    unfold readLongTail
    split
    · rename_i h
      exact absurd h (exponent_ne_point he hr)
    · rfl

/-- A number is read by itself. -/
theorem settled_readNumber (h : Unsigned s) (minus : Bool) :
    Settled fun r => readNumber minus (s ++ r) := by
  cases h with
  | @mk whole fraction exponent hwhole hf he =>
    simp only [List.append_assoc]
    cases hwhole with
    | zero =>
      refine (settled_readIntegerTail hf he minus 0).congr fun r hr => ?_
      rw [List.singleton_append, readNumber, startsWithDigit_fraction hf he hr]
      rfl
    | @digits c ds hc hzero hds =>
      obtain ⟨m, k, rest, hrest, -, -, htake⟩ := exists_takeDigits hds (digitValue c) 0
      cases rest with
      | nil =>
        refine (settled_readIntegerTail hf he minus m).congr fun r hr => ?_
        have hdigit := startsWithDigit_fraction hf he hr
        rw [List.cons_append, readNumber, hc, if_neg hzero, htake _ hdigit]
        simp only [List.nil_append, hdigit]
        rfl
      | cons d rest =>
        refine (settled_readLongTail hf he minus m (d :: rest).length).congr fun r hr => ?_
        have hdigit := startsWithDigit_fraction hf he hr
        rw [List.cons_append, readNumber, hc, if_neg hzero, htake _ hdigit]
        simp only [startsWithDigit_append hrest (List.cons_ne_nil _ _),
          dropDigits_append hrest hdigit, List.length_append, Nat.add_sub_cancel]
        rfl

/-! ## Readers of values without parts -/

theorem skip_skip (s : List Char) : skip (skip s) = skip s := List.dropWhile_idempotent isSpace s

/-- A bracket is no space, and no value without parts starts with one. -/
theorem isSpace_of_bracket (hc : c = '[' ∨ c = '{') : isSpace c = false := by
  rcases hc with rfl | rfl <;> rfl

theorem not_isDigit_of_bracket (hc : c = '[' ∨ c = '{') : c.isDigit = false := by
  rcases hc with rfl | rfl <;> rfl

namespace Reader

/-- The reader takes values without parts only, and what it makes of one does not depend on
    what is around it. -/
structure Plain (x : Reader α) : Prop where
  skips (s : List Char) : x.run s = x.run (skip s)
  scalar {k : List Char} : IsScalar k → Settled fun r => x.run (k ++ r)
  bracket {c : Char} (s : List Char) : c = '[' ∨ c = '{' → ∃ fault, x.run (c :: s) = .error fault

variable {x : Reader α}

theorem Plain.map (h : x.Plain) (f : α → β) : (x.map f).Plain where
  skips s := by simp only [Reader.map, ← h.skips s]
  scalar hk := by
    rcases h.scalar hk with ⟨a, ha⟩ | hfault
    · exact Or.inl ⟨f a, fun r hr => by simp only [Reader.map, ha r hr]⟩
    · refine Or.inr fun r hr => ?_
      obtain ⟨fault, hx⟩ := hfault r hr
      exact ⟨fault, by simp only [Reader.map, hx]⟩
  bracket s hc := by
    obtain ⟨fault, hx⟩ := h.bracket s hc
    exact ⟨fault, by simp only [Reader.map, hx]⟩

theorem text_run_of_ne (hspace : isSpace c = false) (hc : c ≠ '"') (s : List Char) :
    ∃ fault, text.run (c :: s) = .error fault := by
  simp only [text, skip_cons hspace]
  split
  · rename_i h
    exact absurd (List.cons.inj h).1 hc
  · exact ⟨_, rfl⟩

theorem plain_text : text.Plain where
  skips s := by simp only [text, skip_skip]
  scalar hk := by
    cases hk with
    | text hs =>
      have hskip : ∀ t r, skip ('"' :: (t ++ ['"']) ++ r) = '"' :: (t ++ '"' :: r) := fun t r => by
        rw [List.cons_append, List.append_assoc, skip_cons (by decide)]
        rfl
      rcases legible_of_inQuotes hs with ⟨t, ht⟩ | hfault
      · refine Or.inl ⟨String.ofList t, fun r _ => ?_⟩
        simp only [text, hskip, ht.readText_append]
      · refine Or.inr fun r _ => ?_
        obtain ⟨fault, hf⟩ := hfault r
        exact ⟨fault, by simp only [text, hskip, hf]⟩
    | null | yes | no => exact Or.inr fun r _ => text_run_of_ne (by decide) (by decide) _
    | number h =>
      cases h with
      | negative _ => exact Or.inr fun r _ => text_run_of_ne (by decide) (by decide) _
      | positive h =>
        obtain ⟨c, u, rfl, hc⟩ := h.head
        exact Or.inr fun r _ =>
          text_run_of_ne (isSpace_of_isDigit hc) (ne_of_isDigit hc (by decide)) _
  bracket s hc := text_run_of_ne (isSpace_of_bracket hc) (by rcases hc with rfl | rfl <;> decide) s

theorem boolean_run_of_ne (hspace : isSpace c = false) (ht : c ≠ 't') (hf : c ≠ 'f')
    (s : List Char) : ∃ fault, boolean.run (c :: s) = .error fault := by
  simp only [boolean, skip_cons hspace]
  split
  · rename_i h
    exact absurd (List.cons.inj h).1 ht
  · rename_i h
    exact absurd (List.cons.inj h).1 hf
  · exact ⟨_, rfl⟩

theorem plain_boolean : boolean.Plain where
  skips s := by simp only [boolean, skip_skip]
  scalar hk := by
    cases hk with
    | yes =>
      refine Or.inl ⟨true, fun r _ => ?_⟩
      have hskip : skip (['t', 'r', 'u', 'e'] ++ r) = 't' :: (['r', 'u', 'e'] ++ r) :=
        skip_cons (by decide)
      simp only [boolean, hskip, readWord_append]
    | no =>
      refine Or.inl ⟨false, fun r _ => ?_⟩
      have hskip : skip (['f', 'a', 'l', 's', 'e'] ++ r) = 'f' :: (['a', 'l', 's', 'e'] ++ r) :=
        skip_cons (by decide)
      simp only [boolean, hskip, readWord_append]
    | null | text _ =>
      exact Or.inr fun r _ => boolean_run_of_ne (by decide) (by decide) (by decide) _
    | number h =>
      cases h with
      | negative _ =>
        exact Or.inr fun r _ => boolean_run_of_ne (by decide) (by decide) (by decide) _
      | positive h =>
        obtain ⟨c, u, rfl, hc⟩ := h.head
        exact Or.inr fun r _ => boolean_run_of_ne (isSpace_of_isDigit hc)
          (ne_of_isDigit hc (by decide)) (ne_of_isDigit hc (by decide)) _
  bracket s hc := boolean_run_of_ne (isSpace_of_bracket hc) (by rcases hc with rfl | rfl <;> decide)
    (by rcases hc with rfl | rfl <;> decide) s

theorem settled_takeNumber (accept : Number → Except Cause α)
    {f : List Char → Except Fault (Number × List Char)} (h : Settled f) :
    Settled fun r => takeNumber accept (f r) := by
  rcases h with ⟨n, hn⟩ | hfault
  · cases ha : accept n with
    | ok a => exact Or.inl ⟨a, fun r hr => by simp only [takeNumber, hn r hr, ha]⟩
    | error cause => exact Or.inr fun r hr => ⟨_, by simp only [takeNumber, hn r hr, ha]; rfl⟩
  · refine Or.inr fun r hr => ?_
    obtain ⟨fault, hf⟩ := hfault r hr
    exact ⟨fault, by simp only [takeNumber, hf]⟩

section
variable {expected : String} {accept : Number → Except Cause α}

theorem number_run_digit (hc : c.isDigit = true) (s : List Char) :
    (number expected accept).run (c :: s) = takeNumber accept (readNumber false (c :: s)) := by
  simp only [number, skip_cons (isSpace_of_isDigit hc)]
  split
  · rename_i h
    exact absurd (List.cons.inj h).1 (ne_of_isDigit hc (by decide))
  · rename_i h
    cases h
  · rename_i h
    cases h
    rw [if_pos hc]

theorem number_run_of_ne (hspace : isSpace c = false) (hminus : c ≠ '-') (hc : c.isDigit = false)
    (s : List Char) : ∃ fault, (number expected accept).run (c :: s) = .error fault := by
  refine ⟨mismatch expected (c :: s), ?_⟩
  simp only [number, skip_cons hspace]
  rw [hc]
  rfl

theorem plain_number (expected : String) (accept : Number → Except Cause α) :
    (number expected accept).Plain where
  skips s := by simp only [number, skip_skip]
  scalar hk := by
    cases hk with
    | number h =>
      cases h with
      | negative h => exact settled_takeNumber accept (settled_readNumber h true)
      | positive h =>
        have hsettled := settled_takeNumber accept (settled_readNumber h false)
        obtain ⟨c, u, rfl, hc⟩ := h.head
        exact hsettled.congr fun r _ => number_run_digit hc (u ++ r)
    | null | yes | no | text _ =>
      exact Or.inr fun r _ => number_run_of_ne (by decide) (by decide) (by decide) _
  bracket s hc := number_run_of_ne (isSpace_of_bracket hc) (by rcases hc with rfl | rfl <;> decide)
    (not_isDigit_of_bracket hc) s

end

theorem optional_run_of_ne (hspace : isSpace c = false) (hc : c ≠ 'n') (s : List Char) :
    (optional x).run (c :: s) = (x.map some).run (c :: s) := by
  simp only [optional, skip_cons hspace]
  split
  · rename_i h
    exact absurd (List.cons.inj h).1 hc
  · rfl

/-- `null` is one more value without parts. -/
theorem Plain.optional (h : x.Plain) : x.optional.Plain where
  skips s := by
    have hx := (h.map some).skips s
    simp only [Reader.optional, skip_skip, hx]
  scalar hk := by
    have hsome := (h.map some).scalar hk
    cases hk with
    | null =>
      refine Or.inl ⟨none, fun r _ => ?_⟩
      have hskip : skip (['n', 'u', 'l', 'l'] ++ r) = 'n' :: (['u', 'l', 'l'] ++ r) :=
        skip_cons (by decide)
      simp only [Reader.optional, hskip, readWord_append]
    | yes | no | text _ =>
      exact hsome.congr fun r _ => optional_run_of_ne (by decide) (by decide) _
    | number hn =>
      cases hn with
      | negative _ => exact hsome.congr fun r _ => optional_run_of_ne (by decide) (by decide) _
      | positive hn =>
        obtain ⟨c, u, rfl, hc⟩ := hn.head
        exact hsome.congr fun r _ =>
          optional_run_of_ne (isSpace_of_isDigit hc) (ne_of_isDigit hc (by decide)) _
  bracket s hc := by
    rw [optional_run_of_ne (isSpace_of_bracket hc) (by rcases hc with rfl | rfl <;> decide)]
    exact (h.map some).bracket s hc

end Reader

end SignGloss.Json
