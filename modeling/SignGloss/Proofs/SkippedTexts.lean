/-
  What is skipped is of the grammar.

  * a string that is read is the spelling of its characters (`readText_eq_ok_iff`), and one that
    is skipped may stand between quotes (`exists_of_skipText`);
  * what is skipped as a number or as another value without parts is one
    (`exists_of_skipNumber`, `exists_of_skipScalar`), and what is read as a number would be
    skipped as well (`skipNumber_of_readNumber`);
  * `Closes bs toks`: the tokens go on behind a value up to the end of the outermost of the
    brackets `bs`, and `Stage.Covers` says so for each stage of skipping.

  Main statement: `exists_of_skipValue`, a value that is skipped is a tree.
-/
import SignGloss.Proofs.SettledScalars

namespace SignGloss.Json

variable {s t r w ds : List Char} {c : Char} {n : Nat} {minus : Bool} {e : Int}

/-! ## Strings -/

theorem exists_of_readHex (h : readHex s = .ok (n, r)) :
    ∃ a b c d, s = a :: b :: c :: d :: r ∧ hexValue? a b c d = some n := by
  unfold readHex at h
  split at h
  · cases h
  · split at h
    · split at h
      · rename_i hn
        cases h
        exact ⟨_, _, _, _, rfl, hn⟩
      · cases h
    · cases h

theorem exists_of_skipEscape (h : skipEscape s = .ok r) :
    (∃ c, s = c :: r ∧ (letterEscape? c).isSome) ∨
      ∃ a b c d, s = 'u' :: a :: b :: c :: d :: r ∧ (hexValue? a b c d).isSome := by
  cases s with
  | nil => cases h
  | cons c s =>
    rw [skipEscape] at h
    split at h
    · rename_i hc
      split at h
      · cases h
      · rename_i hhex
        cases h
        obtain ⟨a, b, c', d, rfl, hn⟩ := exists_of_readHex hhex
        exact Or.inr ⟨a, b, c', d, by rw [hc], by rw [hn]; rfl⟩
    · split at h
      · rename_i hc
        cases h
        exact Or.inl ⟨c, rfl, hc⟩
      · cases h

/-- A string that is skipped may stand between quotes. -/
theorem exists_of_skipText (h : skipText s = .ok r) :
    ∃ b, InQuotes b ∧ s = b ++ '"' :: r := by
  fun_induction skipText s with
  | case1 | case3 | case5 => cases h
  | case2 s =>
    cases h
    exact ⟨[], .nil, rfl⟩
  | case4 s r₁ hr _ _ ih =>
    obtain ⟨b, hb, rfl⟩ := ih h
    rcases exists_of_skipEscape hr with ⟨c, rfl, hletter⟩ | ⟨a, b', c, d, rfl, hcode⟩
    · exact ⟨_, .letter hletter hb, rfl⟩
    · exact ⟨_, .code hcode hb, rfl⟩
  | case6 c s hquote hslash hcontrol ih =>
    obtain ⟨b, hb, rfl⟩ := ih h
    exact ⟨_, .plain hquote hslash (Bool.eq_false_iff.2 hcontrol) hb, rfl⟩

theorem exists_of_readTrailing (h : readTrailing n s = .ok (c, r)) :
    ∃ a b a' b' m, s = '\\' :: 'u' :: a :: b :: a' :: b' :: r ∧ hexValue? a b a' b' = some m ∧
      isTrailing m = true ∧ c = pairChar n m := by
  unfold readTrailing at h
  split at h
  · cases h
  · cases h
  · split at h
    · cases h
    · rename_i hhex
      obtain ⟨a, b, a', b', rfl, hm⟩ := exists_of_readHex hhex
      split at h
      · rename_i htrail
        obtain ⟨rfl, rfl⟩ := Prod.mk.inj (Except.ok.inj h)
        exact ⟨a, b, a', b', _, rfl, hm, htrail, rfl⟩
      · cases h
  · cases h
  · cases h

/-- An escape that is read is a letter, a code or a pair of codes, with anything spelled behind
    it. -/
theorem Spells.of_readEscape (h : readEscape s = .ok (c, r)) {b u : List Char} (hb : Spells b u)
    (hr : r = b ++ t) : ∃ b', Spells b' (c :: u) ∧ '\\' :: s = b' ++ t := by
  subst hr
  cases s with
  | nil => cases h
  | cons c' s =>
    rw [readEscape] at h
    split at h
    · rename_i hu
      subst hu
      unfold readCode at h
      split at h
      · cases h
      · rename_i hhex
        obtain ⟨a, d, a', d', rfl, hn⟩ := exists_of_readHex hhex
        split at h
        · cases h
        · rename_i htrail
          split at h
          · rename_i hlead
            obtain ⟨p, q, p', q', m, rfl, hm, hmtrail, hpair⟩ := exists_of_readTrailing h
            rw [hpair]
            exact ⟨_, .pair hn hlead hm hmtrail hb, rfl⟩
          · rename_i hlead
            obtain ⟨rfl, rfl⟩ := Prod.mk.inj (Except.ok.inj h)
            exact ⟨_, .code hn (Bool.eq_false_iff.2 hlead) (Bool.eq_false_iff.2 htrail) hb, rfl⟩
    · split at h
      · rename_i hletter
        cases h
        exact ⟨_, .letter hletter hb, rfl⟩
      · cases h

/-- **A string is read as the characters that it spells.** -/
theorem readText_eq_ok_iff :
    readText s = .ok (t, r) ↔ ∃ b, Spells b t ∧ s = b ++ '"' :: r := by
  constructor
  · intro h
    fun_induction readText s generalizing t r with
    | case1 | case3 | case4 | case6 | case7 => cases h
    | case2 s =>
      cases h
      exact ⟨[], .nil, rfl⟩
    | case5 s d r₁ hr _ t₁ r₂ hr₂ _ ih =>
      cases h
      obtain ⟨b, hb, hrest⟩ := ih hr₂
      exact Spells.of_readEscape hr hb hrest
    | case8 c s hquote hslash hcontrol t₁ r₁ hr ih =>
      cases h
      obtain ⟨b, hb, rfl⟩ := ih hr
      exact ⟨_, .plain hquote hslash (Bool.eq_false_iff.2 hcontrol) hb, rfl⟩
  · rintro ⟨b, hb, rfl⟩
    exact hb.readText_append r

/-! ## Numbers -/

/-- A text starts with some digits, perhaps with none. -/
theorem exists_digits (s : List Char) : ∃ ds, Digits ds ∧ s = ds ++ dropDigits s ∧
    (startsWithDigit s = true → ds ≠ []) := by
  refine ⟨s.takeWhile Char.isDigit, fun c hc => List.mem_takeWhile_imp hc,
    List.takeWhile_append_dropWhile.symm, fun h => ?_⟩
  cases s with
  | nil => cases h
  | cons c s =>
    have hc : c.isDigit = true := by simpa [startsWithDigit] using h
    simp [hc]

theorem exists_sign (s : List Char) : ∃ sign, (sign = [] ∨ sign = ['+'] ∨ sign = ['-']) ∧
    s = sign ++ (exponentSign s).2 := by
  unfold exponentSign
  split
  · exact ⟨['+'], by simp, rfl⟩
  · exact ⟨['-'], by simp, rfl⟩
  · exact ⟨[], by simp, rfl⟩

theorem exists_of_skipExponent (h : skipExponent s = .ok r) (hc : c = 'e' ∨ c = 'E') :
    ∃ exponent, Exponent exponent ∧ c :: s = exponent ++ r := by
  obtain ⟨sign, hsign, hs⟩ := exists_sign s
  obtain ⟨ds, hds, hdigits, hne⟩ := exists_digits (exponentSign s).2
  unfold skipExponent at h
  split at h
  · rename_i hstart
    cases h
    refine ⟨c :: (sign ++ ds), .digits hc hsign (hne hstart) hds, ?_⟩
    rw [List.cons_append, List.append_assoc, ← hdigits, ← hs]
  · cases h

theorem exists_of_skipTail (h : skipTail s = .ok r) :
    ∃ exponent, Exponent exponent ∧ s = exponent ++ r := by
  unfold skipTail at h
  split at h
  · exact exists_of_skipExponent h (Or.inl rfl)
  · exact exists_of_skipExponent h (Or.inr rfl)
  · cases h
    exact ⟨[], .none, rfl⟩

theorem exists_of_skipIntegerTail (h : skipIntegerTail s = .ok r) :
    ∃ fraction exponent, Fraction fraction ∧ Exponent exponent ∧
      s = fraction ++ (exponent ++ r) := by
  unfold skipIntegerTail at h
  split at h
  · rename_i t
    split at h
    · rename_i hstart
      obtain ⟨ds, hds, ht, hne⟩ := exists_digits t
      obtain ⟨exponent, he, hrest⟩ := exists_of_skipTail h
      refine ⟨'.' :: ds, exponent, .digits (hne hstart) hds, he, ?_⟩
      rw [List.cons_append, ← hrest, ← ht]
    · cases h
  · obtain ⟨exponent, he, rfl⟩ := exists_of_skipTail h
    exact ⟨[], exponent, .none, he, rfl⟩

/-- What is skipped as a number is one, behind its sign. -/
theorem exists_of_skipNumber (h : skipNumber s = .ok r) : ∃ u, Unsigned u ∧ s = u ++ r := by
  cases s with
  | nil => cases h
  | cons c s =>
    rw [skipNumber] at h
    split at h
    · cases h
    · rename_i hc
      have hc : c.isDigit = true := by simpa using hc
      split at h
      · rename_i hzero
        subst hzero
        split at h
        · cases h
        · obtain ⟨fraction, exponent, hf, he, rfl⟩ := exists_of_skipIntegerTail h
          exact ⟨_, .mk .zero hf he, by simp⟩
      · rename_i hzero
        obtain ⟨ds, hds, hs, -⟩ := exists_digits s
        obtain ⟨fraction, exponent, hf, he, hrest⟩ := exists_of_skipIntegerTail h
        refine ⟨_, .mk (.digits hc hzero hds) hf he, ?_⟩
        rw [List.append_assoc, List.append_assoc, List.cons_append, ← hrest, ← hs]

/-! ### Numbers that are read -/

theorem startsWithDigit_cons : startsWithDigit (c :: s) = c.isDigit := rfl

theorem dropDigits_cons (hc : c.isDigit = true) : dropDigits (c :: s) = dropDigits s :=
  List.dropWhile_cons_of_pos hc

theorem dropDigits_eq_self (h : startsWithDigit s = false) : dropDigits s = s := by
  cases s with
  | nil => rfl
  | cons c s =>
    rw [startsWithDigit_cons] at h
    exact List.dropWhile_cons_of_neg (Bool.eq_false_iff.1 h)

/-- Digits that are taken would be dropped as well. -/
theorem dropDigits_of_takeDigits {k m k' : Nat} (h : takeDigits n k s = (m, k', r)) :
    dropDigits s = dropDigits r ∧ (startsWithDigit r = true → startsWithDigit s = true) ∧
      k ≤ k' ∧ (k < k' → startsWithDigit s = true) := by
  induction s generalizing n k with
  | nil =>
    cases h
    exact ⟨rfl, id, Nat.le_refl _, fun h => absurd h (Nat.lt_irrefl _)⟩
  | cons c s ih =>
    rw [takeDigits] at h
    split at h
    · rename_i hc
      obtain ⟨hdrop, -, hle, -⟩ := ih h
      refine ⟨?_, fun _ => hc.1, by omega, fun _ => hc.1⟩
      rw [dropDigits_cons hc.1, hdrop]
    · cases h
      exact ⟨rfl, id, Nat.le_refl _, fun h => absurd h (Nat.lt_irrefl _)⟩

theorem dropDigits_of_takeExponent {k : Nat} {o : Option Nat} (h : takeExponent k s = (o, r)) :
    dropDigits s = dropDigits r ∧ (o.isSome → dropDigits r = r) := by
  induction s generalizing k with
  | nil =>
    cases h
    exact ⟨rfl, fun _ => rfl⟩
  | cons c s ih =>
    rw [takeExponent] at h
    split at h
    · rename_i hc
      rw [dropDigits_cons hc]
      split at h
      · exact ih h
      · cases h
        exact ⟨rfl, fun h => by cases h⟩
    · rename_i hc
      cases h
      exact ⟨rfl, fun _ => dropDigits_eq_self (Bool.eq_false_iff.2 hc)⟩

variable {x : Number}

theorem rest_of_realOf (h : realOf minus n e s = .ok (x, r)) : r = s := by
  unfold realOf at h
  split at h
  · cases h
    rfl
  · cases h

theorem skipExponent_of_readExponent (h : readExponent minus n e s = .ok (x, r)) :
    skipExponent s = .ok r := by
  unfold readExponent at h
  split at h
  · cases h
  · rename_i c t hs
    split at h
    · cases h
    · rename_i hc
      have hc : c.isDigit = true := by simpa using hc
      have hskip : skipExponent s = .ok (dropDigits t) := by
        rw [skipExponent, hs, startsWithDigit_cons, if_pos hc, dropDigits_cons hc]
      rw [hskip]
      split at h
      · rename_i hk
        obtain ⟨hdrop, hself⟩ := dropDigits_of_takeExponent hk
        rw [rest_of_realOf h, hdrop, hself rfl]
      · rename_i hk
        split at h
        · cases h
        · rw [rest_of_realOf h, (dropDigits_of_takeExponent hk).1]

theorem skipTail_of_readTail (h : readTail minus n e s = .ok (x, r)) : skipTail s = .ok r := by
  unfold readTail at h
  split at h
  · exact skipExponent_of_readExponent h
  · exact skipExponent_of_readExponent h
  · rename_i he hE
    rw [rest_of_realOf h]
    unfold skipTail
    split
    · exact absurd rfl (he _)
    · exact absurd rfl (hE _)
    · rfl

theorem skipTail_of_readFraction (h : readFraction minus n e s = .ok (x, r)) :
    startsWithDigit s = true ∧ skipTail (dropDigits s) = .ok r := by
  unfold readFraction at h
  split at h
  rename_i m k t ht
  obtain ⟨hdrop, hstart, -, hsome⟩ := dropDigits_of_takeDigits ht
  rw [hdrop]
  split at h
  · rename_i ht'
    exact ⟨hstart ht', skipTail_of_readTail h⟩
  · rename_i ht'
    split at h
    · split at h <;> cases h
    · rename_i hk
      rw [dropDigits_eq_self (Bool.eq_false_iff.2 ht')]
      exact ⟨hsome (Nat.pos_of_ne_zero hk), skipTail_of_readTail h⟩

theorem skipIntegerTail_of_readFraction (h : readFraction minus n e s = .ok (x, r)) :
    skipIntegerTail ('.' :: s) = .ok r := by
  obtain ⟨hstart, htail⟩ := skipTail_of_readFraction h
  rw [skipIntegerTail, if_pos hstart, htail]

theorem skipIntegerTail_of_readIntegerTail (h : readIntegerTail minus n s = .ok (x, r)) :
    skipIntegerTail s = .ok r := by
  unfold readIntegerTail at h
  split at h
  · exact skipIntegerTail_of_readFraction h
  · exact skipExponent_of_readExponent h
  · exact skipExponent_of_readExponent h
  · rename_i hpoint he hE
    cases h
    unfold skipIntegerTail
    split
    · exact absurd rfl (hpoint _)
    · unfold skipTail
      split
      · exact absurd rfl (he _)
      · exact absurd rfl (hE _)
      · rfl

theorem skipIntegerTail_of_readLongTail {k : Nat} (h : readLongTail minus n k s = .ok (x, r)) :
    skipIntegerTail s = .ok r := by
  unfold readLongTail at h
  split at h
  · exact skipIntegerTail_of_readFraction h
  · rename_i hpoint
    unfold skipIntegerTail
    split
    · exact absurd rfl (hpoint _)
    · exact skipTail_of_readTail h

/-- **A number that is read would be skipped as well.** -/
theorem skipNumber_of_readNumber (h : readNumber minus s = .ok (x, r)) :
    skipNumber s = .ok r := by
  cases s with
  | nil => cases h
  | cons c s =>
    rw [readNumber] at h
    rw [skipNumber]
    split at h
    · cases h
    · rename_i hc
      rw [if_neg hc]
      split at h
      · rename_i hzero
        rw [if_pos hzero]
        split at h
        · cases h
        · rename_i hstart
          rw [if_neg hstart]
          exact skipIntegerTail_of_readIntegerTail h
      · rename_i hzero
        rw [if_neg hzero]
        split at h
        rename_i m k t ht
        rw [(dropDigits_of_takeDigits ht).1]
        split at h
        · exact skipIntegerTail_of_readLongTail h
        · rename_i hstart
          rw [dropDigits_eq_self (Bool.eq_false_iff.2 hstart)]
          exact skipIntegerTail_of_readIntegerTail h

/-! ## Values without parts -/

theorem eq_append_of_readWord {word : List Char} (h : readWord word s = .ok r) : s = word ++ r := by
  induction word generalizing s with
  | nil =>
    cases h
    rfl
  | cons c word ih =>
    cases s with
    | nil => cases h
    | cons d s =>
      rw [readWord] at h
      split at h
      · rename_i hc
        rw [hc, ih h, List.cons_append]
      · cases h

/-- What is skipped as a value without parts is one. -/
theorem exists_of_skipScalar (h : skipScalar s = .ok r) : ∃ k, IsScalar k ∧ s = k ++ r := by
  unfold skipScalar at h
  split at h
  · exact ⟨_, .null, by rw [eq_append_of_readWord h]; rfl⟩
  · exact ⟨_, .yes, by rw [eq_append_of_readWord h]; rfl⟩
  · exact ⟨_, .no, by rw [eq_append_of_readWord h]; rfl⟩
  · obtain ⟨b, hb, rfl⟩ := exists_of_skipText h
    exact ⟨_, .text hb, by simp⟩
  · obtain ⟨u, hu, rfl⟩ := exists_of_skipNumber h
    exact ⟨_, .number (.negative hu), rfl⟩
  · split at h
    · obtain ⟨u, hu, hs⟩ := exists_of_skipNumber h
      exact ⟨u, .number (.positive hu), hs⟩
    · cases h
  · cases h

/-! ## Brackets -/

variable {toks : List (List Char)} {tok : List Char} {bs : List Bracket} {b : Bracket}

theorem exists_blank (s : List Char) : ∃ w, Blank w ∧ s = w ++ skip s :=
  ⟨s.takeWhile isSpace, fun _ hc => List.mem_takeWhile_imp hc,
    List.takeWhile_append_dropWhile.symm⟩

theorem Blank.append (hw : Blank w) (ht : Blank t) : Blank (w ++ t) := fun c hc =>
  (List.mem_append.1 hc).elim (hw c) (ht c)

/-- Space may be put before a text. -/
theorem Spaced.blank_append (hw : Blank w) (h : Spaced toks s) : Spaced toks (w ++ s) := by
  cases h with
  | nil hs => exact .nil (hw.append hs)
  | cons ht hs =>
    rw [← List.append_assoc]
    exact .cons (hw.append ht) hs

theorem Spaced.cons_of_skip (hs : Json.skip s = tok ++ r) (hr : Spaced toks r) :
    Spaced (tok :: toks) s := by
  obtain ⟨w, hw, hskip⟩ := exists_blank s
  rw [hskip, hs]
  exact .cons hw hr

theorem Spaced.unskip (h : Spaced toks (Json.skip s)) : Spaced toks s := by
  obtain ⟨w, hw, hskip⟩ := exists_blank s
  rw [hskip]
  exact h.blank_append hw

/-- The tokens go on behind a value, up to the end of the outermost bracket. -/
inductive Closes : List Bracket → List (List Char) → Prop
  | none : Closes [] []
  | list {bs : List Bracket} {toks : List (List Char)} (ts : List Tree) : Closes bs toks →
      Closes (.list :: bs) (Tree.laterItems ts ++ toks)
  | record {bs : List Bracket} {toks : List (List Char)} (ms : List (Key × Tree)) :
      Closes bs toks → Closes (.record :: bs) (Tree.laterMembers ms ++ toks)

/-- The text goes on as the stage says, up to the end of the outermost bracket, and then with the
    tokens. -/
def Stage.Covers (stage : Stage) (bs : List Bracket) (toks : List (List Char)) (s : List Char) :
    Prop :=
  match stage with
  | .value => ∃ (T : Tree) (cs : List (List Char)), Closes bs cs ∧
      Spaced (T.tokens ++ (cs ++ toks)) s
  | .key => ∃ (k : Key) (T : Tree) (cs : List (List Char)), Closes bs cs ∧
      Spaced (k.token :: [':'] :: (T.tokens ++ (cs ++ toks))) s
  | .first .list => ∀ bs', bs = .list :: bs' → ∃ (ts : List Tree) (cs : List (List Char)),
      Closes bs' cs ∧ Spaced (Tree.items true ts ++ (cs ++ toks)) s
  | .first .record => ∀ bs', bs = .record :: bs' →
      ∃ (ms : List (Key × Tree)) (cs : List (List Char)),
        Closes bs' cs ∧ Spaced (Tree.members true ms ++ (cs ++ toks)) s
  | .after => ∃ cs, Closes bs cs ∧ Spaced (cs ++ toks) s

theorem exists_of_readColon (h : readColon s = .ok r) : skip s = ':' :: r := by
  unfold readColon at h
  split at h
  · cases h
  · rename_i hs
    split at h
    · rename_i hc
      cases h
      rw [hs, hc]
    · cases h

theorem exists_of_skipKey (h : skipKey s = .ok r) (hr : Spaced toks r) :
    ∃ k : Key, Spaced (k.token :: [':'] :: toks) s := by
  unfold skipKey at h
  split at h
  · cases h
  · rename_i hs
    split at h
    · cases h
    · rename_i u hu
      obtain ⟨b, hb, rfl⟩ := exists_of_skipText hu
      have hcolon : Spaced ([':'] :: toks) u := .cons_of_skip (exists_of_readColon h) hr
      refine ⟨⟨b, hb⟩, .cons_of_skip ?_ hcolon⟩
      rw [hs, Key.token]
      simp
  · cases h

/-! ### What each stage contributes -/

theorem covers_value_of_list (hs : skip s = '[' :: r)
    (h : (Stage.first .list).Covers (.list :: bs) toks r) : Stage.value.Covers bs toks s := by
  obtain ⟨ts, cs, hcs, hts⟩ := h bs rfl
  refine ⟨.list ts, cs, hcs, ?_⟩
  rw [Tree.tokens_list]
  exact .cons_of_skip hs hts

theorem covers_value_of_record (hs : skip s = '{' :: r)
    (h : (Stage.first .record).Covers (.record :: bs) toks r) : Stage.value.Covers bs toks s := by
  obtain ⟨ms, cs, hcs, hms⟩ := h bs rfl
  refine ⟨.record ms, cs, hcs, ?_⟩
  rw [Tree.tokens_record]
  exact .cons_of_skip hs hms

theorem covers_value_of_scalar (hs : skipScalar (skip s) = .ok r)
    (h : Stage.after.Covers bs toks r) : Stage.value.Covers bs toks s := by
  obtain ⟨cs, hcs, hrest⟩ := h
  obtain ⟨k, hk, hskip⟩ := exists_of_skipScalar hs
  exact ⟨.scalar ⟨k, hk⟩, cs, hcs, .cons_of_skip hskip hrest⟩

theorem covers_key (hs : skipKey s = .ok r) (h : Stage.value.Covers bs toks r) :
    Stage.key.Covers bs toks s := by
  obtain ⟨T, cs, hcs, hT⟩ := h
  obtain ⟨k, hk⟩ := exists_of_skipKey hs hT
  exact ⟨k, T, cs, hcs, hk⟩

/-- An element, and what is behind it in its list. -/
theorem exists_of_covers_element (h : Stage.value.Covers (.list :: bs) toks s) :
    ∃ (T : Tree) (ts : List Tree) (cs : List (List Char)), Closes bs cs ∧
      Spaced (T.tokens ++ (Tree.laterItems ts ++ (cs ++ toks))) s := by
  obtain ⟨T, _, hclosed, hT⟩ := h
  cases hclosed with
  | @list _ cs ts hcs =>
    rw [List.append_assoc] at hT
    exact ⟨T, ts, cs, hcs, hT⟩

/-- A member, and what is behind it in its record. -/
theorem exists_of_covers_member (h : Stage.key.Covers (.record :: bs) toks s) :
    ∃ (k : Key) (T : Tree) (ms : List (Key × Tree)) (cs : List (List Char)), Closes bs cs ∧
      Spaced (k.token :: [':'] :: (T.tokens ++ (Tree.laterMembers ms ++ (cs ++ toks)))) s := by
  obtain ⟨k, T, _, hclosed, hT⟩ := h
  cases hclosed with
  | @record _ cs ms hcs =>
    rw [List.append_assoc] at hT
    exact ⟨k, T, ms, cs, hcs, hT⟩

/-- A bracket with a first element or member. -/
theorem covers_first_of_member (hs : skip s = c :: r)
    (h : (Stage.member b).Covers bs toks (c :: r)) : (Stage.first b).Covers bs toks s := by
  rw [← hs] at h
  cases b with
  | list =>
    rintro bs' rfl
    obtain ⟨T, ts, cs, hcs, hT⟩ := exists_of_covers_element h
    refine ⟨T :: ts, cs, hcs, Spaced.unskip ?_⟩
    rwa [Tree.items, List.append_assoc]
  | record =>
    rintro bs' rfl
    obtain ⟨k, T, ms, cs, hcs, hT⟩ := exists_of_covers_member h
    refine ⟨(k, T) :: ms, cs, hcs, Spaced.unskip ?_⟩
    rwa [Tree.members, List.cons_append, List.cons_append, List.append_assoc]

/-- A bracket without elements or members. -/
theorem covers_first_of_closing (hs : skip s = b.closing :: r)
    (h : Stage.after.Covers bs.tail toks r) : (Stage.first b).Covers bs toks s := by
  obtain ⟨cs, hcs, hrest⟩ := h
  cases b with
  | list =>
    rintro bs' rfl
    exact ⟨[], cs, hcs, .cons_of_skip hs hrest⟩
  | record =>
    rintro bs' rfl
    exact ⟨[], cs, hcs, .cons_of_skip hs hrest⟩

/-- A bracket that goes on with another element or member. -/
theorem covers_after_of_comma (hs : skip s = ',' :: r)
    (h : (Stage.member b).Covers (b :: bs) toks r) : Stage.after.Covers (b :: bs) toks s := by
  cases b with
  | list =>
    obtain ⟨T, ts, cs, hcs, hT⟩ := exists_of_covers_element h
    refine ⟨_, .list (T :: ts) hcs, ?_⟩
    rw [Tree.laterItems, List.cons_append, List.cons_append, List.append_assoc, List.append_assoc]
    exact .cons_of_skip hs hT
  | record =>
    obtain ⟨k, T, ms, cs, hcs, hT⟩ := exists_of_covers_member h
    refine ⟨_, .record ((k, T) :: ms) hcs, ?_⟩
    rw [Tree.laterMembers, List.append_assoc, List.cons_append, List.cons_append,
      List.cons_append, List.append_assoc]
    exact .cons_of_skip hs hT

/-- A bracket that ends behind an element or a member. -/
theorem covers_after_of_closing (hs : skip s = b.closing :: r)
    (h : Stage.after.Covers bs toks r) : Stage.after.Covers (b :: bs) toks s := by
  obtain ⟨cs, hcs, hrest⟩ := h
  cases b with
  | list => exact ⟨_, .list [] hcs, .cons_of_skip hs hrest⟩
  | record => exact ⟨_, .record [] hcs, .cons_of_skip hs hrest⟩

/-- **What is skipped is covered**, at each stage. -/
theorem covers_of_skipFrom {stage : Stage} (h : skipFrom stage bs s = .ok r)
    (hr : Spaced toks r) : stage.Covers bs toks s := by
  fun_induction skipFrom stage bs s with
  -- The faults, and then each way in which skipping goes on.
  | case3 | case5 | case7 | case11 | case14 => cases h
  | case1 _ _ _ hs _ ih => exact covers_value_of_list hs (ih h)
  | case2 _ _ _ hs _ ih => exact covers_value_of_record hs (ih h)
  | case4 _ _ _ _ _ _ hs _ ih => exact covers_value_of_scalar hs (ih h)
  | case6 _ _ _ hs _ ih => exact covers_key hs (ih h)
  | case8 _ _ _ _ hs _ ih => exact covers_first_of_closing hs (ih h)
  | case9 _ _ _ _ _ hs _ _ ih => exact covers_first_of_member hs (ih h)
  | case10 =>
    cases h
    exact ⟨[], .none, hr⟩
  | case12 _ _ _ _ hs _ ih => exact covers_after_of_comma hs (ih h)
  | case13 _ _ _ _ hs _ _ ih => exact covers_after_of_closing hs (ih h)

/-- **A value that is skipped is a tree.** -/
theorem exists_of_skipValue (h : skipValue s = .ok r) (hr : Spaced toks r) :
    ∃ T : Tree, Spaced (T.tokens ++ toks) s := by
  obtain ⟨T, cs, hcs, hT⟩ := covers_of_skipFrom h hr
  cases hcs
  exact ⟨T, hT⟩

end SignGloss.Json
