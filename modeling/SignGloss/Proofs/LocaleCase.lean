/-
  Locale tags in any letter case.

  * a property of subtags is `Caseless` if it does not depend on the case of letters, as
    are all kinds of subtags.

  Readers test subtags for their kinds and give them the case of their kind, so that a tag
  with all letters in lower case is read as it is (`Locale.ofSubtags?_lower`).

  Main statement: two texts that are the same in lower case are read as the same locale
  or as none (`Locale.parse?_congr`).
-/
import Mathlib
import SignGloss.Locale

namespace SignGloss

namespace Subtag

/-! ## Letters -/

/-- A letter that becomes a small one is one of 26. -/
theorem toLower_cases (c : Char) : c.toLower = c ∨
    ∃ n < 26, c = Char.ofNat (65 + n) ∧ c.toLower = Char.ofNat (97 + n) := by
  by_cases h : c.isUpper
  · have hrange : 65 ≤ c.toNat ∧ c.toNat ≤ 90 := by
      simpa [Char.isUpper, UInt32.le_iff_toNat_le] using h
    refine Or.inr ⟨c.toNat - 65, by omega, ?_, ?_⟩
    · rw [show 65 + (c.toNat - 65) = c.toNat by omega, Char.ofNat_toNat]
    · rw [Char.toLower_eq_of_isUpper h, show 97 + (c.toNat - 65) = c.toNat + 32 by omega]
  · exact Or.inl (Char.toLower_eq_of_not_isUpper h)

/-- What is the same for capitals and small letters does not depend on the case. -/
theorem apply_toLower {β : Type} (f : Char → β)
    (h : ∀ n < 26, f (Char.ofNat (97 + n)) = f (Char.ofNat (65 + n))) (c : Char) :
    f c.toLower = f c := by
  rcases toLower_cases c with hc | ⟨n, hn, hc, hl⟩
  · rw [hc]
  · rw [hl, h n hn, ← hc]

theorem isDigit_toLower (c : Char) : c.toLower.isDigit = c.isDigit :=
  apply_toLower Char.isDigit (by decide) c

theorem isAlphanum_toLower (c : Char) : c.toLower.isAlphanum = c.isAlphanum :=
  apply_toLower Char.isAlphanum (by decide) c

theorem utf8Size_toLower (c : Char) : c.toLower.utf8Size = c.utf8Size :=
  apply_toLower Char.utf8Size (by decide) c

theorem isBlank_toLower (c : Char) : Text.isBlank c.toLower = Text.isBlank c :=
  apply_toLower Text.isBlank (by decide) c

theorem toLower_eq_hyphen_iff (c : Char) : c.toLower = '-' ↔ c = '-' :=
  Eq.to_iff (apply_toLower (· = '-') (by decide) c)

/-! ## Subtags -/

/-- The property does not depend on the case of letters. -/
def Caseless (p : Subtag → Bool) : Prop := ∀ s, p (lower s) = p s

variable {p q : Subtag → Bool} {s : Subtag}

theorem lower_lower (s : Subtag) : lower (lower s) = lower s := by
  simp [lower]

theorem upper_lower (s : Subtag) : upper (lower s) = upper s := by
  simp [lower, upper]

theorem lower_upper (s : Subtag) : lower (upper s) = lower s := by
  simp [lower, upper]

theorem title_lower (s : Subtag) : title (lower s) = title s := by
  cases s with
  | nil => rfl
  | cons c s =>
    show c.toLower.toUpper :: lower (lower s) = c.toUpper :: lower s
    rw [Char.toUpper_toLower_eq_toUpper, lower_lower]

theorem lower_title (s : Subtag) : lower (title s) = lower s := by
  cases s with
  | nil => rfl
  | cons c s =>
    show c.toUpper.toLower :: lower (lower s) = c.toLower :: lower s
    rw [Char.toLower_toUpper_eq_toLower, lower_lower]

theorem all_lower {f : Char → Bool} (h : ∀ c, f c.toLower = f c) (s : Subtag) :
    (lower s).all f = s.all f := by
  rw [lower, List.all_map]
  exact congrArg (s.all ·) (funext h)

theorem size_lower (s : Subtag) : Text.size (lower s) = Text.size s := by
  induction s with
  | nil => rfl
  | cons c s ih =>
    show Char.utf8Size c.toLower + Text.size (lower s) = c.utf8Size + Text.size s
    rw [utf8Size_toLower, ih]

theorem caseless_sizeIn (low high : Nat) : Caseless (sizeIn low high) := fun s => by
  simp [sizeIn, lower]

namespace Caseless

theorem all {f : Char → Bool} (h : ∀ c, f c.toLower = f c) : Caseless (List.all · f) := all_lower h

theorem and (hp : Caseless p) (hq : Caseless q) : Caseless fun s => p s && q s := fun s => by
  simp only [hp s, hq s]

theorem or (hp : Caseless p) (hq : Caseless q) : Caseless fun s => p s || q s := fun s => by
  simp only [hp s, hq s]

theorem not (hp : Caseless p) : Caseless fun s => !p s := fun s => by
  simp only [hp s]

theorem upper (h : Caseless p) (s : Subtag) : p (upper s) = p s := by
  rw [← h, lower_upper, h]

theorem title (h : Caseless p) (s : Subtag) : p (title s) = p s := by
  rw [← h, lower_title, h]

end Caseless

theorem caseless_isLanguage : Caseless isLanguage :=
  (caseless_sizeIn 2 3).and (.all Char.isAlpha_toLower_eq_isAlpha)

theorem caseless_isScript : Caseless isScript :=
  (caseless_sizeIn 4 4).and (.all Char.isAlpha_toLower_eq_isAlpha)

theorem caseless_isRegion : Caseless isRegion :=
  ((caseless_sizeIn 2 2).and (.all Char.isAlpha_toLower_eq_isAlpha)).or
    ((caseless_sizeIn 3 3).and (.all isDigit_toLower))

theorem caseless_head?_isDigit : Caseless fun s => s.head?.any Char.isDigit := fun s => by
  cases s <;> simp [lower, isDigit_toLower]

theorem caseless_isVariant : Caseless isVariant :=
  (Caseless.all isAlphanum_toLower).and
    ((caseless_sizeIn 5 8).or ((caseless_sizeIn 4 4).and caseless_head?_isDigit))

theorem caseless_isValue : Caseless isValue :=
  (caseless_sizeIn 3 8).and (.all isAlphanum_toLower)

theorem caseless_isUnicodeKey : Caseless isUnicodeKey := fun s => by
  rcases s with _ | ⟨a, _ | ⟨b, _ | ⟨c, s⟩⟩⟩ <;>
    simp [lower, isUnicodeKey, isAlphanum_toLower]

theorem caseless_isTransformKey : Caseless isTransformKey := fun s => by
  rcases s with _ | ⟨a, _ | ⟨b, _ | ⟨c, s⟩⟩⟩ <;>
    simp [lower, isTransformKey, isDigit_toLower]

theorem caseless_isPrivatePart : Caseless isPrivatePart :=
  (caseless_sizeIn 1 8).and (.all isAlphanum_toLower)

theorem caseless_isSingleton : Caseless isSingleton := fun s => by
  rw [isSingleton, size_lower, isSingleton]

theorem caseless_isOtherSized : Caseless isOtherSized := fun s => by
  rw [isOtherSized, size_lower, isOtherSized]

/-! ## Lists of subtags -/

theorem takeWhile_lower (h : Caseless p) (ss : List Subtag) :
    (ss.map lower).takeWhile p = (ss.takeWhile p).map lower := by
  rw [List.takeWhile_map, show p ∘ lower = p from funext h]

theorem dropWhile_lower (h : Caseless p) (ss : List Subtag) :
    (ss.map lower).dropWhile p = (ss.dropWhile p).map lower := by
  rw [List.dropWhile_map, show p ∘ lower = p from funext h]

theorem filter_lower (h : Caseless p) (ss : List Subtag) :
    (ss.map lower).filter p = (ss.filter p).map lower := by
  rw [List.filter_map, show p ∘ lower = p from funext h]

theorem all_map_lower (h : Caseless p) (ss : List Subtag) : (ss.map lower).all p = ss.all p := by
  rw [List.all_map, show p ∘ lower = p from funext h]

/-- Lower case is given once. -/
theorem map_lower_lower (ss : List Subtag) : (ss.map lower).map lower = ss.map lower := by
  simp [lower_lower]

end Subtag

/-! ## Readers -/

variable {p : Subtag → Bool} {s : List Subtag}

theorem LanguageTag.takeIf_lower (h : Subtag.Caseless p) (s : List Subtag) :
    takeIf p (s.map Subtag.lower) =
      ((takeIf p s).1.map Subtag.lower, (takeIf p s).2.map Subtag.lower) := by
  cases s with
  | nil => rfl
  | cons x s =>
    rw [List.map_cons, takeIf, takeIf, h x]
    split <;> rfl

theorem LanguageTag.read?_lower (s : List Subtag) : read? (s.map Subtag.lower) =
    (read? s).map fun r => (r.1, r.2.map Subtag.lower) := by
  cases s with
  | nil => rfl
  | cons l s =>
    simp only [List.map_cons, read?, Subtag.caseless_isLanguage l,
      takeIf_lower Subtag.caseless_isScript, takeIf_lower Subtag.caseless_isRegion,
      Subtag.takeWhile_lower Subtag.caseless_isVariant,
      Subtag.dropWhile_lower Subtag.caseless_isVariant, Subtag.map_lower_lower,
      Subtag.lower_lower, Option.map_map]
    split
    · split
      · simp [Function.comp_def, Subtag.title_lower, Subtag.upper_lower]
      · rfl
    · rfl

theorem Keyword.readAll?_lower {isKey : Subtag → Bool} (h : Subtag.Caseless isKey)
    (s : List Subtag) : readAll? isKey (s.map Subtag.lower) = readAll? isKey s := by
  fun_induction readAll? isKey s with
  | case1 => simp [readAll?]
  | case2 k s _ hk ih =>
    rw [List.map_cons, readAll?, if_pos ((h k).trans hk),
      Subtag.dropWhile_lower Subtag.caseless_isValue, ih,
      Subtag.takeWhile_lower Subtag.caseless_isValue, Subtag.map_lower_lower, Subtag.lower_lower]
  | case3 k s _ hk => rw [List.map_cons, readAll?, if_neg (by rwa [h k])]

namespace Extension

theorem readUnicode?_lower (s : List Subtag) :
    readUnicode? (s.map Subtag.lower) = readUnicode? s := by
  simp only [readUnicode?, Subtag.takeWhile_lower Subtag.caseless_isValue,
    Subtag.dropWhile_lower Subtag.caseless_isValue, Subtag.map_lower_lower, List.isEmpty_map,
    Keyword.readAll?_lower Subtag.caseless_isUnicodeKey]

theorem readFields?_lower (s : List Subtag) : readFields? (s.map Subtag.lower) = readFields? s := by
  simp only [readFields?, Keyword.readAll?_lower Subtag.caseless_isTransformKey]

theorem readTransform?_lower (s : List Subtag) :
    readTransform? (s.map Subtag.lower) = readTransform? s := by
  have hhead : (s.map Subtag.lower).head?.any Subtag.isLanguage =
      s.head?.any Subtag.isLanguage := by
    cases s with
    | nil => rfl
    | cons l s => exact Subtag.caseless_isLanguage l
  simp only [readTransform?, List.isEmpty_map, hhead, LanguageTag.read?_lower, readFields?_lower]
  split
  · rfl
  · split
    · cases LanguageTag.read? s with
      | none => rfl
      | some r => simp [readFields?_lower]
    · rfl

theorem readPrivateUse?_lower (s : List Subtag) :
    readPrivateUse? (s.map Subtag.lower) = readPrivateUse? s := by
  simp only [readPrivateUse?, List.isEmpty_map, Subtag.map_lower_lower,
    Subtag.all_map_lower Subtag.caseless_isPrivatePart]

theorem readOther?_lower (c : Char) (s : List Subtag) :
    readOther? c (s.map Subtag.lower) = readOther? c s := by
  simp only [readOther?, Subtag.filter_lower (.all Subtag.isAlphanum_toLower),
    Subtag.map_lower_lower, Subtag.all_map_lower Subtag.caseless_isOtherSized]

theorem read?_lower (c : Char) (s : List Subtag) : read? c (s.map Subtag.lower) = read? c s := by
  simp only [read?, readUnicode?_lower, readTransform?_lower, readPrivateUse?_lower,
    readOther?_lower]

/-- Extensions are read one after the other, unless the first is for private use. -/
theorem readAll?_cons {c : Char} (h : c.toLower ≠ 'x') (s : List Subtag) :
    readAll? ([c] :: s) = (read? c.toLower (s.takeWhile (!·.isSingleton))).bind fun e =>
      (readAll? (s.dropWhile (!·.isSingleton))).map (e :: ·) := by
  rw [readAll?, if_neg h]
  cases read? c.toLower (s.takeWhile (!·.isSingleton)) with
  | none => rfl
  | some e => cases readAll? (s.dropWhile (!·.isSingleton)) <;> rfl

theorem readAll?_other (hnil : s ≠ []) (hcons : ∀ c t, s ≠ [c] :: t) : readAll? s = none :=
  readAll?.eq_3 s hnil hcons

/-- Induction along `readAll?`. -/
@[elab_as_elim]
theorem readAll?_induction {motive : List Subtag → Prop} (nil : motive [])
    (privateUse : ∀ c s, c.toLower = 'x' → motive ([c] :: s))
    (cons : ∀ c s, c.toLower ≠ 'x' → motive (s.dropWhile (!·.isSingleton)) → motive ([c] :: s))
    (other : ∀ s, s ≠ [] → (∀ c t, s ≠ [c] :: t) → motive s) (s : List Subtag) : motive s := by
  induction s using readAll?.induct with
  | case1 => exact nil
  | case2 c s _ _ hx => exact privateUse c s hx
  | case3 c s _ _ hx _ _ _ _ ih => exact cons c s hx ih
  | case4 c s _ _ hx _ ih => exact cons c s hx ih
  | case5 s hnil hcons => exact other s hnil hcons

theorem readAll?_lower (s : List Subtag) : readAll? (s.map Subtag.lower) = readAll? s := by
  induction s using readAll?_induction with
  | nil => rfl
  | privateUse c s hx =>
    have hc : c.toLower.toLower = 'x' := by rwa [Char.toLower_toLower_eq_toLower]
    show readAll? ([c.toLower] :: s.map Subtag.lower) = _
    rw [readAll?, readAll?, if_pos hx, if_pos hc, Char.toLower_toLower_eq_toLower, read?_lower]
  | cons c s hx ih =>
    have hc : c.toLower.toLower ≠ 'x' := by rwa [Char.toLower_toLower_eq_toLower]
    show readAll? ([c.toLower] :: s.map Subtag.lower) = _
    rw [readAll?_cons hx, readAll?_cons hc, Char.toLower_toLower_eq_toLower,
      Subtag.takeWhile_lower Subtag.caseless_isSingleton.not,
      Subtag.dropWhile_lower Subtag.caseless_isSingleton.not, read?_lower, ih]
  | other s hnil hcons =>
    rw [readAll?_other hnil hcons, readAll?_other]
    · exact fun h => hnil (List.map_eq_nil_iff.1 h)
    · intro c t h
      obtain ⟨x, s, rfl, hx, -⟩ := List.map_eq_cons_iff.1 h
      obtain ⟨c, rfl, -⟩ := List.map_eq_singleton_iff.1 hx
      exact hcons c s rfl

end Extension

/-! ## Locales -/

namespace Locale

/-- The case of letters does not matter. -/
theorem ofSubtags?_lower (s : List Subtag) : ofSubtags? (s.map Subtag.lower) = ofSubtags? s := by
  rw [ofSubtags?, ofSubtags?, LanguageTag.read?_lower]
  cases LanguageTag.read? s with
  | none => rfl
  | some r => simp only [Option.map_some, Extension.readAll?_lower]

theorem pieces_toLower (s : List Char) :
    Text.pieces '-' (s.map Char.toLower) = (Text.pieces '-' s).map Subtag.lower := by
  induction s with
  | nil => rfl
  | cons c s ih =>
    rw [List.map_cons, Text.pieces, Text.pieces, ih]
    by_cases hc : c = '-'
    · rw [if_pos hc, if_pos ((Subtag.toLower_eq_hyphen_iff c).2 hc)]
      rfl
    · rw [if_neg hc, if_neg (mt (Subtag.toLower_eq_hyphen_iff c).1 hc)]
      cases Text.pieces '-' s <;> rfl

/-- **Texts that are the same in lower case are read as one locale, or none.** -/
theorem parse?_congr {a b : String} (h : a.toList.map Char.toLower = b.toList.map Char.toLower) :
    parse? a = parse? b := by
  rw [parse?, parse?, ← ofSubtags?_lower, ← pieces_toLower, h, pieces_toLower, ofSubtags?_lower]

end Locale

end SignGloss
