/-
  The canonical form of language tags and of keywords.

  * `Subtag.Plain low s`: the subtag is `low` or more letters and digits, as all kinds of
    subtags are for some `low`;
  * `LanguageTag.Canonical`: every subtag is of its kind and in the case of its kind, and
    the variants are different and in order;
  * `Keyword.Canonical isKey`: the same of keys and values, where no key stands twice and
    no value has `true` in it.

  What is read is canonical, since reading gives subtags their case, sorts them and drops
  what is repeated (`LanguageTag.canonical_of_read?`, `Keyword.canonical_canonical`).

  Main statements: what is canonical is written so that it is read as it is, where
  another kind of subtag follows (`LanguageTag.Canonical.read?_append`,
  `Keyword.readAll?_keywordSubtags`, `Keyword.Canonical.canonical_eq`).
-/
import SignGloss.Proofs.LocaleCase
import SignGloss.Proofs.Runs

namespace SignGloss

/-! ## Lists -/

section
variable {α : Type} {f : α → α}

theorem map_eq_self {xs : List α} (h : ∀ x ∈ xs, f x = x) : xs.map f = xs :=
  (List.map_congr_left h).trans (List.map_id' xs)

theorem optionMap_eq_self {o : Option α} (h : ∀ x ∈ o, f x = x) : o.map f = o :=
  (Option.map_congr h).trans Option.map_id'

/-- What holds of the members of a list and of the head of another one holds of the head
    of both together. -/
theorem forall_head?_append {P : α → Prop} {xs ys : List α} (hx : ∀ x ∈ xs, P x)
    (hy : ∀ y ∈ ys.head?, P y) : ∀ z ∈ (xs ++ ys).head?, P z := by
  cases xs with
  | nil => exact hy
  | cons x xs =>
    intro z hz
    obtain rfl : x = z := Option.some.inj hz
    exact hx x List.mem_cons_self

end

section
variable {α κ : Type} [DecidableEq κ] {key : α → κ}

theorem distinctAfter_eq_self {seen : List κ} {xs : List α} (hn : (xs.map key).Nodup)
    (hs : ∀ x ∈ xs, key x ∉ seen) : distinctAfter key seen xs = xs := by
  induction xs generalizing seen with
  | nil => rfl
  | cons x xs ih =>
    obtain ⟨hx, hn⟩ := List.nodup_cons.1 hn
    rw [distinctAfter, if_neg (hs x List.mem_cons_self), ih hn]
    intro y hy hmem
    rcases List.mem_cons.1 hmem with heq | hmem
    · exact hx (heq ▸ List.mem_map_of_mem hy)
    · exact hs y (List.mem_cons_of_mem x hy) hmem

/-- Nothing is dropped where the keys are different. -/
theorem distinctBy_eq_self {xs : List α} (hn : (xs.map key).Nodup) : distinctBy key xs = xs :=
  distinctAfter_eq_self hn fun _ _ => List.not_mem_nil

theorem sublist_distinctAfter (key : α → κ) (seen : List κ) (xs : List α) :
    (distinctAfter key seen xs).Sublist xs := by
  induction xs generalizing seen with
  | nil => exact .slnil
  | cons x xs ih =>
    rw [distinctAfter]
    split
    · exact (ih seen).cons x
    · exact (ih _).cons_cons x

theorem mem_of_mem_distinctBy {x : α} {xs : List α} (h : x ∈ distinctBy key xs) : x ∈ xs :=
  (sublist_distinctAfter key [] xs).subset h

end

namespace Subtag

variable {s : Subtag} {ss : List Subtag} {low high : Nat}

/-! ## The order of subtags -/

theorem le_cons_iff {c d : Char} {a b : Subtag} :
    le (c :: a) (d :: b) = true ↔ c.toNat < d.toNat ∨ c = d ∧ le a b = true := by
  rw [le]
  split
  next h => simp [h]
  next h => simp [h]

theorem le_total (a b : Subtag) : (le a b || le b a) = true := by
  induction a generalizing b with
  | nil => rfl
  | cons c a ih =>
    cases b with
    | nil => rfl
    | cons d b =>
      rw [Bool.or_eq_true, le_cons_iff, le_cons_iff]
      rcases Nat.lt_trichotomy c.toNat d.toNat with h | h | h
      · exact Or.inl (Or.inl h)
      · obtain rfl := Char.toNat_inj.1 h
        exact (Bool.or_eq_true_iff.1 (ih b)).imp (fun h => Or.inr ⟨rfl, h⟩)
          fun h => Or.inr ⟨rfl, h⟩
      · exact Or.inr (Or.inl h)

theorem le_trans (a b c : Subtag) (hab : le a b = true) (hbc : le b c = true) :
    le a c = true := by
  induction a generalizing b c with
  | nil => rfl
  | cons x a ih =>
    cases b with
    | nil => cases hab
    | cons y b =>
      cases c with
      | nil => cases hbc
      | cons z c =>
        rw [le_cons_iff] at hab hbc ⊢
        rcases hab with hxy | ⟨rfl, hab⟩
        · rcases hbc with hyz | ⟨rfl, -⟩
          · exact Or.inl (hxy.trans hyz)
          · exact Or.inl hxy
        · exact hbc.imp_right fun h => ⟨h.1, ih b c hab h.2⟩

theorem pairwise_sort (ss : List Subtag) : (sort ss).Pairwise fun a b => le a b = true :=
  List.pairwise_mergeSort le_trans le_total ss

theorem sort_eq_self (h : ss.Pairwise fun a b => le a b = true) : sort ss = ss :=
  List.mergeSort_of_pairwise h

theorem mem_sort : s ∈ sort ss ↔ s ∈ ss := (List.mergeSort_perm ss le).mem_iff

theorem nodup_sort : (sort ss).Nodup ↔ ss.Nodup := (List.mergeSort_perm ss le).nodup_iff

/-! ## Letters and digits -/

/-- What holds of the letters and digits among the first 128 characters holds of all. -/
theorem forall_alphanum {P : Char → Prop}
    (h : ∀ n < 128, (Char.ofNat n).isAlphanum = true → P (Char.ofNat n)) {c : Char}
    (hc : c.isAlphanum = true) : P c := by
  have hlt : c.toNat < 128 := by
    simp [Char.isAlphanum, Char.isAlpha, Char.isUpper, Char.isLower, Char.isDigit,
      UInt32.le_iff_toNat_le] at hc
    omega
  have hP := h c.toNat hlt
  rw [Char.ofNat_toNat] at hP
  exact hP hc

theorem utf8Size_of_isAlphanum {c : Char} (h : c.isAlphanum = true) : c.utf8Size = 1 :=
  forall_alphanum (P := fun c => c.utf8Size = 1) (by decide) h

theorem isBlank_of_isAlphanum {c : Char} (h : c.isAlphanum = true) : Text.isBlank c = false :=
  forall_alphanum (P := fun c => Text.isBlank c = false) (by decide) h

theorem ne_hyphen_of_isAlphanum {c : Char} (h : c.isAlphanum = true) : c ≠ '-' :=
  forall_alphanum (P := (· ≠ '-')) (by decide) h

theorem isAlphanum_of_isAlpha {c : Char} (h : c.isAlpha = true) : c.isAlphanum = true := by
  rw [Char.isAlphanum, h, Bool.true_or]

theorem isAlphanum_of_isDigit {c : Char} (h : c.isDigit = true) : c.isAlphanum = true := by
  rw [Char.isAlphanum, h, Bool.or_true]

theorem isAlpha_of_isDigit {c : Char} (h : c.isDigit = true) : c.isAlpha = false :=
  forall_alphanum (P := fun c => c.isDigit = true → c.isAlpha = false) (by decide)
    (isAlphanum_of_isDigit h) h

/-! ## Case given once -/

theorem upper_upper (s : Subtag) : upper (upper s) = upper s := by
  rw [← upper_lower, lower_upper, upper_lower]

theorem title_title (s : Subtag) : title (title s) = title s := by
  rw [← title_lower, lower_title, title_lower]

/-- What is taken from a list in lower case is of its kind still. -/
theorem of_mem_map_takeWhile {p : Subtag → Bool} (hp : Caseless p)
    (h : s ∈ (ss.takeWhile p).map lower) : p s = true ∧ s.lower = s := by
  obtain ⟨x, hx, rfl⟩ := List.mem_map.1 h
  exact ⟨(hp x).trans (Text.of_mem_takeWhile hx), lower_lower x⟩

/-! ## Kinds of subtags -/

/-- The subtag is so many letters and digits or more. -/
structure Plain (low : Nat) (s : Subtag) : Prop where
  length : low ≤ s.length
  alphanum : ∀ c ∈ s, c.isAlphanum = true

namespace Plain

theorem mono {n : Nat} (h : Plain low s) (hn : n ≤ low) : Plain n s :=
  ⟨hn.trans h.length, h.alphanum⟩

theorem lower (h : Plain low s) : Plain low (lower s) := by
  refine ⟨by simpa [Subtag.lower] using h.length, List.forall_mem_map.2 fun c hc => ?_⟩
  exact (isAlphanum_toLower c).trans (h.alphanum c hc)

theorem of_sizeIn {f : Char → Bool} (hf : ∀ c, f c = true → c.isAlphanum = true)
    (h : (s.sizeIn low high && s.all f) = true) : Plain low s := by
  simp only [sizeIn, Bool.and_eq_true, decide_eq_true_eq, List.all_eq_true] at h
  exact ⟨h.1.1, fun c hc => hf c (h.2 c hc)⟩

theorem size_eq (h : Plain low s) : Text.size s = s.length := by
  obtain ⟨-, hall⟩ := h
  induction s with
  | nil => rfl
  | cons c s ih =>
    obtain ⟨hc, hs⟩ := List.forall_mem_cons.1 hall
    rw [Text.size_cons, utf8Size_of_isAlphanum hc, ih hs, List.length_cons, Nat.add_comm]

theorem isSingleton_eq (h : Plain 2 s) : s.isSingleton = false := by
  rw [isSingleton, h.size_eq, beq_eq_false_iff_ne]
  exact Nat.ne_of_gt h.length

end Plain

theorem isSingleton_singleton {c : Char} (h : c.isAlphanum = true) : isSingleton [c] = true := by
  rw [isSingleton, (Plain.mk (Nat.le_refl 1) (List.forall_mem_singleton.2 h)).size_eq]
  rfl

theorem plain_of_isLanguage (h : s.isLanguage = true) : Plain 2 s :=
  .of_sizeIn (fun _ => isAlphanum_of_isAlpha) h

theorem plain_of_isScript (h : s.isScript = true) : Plain 4 s :=
  .of_sizeIn (fun _ => isAlphanum_of_isAlpha) h

theorem plain_of_isRegion (h : s.isRegion = true) : Plain 2 s := by
  rcases Bool.or_eq_true_iff.1 h with h | h
  · exact .of_sizeIn (fun _ => isAlphanum_of_isAlpha) h
  · exact (Plain.of_sizeIn (fun _ => isAlphanum_of_isDigit) h).mono (by decide)

theorem plain_of_isValue (h : s.isValue = true) : Plain 3 s := .of_sizeIn (fun _ => id) h

theorem plain_of_isPrivatePart (h : s.isPrivatePart = true) : Plain 1 s :=
  .of_sizeIn (fun _ => id) h

theorem plain_of_isVariant (h : s.isVariant = true) : Plain 4 s := by
  simp only [isVariant, sizeIn, Bool.and_eq_true, Bool.or_eq_true, decide_eq_true_eq,
    List.all_eq_true] at h
  exact ⟨by omega, h.1⟩

theorem isUnicodeKey_iff :
    s.isUnicodeKey = true ↔ ∃ a b, s = [a, b] ∧ a.isAlphanum = true ∧ b.isAlpha = true := by
  rcases s with _ | ⟨a, _ | ⟨b, _ | ⟨c, s⟩⟩⟩ <;> simp [isUnicodeKey]

theorem isTransformKey_iff :
    s.isTransformKey = true ↔ ∃ a b, s = [a, b] ∧ a.isAlpha = true ∧ b.isDigit = true := by
  rcases s with _ | ⟨a, _ | ⟨b, _ | ⟨c, s⟩⟩⟩ <;> simp [isTransformKey]

theorem plain_of_isUnicodeKey (h : s.isUnicodeKey = true) : Plain 2 s := by
  obtain ⟨a, b, rfl, ha, hb⟩ := isUnicodeKey_iff.1 h
  exact ⟨Nat.le_refl 2, by simp [ha, isAlphanum_of_isAlpha hb]⟩

theorem plain_of_isTransformKey (h : s.isTransformKey = true) : Plain 2 s := by
  obtain ⟨a, b, rfl, ha, hb⟩ := isTransformKey_iff.1 h
  exact ⟨Nat.le_refl 2, by simp [isAlphanum_of_isAlpha ha, isAlphanum_of_isDigit hb]⟩

/-! ## No subtag is of two kinds in one place -/

theorem isScript_of_isRegion (h : s.isRegion = true) : s.isScript = false := by
  rw [isScript, Bool.and_eq_false_iff]
  left
  simp only [isRegion, sizeIn, Bool.and_eq_true, Bool.or_eq_true, decide_eq_true_eq,
    Bool.and_eq_false_iff, decide_eq_false_iff_not] at h ⊢
  omega

theorem isRegion_of_isVariant (h : s.isVariant = true) : s.isRegion = false := by
  have hlength := (plain_of_isVariant h).length
  simp only [isRegion, sizeIn, Bool.or_eq_false_iff, Bool.and_eq_false_iff,
    decide_eq_false_iff_not]
  omega

theorem isScript_of_isVariant (h : s.isVariant = true) : s.isScript = false := by
  cases s with
  | nil => rfl
  | cons c s =>
    rw [← Bool.not_eq_true]
    intro hscript
    simp only [isVariant, isScript, sizeIn, List.head?_cons, Option.any_some, List.all_cons,
      Bool.and_eq_true, Bool.or_eq_true, decide_eq_true_eq] at h hscript
    rcases h.2 with hlong | ⟨-, hdigit⟩
    · omega
    · exact Bool.eq_false_iff.1 (isAlpha_of_isDigit hdigit) hscript.2.1

/-- The subtag cannot belong to a language tag behind the language. -/
structure Foreign (s : Subtag) : Prop where
  script : s.isScript = false
  region : s.isRegion = false
  variant : s.isVariant = false

theorem foreign_singleton (c : Char) : Foreign [c] :=
  ⟨rfl, rfl, by simp [isVariant, sizeIn]⟩

theorem foreign_of_isTransformKey (h : s.isTransformKey = true) : Foreign s := by
  obtain ⟨a, b, rfl, -, hb⟩ := isTransformKey_iff.1 h
  exact ⟨rfl, by simp [isRegion, sizeIn, isAlpha_of_isDigit hb], by simp [isVariant, sizeIn]⟩

theorem isLanguage_of_isTransformKey (h : s.isTransformKey = true) : s.isLanguage = false := by
  obtain ⟨a, b, rfl, -, hb⟩ := isTransformKey_iff.1 h
  simp [isLanguage, isAlpha_of_isDigit hb]

theorem isValue_of_isUnicodeKey (h : s.isUnicodeKey = true) : s.isValue = false := by
  obtain ⟨a, b, rfl, -⟩ := isUnicodeKey_iff.1 h
  rfl

theorem isValue_of_isTransformKey (h : s.isTransformKey = true) : s.isValue = false := by
  obtain ⟨a, b, rfl, -⟩ := isTransformKey_iff.1 h
  rfl

end Subtag

/-! ## Language tags -/

namespace LanguageTag

variable {p : Subtag → Bool} {s rest : List Subtag} {t : LanguageTag}

/-- Subtags are of their kinds and in the case of their kinds, and variants are different
    and in order. -/
structure Canonical (t : LanguageTag) : Prop where
  language : t.language.isLanguage = true ∧ t.language.lower = t.language
  script : ∀ s ∈ t.script, s.isScript = true ∧ s.title = s
  region : ∀ r ∈ t.region, r.isRegion = true ∧ r.upper = r
  variants : ∀ v ∈ t.variants, v.isVariant = true ∧ v.lower = v
  nodup : t.variants.Nodup
  sorted : t.variants.Pairwise fun a b => a.le b = true

theorem of_mem_takeIf {x : Subtag} (h : x ∈ (takeIf p s).1) : p x = true := by
  cases s with
  | nil => cases h
  | cons y s =>
    rw [takeIf] at h
    split at h
    · obtain rfl : y = x := Option.some.inj h
      assumption
    · cases h

theorem takeIf_append {o : Option Subtag} (ho : ∀ x ∈ o, p x = true)
    (hr : ∀ x ∈ rest.head?, p x = false) : takeIf p (o.toList ++ rest) = (o, rest) := by
  cases o with
  | some x =>
    show takeIf p (x :: rest) = _
    rw [takeIf, if_pos (ho x rfl)]
  | none =>
    cases rest with
    | nil => rfl
    | cons x rest =>
      show takeIf p (x :: rest) = _
      rw [takeIf, if_neg (by simp [hr x rfl])]

/-- What is taken and given its case is of its kind still. -/
theorem of_mem_map_takeIf {f : Subtag → Subtag} (hp : ∀ x, p (f x) = p x)
    (hf : ∀ x, f (f x) = f x) {y : Subtag} (h : y ∈ (takeIf p s).1.map f) :
    p y = true ∧ f y = y := by
  obtain ⟨x, hx, rfl⟩ := Option.map_eq_some_iff.1 h
  exact ⟨(hp x).trans (of_mem_takeIf hx), hf x⟩

/-- What is read is canonical. -/
theorem canonical_of_read? (h : read? s = some (t, rest)) : t.Canonical := by
  cases s with
  | nil => cases h
  | cons l s =>
    simp only [read?] at h
    split at h
    next hl =>
      split at h
      next hnodup =>
        obtain ⟨rfl, -⟩ := Prod.mk.inj (Option.some.inj h)
        exact {
          language := ⟨(Subtag.caseless_isLanguage l).trans hl, Subtag.lower_lower l⟩
          script := fun _ => of_mem_map_takeIf Subtag.caseless_isScript.title Subtag.title_title
          region := fun _ => of_mem_map_takeIf Subtag.caseless_isRegion.upper Subtag.upper_upper
          variants := fun _ hv =>
            Subtag.of_mem_map_takeWhile Subtag.caseless_isVariant (Subtag.mem_sort.1 hv)
          nodup := Subtag.nodup_sort.2 hnodup
          sorted := Subtag.pairwise_sort _ }
      next => cases h
    next => cases h

namespace Canonical

variable (h : t.Canonical)
include h

/-- A canonical tag is read as it is, up to what cannot belong to it. -/
theorem read?_append (hr : ∀ s ∈ rest.head?, Subtag.Foreign s) :
    read? (t.subtags ++ rest) = some (t, rest) := by
  have hvariant := fun v hv => (h.variants v hv).1
  have hregion := fun r hr => (h.region r hr).1
  have hscript := fun s hs => (h.script s hs).1
  -- what follows each part is of the other kinds
  have hscripts : takeIf Subtag.isScript
      (t.script.toList ++ (t.region.toList ++ (t.variants ++ rest))) =
        (t.script, t.region.toList ++ (t.variants ++ rest)) := by
    refine takeIf_append hscript (forall_head?_append (fun r hr => ?_)
      (forall_head?_append (fun v hv => Subtag.isScript_of_isVariant (hvariant v hv))
        fun s hs => (hr s hs).script))
    exact Subtag.isScript_of_isRegion (hregion r (Option.mem_toList.1 hr))
  have hregions : takeIf Subtag.isRegion (t.region.toList ++ (t.variants ++ rest)) =
      (t.region, t.variants ++ rest) :=
    takeIf_append hregion (forall_head?_append
      (fun v hv => Subtag.isRegion_of_isVariant (hvariant v hv)) fun s hs => (hr s hs).region)
  obtain ⟨htake, hdrop⟩ := Text.run_eq hvariant fun s hs => (hr s hs).variant
  have hcase : t.variants.map Subtag.lower = t.variants :=
    map_eq_self fun v hv => (h.variants v hv).2
  have hscase : t.script.map Subtag.title = t.script :=
    optionMap_eq_self fun s hs => (h.script s hs).2
  have hrcase : t.region.map Subtag.upper = t.region :=
    optionMap_eq_self fun s hs => (h.region s hs).2
  rw [subtags, List.append_assoc, List.append_assoc, List.append_assoc, List.singleton_append,
    read?, if_pos h.language.1]
  simp only [hscripts, hregions, htake, hdrop, hcase, hscase, hrcase, h.language.2,
    if_pos h.nodup, Subtag.sort_eq_self h.sorted]

theorem plain_subtags : ∀ s ∈ t.subtags, Subtag.Plain 2 s := by
  intro s hs
  simp only [subtags, List.mem_append, List.mem_singleton, Option.mem_toList] at hs
  rcases hs with ((rfl | hs) | hs) | hs
  · exact Subtag.plain_of_isLanguage h.language.1
  · exact (Subtag.plain_of_isScript (h.script s hs).1).mono (by decide)
  · exact Subtag.plain_of_isRegion (h.region s hs).1
  · exact (Subtag.plain_of_isVariant (h.variants s hs).1).mono (by decide)

end Canonical

end LanguageTag

/-! ## Keywords -/

namespace Keyword

variable {isKey : Subtag → Bool} {s : List Subtag} {ks : List Keyword} {k : Keyword}

/-- Key and value are of their kinds and in lower case. -/
structure Proper (isKey : Subtag → Bool) (k : Keyword) : Prop where
  key : isKey k.key = true ∧ k.key.lower = k.key
  value : ∀ v ∈ k.value, v.isValue = true ∧ v.lower = v

/-- Keywords are proper, without `true`, and their keys are different and in order. -/
structure Canonical (isKey : Subtag → Bool) (ks : List Keyword) : Prop where
  proper : ∀ k ∈ ks, k.Proper isKey
  significant : ∀ k ∈ ks, Subtag.trueValue ∉ k.value
  nodup : (ks.map key).Nodup
  sorted : ks.Pairwise fun a b => a.le b = true

/-- What is read is proper. -/
theorem proper_of_readAll? (hcase : Subtag.Caseless isKey) (h : readAll? isKey s = some ks) :
    ∀ k ∈ ks, k.Proper isKey := by
  fun_induction readAll? isKey s generalizing ks with
  | case1 =>
    obtain rfl := Option.some.inj h
    exact fun _ hk => absurd hk List.not_mem_nil
  | case2 k s _ hk ih =>
    obtain ⟨rest, hrest, rfl⟩ := Option.map_eq_some_iff.1 h
    exact List.forall_mem_cons.2 ⟨⟨⟨(hcase k).trans hk, Subtag.lower_lower k⟩,
      fun _ => Subtag.of_mem_map_takeWhile Subtag.caseless_isValue⟩, ih hrest⟩
  | case3 => cases h

theorem ne_nil_of_readAll? (h : readAll? isKey s = some ks) (hs : s ≠ []) : ks ≠ [] := by
  cases s with
  | nil => exact absurd rfl hs
  | cons k s =>
    rw [readAll?] at h
    split at h
    · obtain ⟨rest, -, rfl⟩ := Option.map_eq_some_iff.1 h
      exact List.cons_ne_nil _ _
    · cases h

theorem canonical_ne_nil (h : ks ≠ []) : canonical ks ≠ [] := by
  obtain ⟨k, hk⟩ := List.exists_mem_of_ne_nil ks h
  have hkey : k.key ∈ (distinctBy key (ks.map dropTrue)).map key :=
    (mem_map_distinctBy key _ _).2 (List.mem_map.2 ⟨k.dropTrue, List.mem_map_of_mem hk, rfl⟩)
  obtain ⟨k', hk', -⟩ := List.mem_map.1 hkey
  exact List.ne_nil_of_mem ((List.mergeSort_perm _ _).mem_iff.2 hk')

/-- The canonical form is canonical. -/
theorem canonical_canonical (h : ∀ k ∈ ks, k.Proper isKey) : Canonical isKey (canonical ks) := by
  have hperm : (canonical ks).Perm (distinctBy key (ks.map dropTrue)) := List.mergeSort_perm _ _
  have horigin : ∀ k ∈ canonical ks, ∃ k' ∈ ks, dropTrue k' = k := fun k hk =>
    List.mem_map.1 (mem_of_mem_distinctBy (hperm.mem_iff.1 hk))
  refine ⟨fun k hk => ?_, fun k hk => ?_, ?_, ?_⟩
  · obtain ⟨k', hk', rfl⟩ := horigin k hk
    exact ⟨(h k' hk').key, fun v hv => (h k' hk').value v (List.mem_of_mem_filter hv)⟩
  · obtain ⟨k', -, rfl⟩ := horigin k hk
    simp [dropTrue]
  · exact (hperm.map key).nodup_iff.2 (nodup_distinctBy key _)
  · exact List.pairwise_mergeSort (fun a b c => Subtag.le_trans a.key b.key c.key)
      (fun a b => Subtag.le_total a.key b.key) _

/-- Keywords that are canonical but for the parts `true` become canonical. -/
theorem Canonical.canonical_eq (h : Canonical isKey ks) {ks' : List Keyword}
    (hdrop : ks'.map dropTrue = ks) : canonical ks' = ks := by
  rw [canonical, hdrop, distinctBy_eq_self h.nodup]
  exact List.mergeSort_of_pairwise h.sorted

theorem isKey_of_mem_head? (h : ∀ k ∈ ks, k.Proper isKey) :
    ∀ s ∈ (ks.flatMap Extension.keywordSubtags).head?, isKey s = true := by
  cases ks with
  | nil => exact fun _ hs => absurd hs (Option.not_mem_none _)
  | cons k ks =>
    intro s hs
    obtain rfl : k.key = s := Option.some.inj hs
    exact (h k List.mem_cons_self).key.1

/-- Proper keywords are read as they are. -/
theorem readAll?_keywordSubtags (hkey : ∀ s, isKey s = true → s.isValue = false)
    (h : ∀ k ∈ ks, k.Proper isKey) :
    readAll? isKey (ks.flatMap Extension.keywordSubtags) = some ks := by
  induction ks with
  | nil => rw [List.flatMap_nil, readAll?]
  | cons k ks ih =>
    obtain ⟨hk, hks⟩ := List.forall_mem_cons.1 h
    have hnext : ∀ s ∈ (ks.flatMap Extension.keywordSubtags).head?, s.isValue = false :=
      fun s hs => hkey s (isKey_of_mem_head? hks s hs)
    obtain ⟨htake, hdrop⟩ := Text.run_eq (fun v hv => (hk.value v hv).1) hnext
    have hcase : k.value.map Subtag.lower = k.value :=
      map_eq_self fun v hv => (hk.value v hv).2
    rw [List.flatMap_cons, Extension.keywordSubtags, List.cons_append, readAll?, if_pos hk.key.1,
      htake, hdrop, hcase, hk.key.2, ih hks]
    rfl

theorem Proper.plain (hkey : ∀ s, isKey s = true → Subtag.Plain 2 s) (h : k.Proper isKey) :
    ∀ s ∈ Extension.keywordSubtags k, Subtag.Plain 2 s :=
  List.forall_mem_cons.2 ⟨hkey _ h.key.1, fun v hv =>
    (Subtag.plain_of_isValue (h.value v hv).1).mono (by decide)⟩

/-! ## Fields

A field is written with `true` where it has no value. -/

/-- The keyword with `true` for a value that is missing. -/
def fillTrue (k : Keyword) : Keyword :=
  ⟨k.key, if k.value.isEmpty then [Subtag.trueValue] else k.value⟩

theorem value_fillTrue_ne_nil (k : Keyword) : k.fillTrue.value ≠ [] := by
  rw [fillTrue]
  split
  · exact List.cons_ne_nil _ _
  next h => exact fun hnil => h (by rw [hnil]; rfl)

theorem dropTrue_eq_self (h : Subtag.trueValue ∉ k.value) : k.dropTrue = k := by
  have hall : ∀ v ∈ k.value, decide (v ≠ Subtag.trueValue) = true := fun v hv =>
    decide_eq_true fun heq => h (heq ▸ hv)
  rw [dropTrue, List.filter_eq_self.2 hall]

theorem dropTrue_fillTrue (h : Subtag.trueValue ∉ k.value) : k.fillTrue.dropTrue = k := by
  obtain ⟨key, value⟩ := k
  cases value with
  | nil => simp [fillTrue, dropTrue]
  | cons v value => exact dropTrue_eq_self h

theorem Proper.fillTrue (h : k.Proper isKey) : k.fillTrue.Proper isKey := by
  refine ⟨h.key, ?_⟩
  show ∀ v ∈ if k.value.isEmpty then [Subtag.trueValue] else k.value, _
  split
  · simp only [List.mem_singleton, forall_eq]
    decide
  · exact h.value

theorem flatMap_fieldSubtags (ks : List Keyword) : ks.flatMap Extension.fieldSubtags =
    (ks.map Keyword.fillTrue).flatMap Extension.keywordSubtags := by
  rw [List.flatMap_map]
  rfl

end Keyword

end SignGloss
