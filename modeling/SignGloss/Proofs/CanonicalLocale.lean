/-
  The canonical text of a locale is read as the locale.

  * `Extension.Canonical` and `Locale.Canonical`: all subtags are of their kinds and in
    lower case, nothing is listed twice, lists are in order, and private use comes last.

  Whatever is read is canonical (`Extension.canonical_of_readAll?`,
  `Locale.canonical_of_ofSubtags?`).  What is canonical is written so that each part ends
  where the next one begins, and reading it changes nothing
  (`Extension.Canonical.read?_parts`, `Locale.Canonical.ofSubtags?_subtags`).

  Main statements: the text of a locale that was read is read as the same locale
  (`Locale.parse?_text`), so that the canonical form of a canonical form is itself
  (`Locale.canonical_canonical`).
-/
import Mathlib.Tactic.Tauto
import SignGloss.Proofs.CanonicalTag
import SignGloss.Proofs.Places
import SignGloss.Proofs.Words

namespace SignGloss

/-! ## Extensions -/

namespace Extension

variable {s : List Subtag} {c : Char} {e : Extension} {es : List Extension}

/-- All subtags are of their kinds and in lower case, lists are in order and without
    repetitions, and no extension is empty. -/
inductive Canonical : Extension → Prop
  | unicode {attributes keywords}
      (kind : ∀ a ∈ attributes, a.isValue = true ∧ a.lower = a) (nodup : attributes.Nodup)
      (sorted : attributes.Pairwise fun a b => a.le b = true)
      (canonical : Keyword.Canonical Subtag.isUnicodeKey keywords)
      (nonempty : attributes ≠ [] ∨ keywords ≠ []) : Canonical (unicode attributes keywords)
  | transform {source fields} (source_canonical : ∀ t ∈ source, t.Canonical)
      (canonical : Keyword.Canonical Subtag.isTransformKey fields)
      (nonempty : source = none → fields ≠ []) : Canonical (transform source fields)
  | other {c parts} (kind : c.isAlphanum = true ∧ c.toLower = c)
      (ne_kinds : c ≠ 'u' ∧ c ≠ 't' ∧ c ≠ 'x')
      (parts_kind : ∀ p ∈ parts, Subtag.Plain 2 p ∧ p.isOtherSized = true ∧ p.lower = p)
      (nonempty : parts ≠ []) : Canonical (other c parts)
  | privateUse {parts} (kind : ∀ p ∈ parts, p.isPrivatePart = true ∧ p.lower = p)
      (nonempty : parts ≠ []) : Canonical (privateUse parts)

/-! ### What is read is canonical -/

theorem canonical_of_readUnicode? (h : readUnicode? s = some e) :
    e.Canonical ∧ e.singleton = 'u' := by
  simp only [readUnicode?] at h
  split at h
  next keywords hkeywords =>
    split at h
    next => cases h
    next hs =>
      obtain rfl := Option.some.inj h
      have hmem : ∀ a, a ∈ Subtag.sort (distinct ((s.takeWhile Subtag.isValue).map Subtag.lower)) ↔
          a ∈ (s.takeWhile Subtag.isValue).map Subtag.lower := fun a => by
        rw [Subtag.mem_sort, mem_distinct]
      refine ⟨.unicode
        (fun a ha => Subtag.of_mem_map_takeWhile Subtag.caseless_isValue ((hmem a).1 ha))
        (Subtag.nodup_sort.2 (nodup_distinct _)) (Subtag.pairwise_sort _)
        (Keyword.canonical_canonical
          (Keyword.proper_of_readAll? Subtag.caseless_isUnicodeKey hkeywords)) ?_, rfl⟩
      -- what is not among the attributes is left for the keywords
      cases htake : s.takeWhile Subtag.isValue with
      | cons a as =>
        rw [htake] at hmem
        exact Or.inl (List.ne_nil_of_mem ((hmem a.lower).2 List.mem_cons_self))
      | nil =>
        refine Or.inr (Keyword.canonical_ne_nil (Keyword.ne_nil_of_readAll? hkeywords ?_))
        intro hdrop
        have heq := List.takeWhile_append_dropWhile (p := Subtag.isValue) (l := s)
        rw [htake, hdrop] at heq
        exact hs (by rw [← heq]; rfl)
  next => cases h

theorem canonical_of_readFields? {fields : List Keyword} (h : readFields? s = some fields) :
    Keyword.Canonical Subtag.isTransformKey fields ∧ (s ≠ [] → fields ≠ []) := by
  rw [readFields?] at h
  split at h
  next read hread =>
    split at h
    next => cases h
    next =>
      obtain rfl := Option.some.inj h
      exact ⟨Keyword.canonical_canonical
          (Keyword.proper_of_readAll? Subtag.caseless_isTransformKey hread),
        fun hs => Keyword.canonical_ne_nil (Keyword.ne_nil_of_readAll? hread hs)⟩
  next => cases h

theorem canonical_of_readTransform? (h : readTransform? s = some e) :
    e.Canonical ∧ e.singleton = 't' := by
  rw [readTransform?] at h
  split at h
  next => cases h
  next hs =>
    split at h
    next =>
      split at h
      next t rest ht =>
        obtain ⟨fields, hfields, rfl⟩ := Option.map_eq_some_iff.1 h
        refine ⟨.transform (fun t' ht' => ?_) (canonical_of_readFields? hfields).1
          (fun hnone => ?_), rfl⟩
        · obtain rfl : t = t' := Option.some.inj ht'
          exact LanguageTag.canonical_of_read? ht
        · cases hnone
      next => cases h
    next =>
      obtain ⟨fields, hfields, rfl⟩ := Option.map_eq_some_iff.1 h
      obtain ⟨hcanonical, hne⟩ := canonical_of_readFields? hfields
      exact ⟨.transform (fun t ht => by cases ht) hcanonical
        fun _ => hne fun hnil => hs (by rw [hnil]; rfl), rfl⟩

theorem canonical_of_readPrivateUse? (h : readPrivateUse? s = some e) :
    e.Canonical ∧ e.singleton = 'x' := by
  rw [readPrivateUse?] at h
  split at h
  next => cases h
  next hs =>
    obtain rfl := Option.some.inj h
    simp only [Bool.or_eq_true, Bool.not_eq_true', not_or, Bool.not_eq_true, Bool.not_eq_false,
      List.isEmpty_eq_false_iff, List.all_eq_true] at hs
    refine ⟨.privateUse (fun p hp => ?_) (mt List.map_eq_nil_iff.1 hs.1), rfl⟩
    obtain ⟨x, hx, rfl⟩ := List.mem_map.1 hp
    exact ⟨(Subtag.caseless_isPrivatePart x).trans (hs.2 x hx), Subtag.lower_lower x⟩

theorem plain_of_isOtherSized {p : Subtag} (hall : p.all Char.isAlphanum = true)
    (h : p.isOtherSized = true) : Subtag.Plain 2 p := by
  have hplain : Subtag.Plain 0 p := ⟨Nat.zero_le _, List.all_eq_true.1 hall⟩
  rw [Subtag.isOtherSized, hplain.size_eq, Bool.and_eq_true, decide_eq_true_eq] at h
  exact ⟨h.1, hplain.alphanum⟩

theorem canonical_of_readOther? (hc : c.isAlphanum = true ∧ c.toLower = c)
    (hne : c ≠ 'u' ∧ c ≠ 't' ∧ c ≠ 'x') (h : readOther? c s = some e) :
    e.Canonical ∧ e.singleton = c := by
  simp only [readOther?] at h
  split at h
  next => cases h
  next hs =>
    obtain rfl := Option.some.inj h
    simp only [Bool.or_eq_true, Bool.not_eq_true', not_or, Bool.not_eq_true, Bool.not_eq_false,
      List.isEmpty_eq_false_iff, List.all_eq_true] at hs
    refine ⟨.other hc hne (fun p hp => ?_) hs.1, rfl⟩
    obtain ⟨x, hx, rfl⟩ := List.mem_map.1 hp
    obtain ⟨hx, hall⟩ := List.mem_filter.1 hx
    have hsized := (Subtag.caseless_isOtherSized x).trans (hs.2 x hx)
    exact ⟨plain_of_isOtherSized ((Subtag.all_lower Subtag.isAlphanum_toLower x).trans hall) hsized,
      hsized, Subtag.lower_lower x⟩

theorem canonical_of_read? (hc : c.toLower = c) (h : read? c s = some e) :
    e.Canonical ∧ e.singleton = c := by
  rw [read?] at h
  split at h
  next hu => exact hu ▸ canonical_of_readUnicode? h
  next hu =>
    split at h
    next ht => exact ht ▸ canonical_of_readTransform? h
    next ht =>
      split at h
      next hx => exact hx ▸ canonical_of_readPrivateUse? h
      next hx =>
        split at h
        next halnum => exact canonical_of_readOther? ⟨halnum, hc⟩ ⟨hu, ht, hx⟩ h
        next => cases h

/-- All extensions that are read are canonical. -/
theorem canonical_of_readAll? (h : readAll? s = some es) : ∀ e ∈ es, e.Canonical := by
  induction s using readAll?_induction generalizing es with
  | nil =>
    rw [readAll?] at h
    obtain rfl := Option.some.inj h
    exact fun _ he => absurd he List.not_mem_nil
  | privateUse c s hx =>
    rw [readAll?, if_pos hx] at h
    obtain ⟨e, he, rfl⟩ := Option.map_eq_some_iff.1 h
    exact List.forall_mem_singleton.2 (canonical_of_read? (Char.toLower_toLower_eq_toLower c) he).1
  | cons c s hx ih =>
    rw [readAll?_cons hx] at h
    obtain ⟨e, he, h⟩ := Option.bind_eq_some_iff.1 h
    obtain ⟨es, hes, rfl⟩ := Option.map_eq_some_iff.1 h
    have he' := (canonical_of_read? (Char.toLower_toLower_eq_toLower c) he).1
    exact List.forall_mem_cons.2 ⟨he', ih hes⟩
  | other s hnil hcons =>
    rw [readAll?_other hnil hcons] at h
    cases h

/-! ### What is canonical is read as it is -/

theorem Canonical.parts_ne_nil (h : e.Canonical) : e.parts ≠ [] := by
  have hflat : ∀ {ks : List Keyword} {f : Keyword → List Subtag}, (∀ k, f k ≠ []) → ks ≠ [] →
      ks.flatMap f ≠ [] := fun {ks f} hf hks hnil => by
    obtain ⟨k, hk⟩ := List.exists_mem_of_ne_nil ks hks
    exact hf k (List.flatMap_eq_nil_iff.1 hnil k hk)
  cases h with
  | unicode _ _ _ _ nonempty =>
    rcases nonempty with h | h
    · exact List.append_ne_nil_of_left_ne_nil h _
    · exact List.append_ne_nil_of_right_ne_nil _ (hflat (fun _ => List.cons_ne_nil _ _) h)
  | @transform source _ _ _ nonempty =>
    cases source with
    | none => exact hflat (fun _ => List.cons_ne_nil _ _) (nonempty rfl)
    | some t => exact List.cons_ne_nil _ _
  | other _ _ _ nonempty => exact nonempty
  | privateUse _ nonempty => exact nonempty

theorem readUnicode?_parts {attributes : List Subtag} {keywords : List Keyword}
    (h : (unicode attributes keywords).Canonical) :
    readUnicode? (unicode attributes keywords).parts = some (unicode attributes keywords) := by
  have hne := List.isEmpty_eq_false_iff.2 h.parts_ne_nil
  cases h with | unicode kind nodup sorted canonical nonempty => ?_
  obtain ⟨htake, hdrop⟩ := Text.run_eq (fun a ha => (kind a ha).1) fun s hs =>
    Subtag.isValue_of_isUnicodeKey (Keyword.isKey_of_mem_head? canonical.proper s hs)
  have hcase := map_eq_self fun a ha => (kind a ha).2
  have hdistinct : distinct attributes = attributes :=
    distinctBy_eq_self (by rwa [List.map_id])
  have hcanonical : Keyword.canonical keywords = keywords := canonical.canonical_eq
    (map_eq_self fun k hk => Keyword.dropTrue_eq_self (canonical.significant k hk))
  rw [parts] at hne ⊢
  simp only [readUnicode?, htake, hdrop, hcase, hdistinct, hcanonical, hne,
    Keyword.readAll?_keywordSubtags (fun _ => Subtag.isValue_of_isUnicodeKey) canonical.proper,
    Subtag.sort_eq_self sorted, Bool.false_eq_true, if_false]

theorem readFields?_fieldSubtags {fields : List Keyword}
    (h : Keyword.Canonical Subtag.isTransformKey fields) :
    readFields? (fields.flatMap fieldSubtags) = some fields := by
  have hproper : ∀ k ∈ fields.map Keyword.fillTrue, k.Proper Subtag.isTransformKey :=
    List.forall_mem_map.2 fun k hk => (h.proper k hk).fillTrue
  have hfull : (fields.map Keyword.fillTrue).any (·.value.isEmpty) = false := by
    rw [List.any_eq_false]
    refine List.forall_mem_map.2 fun k _ => ?_
    rw [List.isEmpty_iff]
    exact k.value_fillTrue_ne_nil
  have hdrop : (fields.map Keyword.fillTrue).map Keyword.dropTrue = fields := by
    rw [List.map_map]
    exact map_eq_self fun k hk => Keyword.dropTrue_fillTrue (h.significant k hk)
  rw [readFields?, Keyword.flatMap_fieldSubtags,
    Keyword.readAll?_keywordSubtags (fun _ => Subtag.isValue_of_isTransformKey) hproper]
  simp only [hfull, h.canonical_eq hdrop, Bool.false_eq_true, if_false]

section
variable {fields : List Keyword} (h : Keyword.Canonical Subtag.isTransformKey fields)
include h

theorem isTransformKey_of_mem_head? :
    ∀ s ∈ (fields.flatMap fieldSubtags).head?, s.isTransformKey = true := by
  rw [Keyword.flatMap_fieldSubtags]
  exact Keyword.isKey_of_mem_head?
    (List.forall_mem_map.2 fun k hk => (h.proper k hk).fillTrue)

theorem lower_fieldSubtags :
    (fields.flatMap fieldSubtags).map Subtag.lower = fields.flatMap fieldSubtags := by
  refine map_eq_self fun s hs => ?_
  obtain ⟨k, hk, hs⟩ := List.mem_flatMap.1 hs
  have hfull := (h.proper k hk).fillTrue
  rcases List.mem_cons.1 hs with rfl | hs
  · exact hfull.key.2
  · exact (hfull.value s hs).2

end

theorem readTransform?_eq_tag {l : Subtag} (hs : s.head? = some l) (hl : l.isLanguage = true) :
    readTransform? s = (LanguageTag.read? s).bind fun r =>
      (readFields? r.2).map (transform (some r.1)) := by
  obtain ⟨s, rfl⟩ := List.head?_eq_some_iff.1 hs
  show (if l.isLanguage then _ else _) = _
  rw [if_pos hl]
  cases LanguageTag.read? (l :: s) <;> rfl

theorem readTransform?_eq_fields (hs : s ≠ []) (h : ∀ l ∈ s.head?, l.isLanguage = false) :
    readTransform? s = (readFields? s).map (transform none) := by
  cases s with
  | nil => exact absurd rfl hs
  | cons l s =>
    show (if l.isLanguage then _ else _) = _
    rw [if_neg (Bool.eq_false_iff.1 (h l rfl))]

theorem readTransform?_parts {source : Option LanguageTag} {fields : List Keyword}
    (h : (transform source fields).Canonical) :
    readTransform? (transform source fields).parts = some (transform source fields) := by
  have hne := h.parts_ne_nil
  cases h with | transform hsource canonical nonempty => ?_
  have hkey := isTransformKey_of_mem_head? canonical
  cases source with
  | none =>
    have hhead : ∀ l ∈ (fields.flatMap fieldSubtags).head?, l.isLanguage = false := fun l hl =>
      Subtag.isLanguage_of_isTransformKey (hkey l hl)
    show readTransform? (fields.flatMap fieldSubtags) = _
    rw [readTransform?_eq_fields (s := fields.flatMap fieldSubtags) hne hhead,
      readFields?_fieldSubtags canonical]
    rfl
  | some t =>
    have ht := hsource t rfl
    have hread : LanguageTag.read? (t.subtags.map Subtag.lower ++ fields.flatMap fieldSubtags) =
        some (t, fields.flatMap fieldSubtags) := by
      rw [← lower_fieldSubtags canonical, ← List.map_append, LanguageTag.read?_lower,
        ht.read?_append fun s hs => Subtag.foreign_of_isTransformKey (hkey s hs)]
      rfl
    have hlanguage := (Subtag.caseless_isLanguage t.language).trans ht.language.1
    show readTransform? (t.subtags.map Subtag.lower ++ fields.flatMap fieldSubtags) = _
    rw [readTransform?_eq_tag rfl hlanguage, hread]
    simp only [Option.bind_some, readFields?_fieldSubtags canonical, Option.map_some]

theorem Canonical.read?_parts (h : e.Canonical) : read? e.singleton e.parts = some e := by
  have hne := List.isEmpty_eq_false_iff.2 h.parts_ne_nil
  cases h with
  | unicode kind nodup sorted canonical nonempty =>
    exact readUnicode?_parts (.unicode kind nodup sorted canonical nonempty)
  | transform hsource canonical nonempty =>
    exact readTransform?_parts (.transform hsource canonical nonempty)
  | @other c ps kind ne_kinds parts_kind nonempty =>
    have hkept : ps.filter (·.all Char.isAlphanum) = ps :=
      List.filter_eq_self.2 fun p hp => List.all_eq_true.2 (parts_kind p hp).1.alphanum
    have hcase := map_eq_self fun p hp => (parts_kind p hp).2.2
    have hsized : ps.all Subtag.isOtherSized = true :=
      List.all_eq_true.2 fun p hp => (parts_kind p hp).2.1
    show read? c ps = _
    rw [read?, if_neg ne_kinds.1, if_neg ne_kinds.2.1, if_neg ne_kinds.2.2, if_pos kind.1]
    simp only [readOther?, hkept, hcase, hsized, List.isEmpty_eq_false_iff.2 nonempty,
      Bool.not_true, Bool.or_self, Bool.false_eq_true, if_false]
  | @privateUse ps kind nonempty =>
    have hcase := map_eq_self fun p hp => (kind p hp).2
    have hkind : ps.all Subtag.isPrivatePart = true :=
      List.all_eq_true.2 fun p hp => (kind p hp).1
    show readPrivateUse? ps = _
    simp only [readPrivateUse?, hcase, hkind, List.isEmpty_eq_false_iff.2 nonempty,
      Bool.not_true, Bool.or_self, Bool.false_eq_true, if_false]

/-! ### Extensions one after the other -/

theorem Canonical.singleton_kind (h : e.Canonical) :
    e.singleton.isAlphanum = true ∧ e.singleton.toLower = e.singleton := by
  cases h with
  | unicode | transform | privateUse => exact ⟨rfl, rfl⟩
  | other kind => exact kind

/-- Parts are of two letters and digits or more, but for private use. -/
theorem Canonical.plain_parts (h : e.Canonical) (hx : e.singleton ≠ 'x') :
    ∀ p ∈ e.parts, Subtag.Plain 2 p := by
  cases h with
  | unicode kind _ _ canonical _ =>
    refine List.forall_mem_append.2 ⟨fun a ha =>
      (Subtag.plain_of_isValue (kind a ha).1).mono (by decide), fun p hp => ?_⟩
    obtain ⟨k, hk, hp⟩ := List.mem_flatMap.1 hp
    exact (canonical.proper k hk).plain (fun _ => Subtag.plain_of_isUnicodeKey) p hp
  | @transform source fields hsource canonical _ =>
    refine List.forall_mem_append.2 ⟨fun p hp => ?_, fun p hp => ?_⟩
    · cases source with
      | none => exact absurd hp List.not_mem_nil
      | some t =>
        obtain ⟨s, hs, rfl⟩ := List.mem_map.1 hp
        exact ((hsource t rfl).plain_subtags s hs).lower
    · obtain ⟨k, hk, hp⟩ := List.mem_flatMap.1 hp
      exact (canonical.proper k hk).fillTrue.plain (fun _ => Subtag.plain_of_isTransformKey) p hp
  | other _ _ parts_kind _ => exact fun p hp => (parts_kind p hp).1
  | privateUse => exact absurd rfl hx

theorem Canonical.plain_written (h : e.Canonical) :
    ∀ p ∈ [e.singleton] :: e.parts, Subtag.Plain 1 p := by
  refine List.forall_mem_cons.2 ⟨⟨Nat.le_refl 1, ?_⟩, fun p hp => ?_⟩
  · exact List.forall_mem_singleton.2 h.singleton_kind.1
  · by_cases hx : e.singleton = 'x'
    · cases h with
      | unicode | transform => cases hx
      | other _ ne_kinds => exact absurd hx ne_kinds.2.2
      | privateUse kind => exact Subtag.plain_of_isPrivatePart (kind p hp).1
    · exact (h.plain_parts hx p hp).mono (by decide)

theorem le_trans (a b c : Extension) (hab : le a b = true) (hbc : le b c = true) :
    le a c = true := by
  simp only [le, Bool.or_eq_true, Bool.and_eq_true, decide_eq_true_eq] at *
  rcases hbc with hc | ⟨hb, hbc⟩
  · exact Or.inl hc
  · obtain ⟨ha, hab⟩ := hab.resolve_left hb
    exact Or.inr ⟨ha, Char.le_trans hab hbc⟩

theorem le_total (a b : Extension) : (le a b || le b a) = true := by
  simp only [le, Bool.or_eq_true, Bool.and_eq_true, decide_eq_true_eq]
  rcases Char.le_total a.singleton b.singleton with h | h <;> tauto

/-- Extensions start with their singletons. -/
theorem singleton_of_mem_head? :
    ∀ p ∈ (es.flatMap fun e => [e.singleton] :: e.parts).head?, ∃ e ∈ es, p = [e.singleton] := by
  cases es with
  | nil => exact fun _ hp => absurd hp (Option.not_mem_none _)
  | cons e es => exact fun p hp => ⟨e, List.mem_cons_self, (Option.some.inj hp).symm⟩

/-- Extensions in order are read as they are.  Private use, which reaches to the end, is
    the last of them. -/
theorem readAll?_written (h : ∀ e ∈ es, e.Canonical) (hn : (es.map singleton).Nodup)
    (hs : es.Pairwise fun a b => a.le b = true) :
    readAll? (es.flatMap fun e => [e.singleton] :: e.parts) = some es := by
  induction es with
  | nil => rw [List.flatMap_nil, readAll?]
  | cons e es ih =>
    obtain ⟨he, hes⟩ := List.forall_mem_cons.1 h
    obtain ⟨hlast, hs⟩ := List.pairwise_cons.1 hs
    obtain ⟨hnew, hn⟩ := List.nodup_cons.1 hn
    have hlower := he.singleton_kind.2
    rw [List.flatMap_cons, List.cons_append]
    by_cases hx : e.singleton = 'x'
    · obtain rfl : es = [] := List.eq_nil_iff_forall_not_mem.2 fun e' he' => by
        have hle := hlast e' he'
        simp only [le, Bool.or_eq_true, Bool.and_eq_true, decide_eq_true_eq] at hle
        have hx' : e'.singleton = 'x' := hle.resolve_right fun h => h.1 hx
        exact hnew (List.mem_map.2 ⟨e', he', hx'.trans hx.symm⟩)
      rw [readAll?, if_pos (hlower.trans hx), hlower, List.flatMap_nil, List.append_nil,
        he.read?_parts]
      rfl
    · have hx' : e.singleton.toLower ≠ 'x' := by rwa [hlower]
      have hparts : ∀ p ∈ e.parts, (!p.isSingleton) = true := fun p hp => by
        rw [(he.plain_parts hx p hp).isSingleton_eq]
        rfl
      have hnext : ∀ p ∈ (es.flatMap fun e => [e.singleton] :: e.parts).head?,
          (!Subtag.isSingleton p) = false := fun p hp => by
        obtain ⟨e', he', rfl⟩ := singleton_of_mem_head? p hp
        rw [Subtag.isSingleton_singleton (hes e' he').singleton_kind.1]
        rfl
      obtain ⟨htake, hdrop⟩ := Text.run_eq hparts hnext
      rw [readAll?_cons hx', htake, hdrop, hlower, he.read?_parts, ih hes hn hs]
      rfl

end Extension

/-! ## Locales -/

namespace Locale

variable {s : List Subtag} {l : Locale}

/-- The language tag and the extensions are canonical, and the extensions are different
    and in order. -/
structure Canonical (l : Locale) : Prop where
  tag : l.tag.Canonical
  extensions : ∀ e ∈ l.extensions, e.Canonical
  nodup : (l.extensions.map Extension.singleton).Nodup
  sorted : l.extensions.Pairwise fun a b => a.le b = true

/-- What is read is canonical. -/
theorem canonical_of_ofSubtags? (h : ofSubtags? s = some l) : l.Canonical := by
  rw [ofSubtags?] at h
  split at h
  next => cases h
  next tag rest htag =>
    split at h
    next => cases h
    next es hes =>
      split at h
      next hn =>
        obtain rfl := Option.some.inj h
        have hperm : (es.mergeSort Extension.le).Perm es := List.mergeSort_perm _ _
        exact {
          tag := LanguageTag.canonical_of_read? htag
          extensions := fun e he => Extension.canonical_of_readAll? hes e (hperm.mem_iff.1 he)
          nodup := (hperm.map _).nodup_iff.2 hn
          sorted := List.pairwise_mergeSort Extension.le_trans Extension.le_total es }
      next => cases h

namespace Canonical

variable (h : l.Canonical)
include h

/-- The subtags of a canonical locale are read as the locale. -/
theorem ofSubtags?_subtags : ofSubtags? l.subtags = some l := by
  have hnext : ∀ s ∈ (l.extensions.flatMap fun e => [e.singleton] :: e.parts).head?,
      Subtag.Foreign s := fun s hs => by
    obtain ⟨e, -, rfl⟩ := Extension.singleton_of_mem_head? s hs
    exact Subtag.foreign_singleton e.singleton
  have hsort : l.extensions.mergeSort Extension.le = l.extensions :=
    List.mergeSort_of_pairwise h.sorted
  rw [ofSubtags?, subtags, h.tag.read?_append hnext]
  simp only [Extension.readAll?_written h.extensions h.nodup h.sorted, if_pos h.nodup, hsort]

theorem plain_subtags : ∀ s ∈ l.subtags, Subtag.Plain 1 s := by
  refine List.forall_mem_append.2 ⟨fun s hs => (h.tag.plain_subtags s hs).mono (by decide), ?_⟩
  intro s hs
  obtain ⟨e, he, hs⟩ := List.mem_flatMap.1 hs
  exact (h.extensions e he).plain_written s hs

end Canonical

/-! ### The text -/

/-- Plain subtags with hyphens between them are the pieces of the text. -/
theorem pieces_intercalate {ss : List Subtag} (hne : ss ≠ [])
    (h : ∀ s ∈ ss, Subtag.Plain 1 s) : Text.pieces '-' (['-'].intercalate ss) = ss := by
  induction ss with
  | nil => exact absurd rfl hne
  | cons s ss ih =>
    obtain ⟨hs, hss⟩ := List.forall_mem_cons.1 h
    have hyphen : '-' ∉ s := fun hmem => Subtag.ne_hyphen_of_isAlphanum (hs.alphanum _ hmem) rfl
    cases ss with
    | nil => rw [List.intercalate_singleton, Text.pieces_eq_singleton hyphen]
    | cons s' ss =>
      rw [List.intercalate_cons_cons, List.append_assoc, List.singleton_append,
        Text.pieces_append_cons hyphen, ih (List.cons_ne_nil _ _) hss]

/-- **The text of a canonical locale is read as the locale.** -/
theorem Canonical.parse?_text (h : l.Canonical) : parse? l.text = some l := by
  have hne : l.subtags ≠ [] := List.cons_ne_nil _ _
  rw [parse?, text, String.toList_ofList, pieces_intercalate hne h.plain_subtags,
    h.ofSubtags?_subtags]

theorem Canonical.trim_text (h : l.Canonical) : Text.trim l.text = l.text := by
  have hvisible : ∀ c ∈ ['-'].intercalate l.subtags, Text.isBlank c = false :=
    Text.forall_mem_intercalate (List.forall_mem_singleton.2 (by decide)) fun s hs c hc =>
      Subtag.isBlank_of_isAlphanum ((h.plain_subtags s hs).alphanum c hc)
  rw [Text.trim, text, String.toList_ofList, Text.trimChars_eq_self hvisible]

/-- The text of a locale that was read is read as the same locale. -/
theorem parse?_text {t : String} (h : parse? t = some l) : parse? l.text = some l :=
  (canonical_of_ofSubtags? h).parse?_text

theorem canonical_of_parse? {t : String} (h : parse? (Text.trim t) = some l) :
    canonical t = l.text := by
  rw [canonical, h]

theorem canonical_of_parse?_eq_none {t : String} (h : parse? (Text.trim t) = none) :
    canonical t = Text.trim t := by
  rw [canonical, h]

/-- **The canonical form of a canonical form is itself.** -/
theorem canonical_canonical (t : String) : canonical (canonical t) = canonical t := by
  cases h : parse? (Text.trim t) with
  | some l =>
    have hl := canonical_of_ofSubtags? h
    have hagain : parse? (Text.trim l.text) = some l := by rw [hl.trim_text, hl.parse?_text]
    rw [canonical_of_parse? h, canonical_of_parse? hagain]
  | none =>
    have htrim : Text.trim (Text.trim t) = Text.trim t := by
      rw [Text.trim, Text.trim, String.toList_ofList, Text.trimChars_trimChars]
    have hagain : parse? (Text.trim (Text.trim t)) = none := htrim.symm ▸ h
    rw [canonical_of_parse?_eq_none h, canonical_of_parse?_eq_none hagain, htrim]

end Locale

end SignGloss
