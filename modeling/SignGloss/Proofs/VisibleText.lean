/-
  Texts that show something.

  * `Visible s`: some character of the text `s` is not blank.

  Case data that takes a character to blanks would make a text vanish.  No run of the
  case data meets a range of blanks (`CaseRun.MissesBlanks`), and so the case images
  of visible texts are visible, and with them the plain forms of glosses
  (`visible_plainForm`).  Where blanks are made single spaces, a text keeps what it
  shows, and one that shows nothing becomes empty (`visible_oneSpaced_iff`,
  `oneSpaced_eq_empty`).
-/
import Mathlib.Data.List.Basic
import SignGloss.Gloss
import SignGloss.Proofs.Words

namespace SignGloss

namespace Text

/-- Some character of the text is not blank. -/
def Visible (s : String) : Prop := ∃ c ∈ s.toList, isBlank c = false

instance (s : String) : Decidable (Visible s) :=
  decidable_of_iff (s.toList.any (!isBlank ·) = true) (by simp [Visible])

theorem visible_ofList {l : List Char} :
    Visible (String.ofList l) ↔ ∃ c ∈ l, isBlank c = false := by
  rw [Visible, String.toList_ofList]

theorem visible_append {s t : String} : Visible (s ++ t) ↔ Visible s ∨ Visible t := by
  simp [Visible, String.toList_append, or_and_right, exists_or]

theorem not_visible_empty : ¬ Visible "" := by simp [Visible]

theorem visible_intercalate {sep s : String} {ss : List String} (hs : s ∈ ss) (h : Visible s) :
    Visible (sep.intercalate ss) := by
  obtain ⟨c, hc, hb⟩ := h
  refine ⟨c, ?_, hb⟩
  rw [String.toList_intercalate]
  exact mem_intercalate (List.mem_map_of_mem hs) hc

/-! ## Case -/

/-- The images of the run are not blank: no range of blanks meets theirs. -/
def CaseRun.MissesBlanks (r : CaseRun) : Prop :=
  ∀ b ∈ blankRanges, b.2 < r.image ∨ r.image + (r.last - r.first) < b.1

instance (r : CaseRun) : Decidable r.MissesBlanks :=
  inferInstanceAs (Decidable (∀ b ∈ blankRanges, _))

/-- A number that is no code point stands for the character 0. -/
theorem toNat_ofNat_cases (n : Nat) : (Char.ofNat n).toNat = n ∨ (Char.ofNat n).toNat = 0 := by
  by_cases h : n.isValidChar
  · exact Or.inl (congrArg Char.toNat (dif_pos h))
  · exact Or.inr (congrArg Char.toNat (dif_neg h))

theorem CaseRun.MissesBlanks.isBlank_eq_false {r : CaseRun} {c d : Char} (h : r.MissesBlanks)
    (hd : r.imageOf c = some d) : isBlank d = false := by
  unfold CaseRun.imageOf at hd
  split at hd
  · rename_i hc
    obtain rfl := Option.some.inj hd
    rw [← Bool.not_eq_true, isBlank, CharClass.has_iff]
    rintro ⟨b, hb, hlow, hhigh⟩
    rcases toNat_ofNat_cases (r.image + (c.toNat - r.first)) with hn | hn
    · have := h b hb
      omega
    · have hpos : ∀ b ∈ blankRanges, 0 < b.1 := by decide
      have := hpos b hb
      omega
  · cases hd

variable {runs : List CaseRun} {texts : List (Nat × List Nat)} {c : Char} {s : String}

/-- The case image of a character that shows something does so, too. -/
theorem exists_mem_caseImage (hruns : ∀ r ∈ runs, r.MissesBlanks)
    (htexts : ∀ e ∈ texts, ∃ n ∈ e.2, isBlank (Char.ofNat n) = false) (hc : isBlank c = false) :
    ∃ d ∈ caseImage runs texts c, isBlank d = false := by
  unfold caseImage
  cases hr : runs.findSome? (·.imageOf c) with
  | some d =>
    obtain ⟨r, hmem, hd⟩ := List.exists_of_findSome?_eq_some hr
    exact ⟨d, List.mem_singleton_self d, (hruns r hmem).isBlank_eq_false hd⟩
  | none =>
    cases ht : texts.lookup c.toNat with
    | some ds =>
      obtain ⟨before, after, hsplit, -⟩ := List.lookup_eq_some_iff.1 ht
      obtain ⟨n, hn, hb⟩ := htexts (c.toNat, ds) (by rw [hsplit]; simp)
      exact ⟨_, List.mem_map_of_mem hn, hb⟩
    | none => exact ⟨c, List.mem_singleton_self c, hc⟩

theorem exists_mem_upperChar (hc : isBlank c = false) : ∃ d ∈ upperChar c, isBlank d = false :=
  exists_mem_caseImage (by decide +kernel) (by decide +kernel) hc

theorem exists_mem_lowerChar (hc : isBlank c = false) : ∃ d ∈ lowerChar c, isBlank d = false :=
  exists_mem_caseImage (by decide +kernel) (by decide +kernel) hc

theorem visible_toUpper (h : Visible s) : Visible (toUpper s) := by
  obtain ⟨c, hc, hb⟩ := h
  obtain ⟨d, hd, hdb⟩ := exists_mem_upperChar hb
  exact visible_ofList.2 ⟨d, List.mem_flatMap.2 ⟨c, hc, hd⟩, hdb⟩

theorem exists_mem_lowerAfter {l : List Char} (before : List Char)
    (h : ∃ c ∈ l, isBlank c = false) : ∃ d ∈ lowerAfter before l, isBlank d = false := by
  induction l generalizing before with
  | nil => simp at h
  | cons c l ih =>
    rw [lowerAfter]
    obtain ⟨c', hc', hb⟩ := h
    rcases List.mem_cons.1 hc' with rfl | hc'
    · split
      · refine ⟨if endsWord before l then 'ς' else 'σ', by simp, ?_⟩
        split <;> decide
      · obtain ⟨d, hd, hdb⟩ := exists_mem_lowerChar hb
        exact ⟨d, List.mem_append_left _ hd, hdb⟩
    · obtain ⟨d, hd, hdb⟩ := ih (c :: before) ⟨c', hc', hb⟩
      exact ⟨d, List.mem_append_right _ hd, hdb⟩

theorem visible_toLower (h : Visible s) : Visible (toLower s) :=
  visible_ofList.2 (exists_mem_lowerAfter [] h)

/-! ## Words -/

/-- A text that shows nothing becomes empty. -/
theorem oneSpaced_eq_empty (h : ¬ Visible s) : oneSpaced s = "" := by
  have hblank : ∀ c ∈ s.toList, isBlank c = true := by simpa [Visible] using h
  have hwords : words s.toList = [] := by
    rw [← List.append_nil s.toList, words_blanks hblank]
    rfl
  rw [oneSpaced, hwords]
  rfl

theorem visible_oneSpaced_iff : Visible (oneSpaced s) ↔ Visible s := by
  constructor
  · intro h
    by_contra hs
    exact not_visible_empty (oneSpaced_eq_empty hs ▸ h)
  · rintro ⟨c, hc, hb⟩
    have hmem : c ∈ (words s.toList).flatten := by
      rw [flatten_words]
      exact List.mem_filter.2 ⟨hc, by simp [hb]⟩
    obtain ⟨w, hw, hcw⟩ := List.mem_flatten.1 hmem
    exact visible_ofList.2 ⟨c, mem_intercalate hw hcw, hb⟩

end Text

/-! ## Glosses -/

/-- The plain form of a gloss that shows something does so, too. -/
theorem visible_plainForm {gloss : String} (h : Text.Visible gloss) :
    Text.Visible (plainForm gloss) := by
  rw [plainForm]
  cases hf : fixedForms.lookup gloss with
  | none => exact Text.visible_toLower h
  | some t =>
    obtain ⟨before, after, hsplit, -⟩ := List.lookup_eq_some_iff.1 hf
    have hall : ∀ e ∈ fixedForms, Text.Visible e.2 := by decide
    exact hall (gloss, t) (by rw [hsplit]; simp)

end SignGloss
