/-
  Words and the blanks between them.

  * `Falls s ws`: the text `s` is the words `ws`, maximal stretches without blanks,
    with blanks around them.  A text falls into one list of words, that of `words`
    (`falls_iff`);
  * `Respaced s t`: the texts differ only in their stretches of blanks, none of which
    is dropped or put in.

  Words with single spaces between them are found again (`falls_intercalate`), and
  texts that differ in stretches of blanks have the same words (`Respaced.words_eq`),
  also where they are put together (`Respaced.append`).
-/
import Mathlib.Data.List.Basic
import SignGloss.Text.Blank

namespace SignGloss.Text

/-- Blanks only. -/
def Blanks (b : List Char) : Prop := ∀ c ∈ b, isBlank c = true

instance (b : List Char) : Decidable (Blanks b) := List.decidableBAll (isBlank · = true) b

/-- No word goes on here: a blank comes next, or nothing. -/
def Breaks (s : List Char) : Prop := ∀ c ∈ s.head?, isBlank c = true

/-- Some characters, none of them blank. -/
structure IsWord (w : List Char) : Prop where
  ne_nil : w ≠ []
  letters : ∀ c ∈ w, isBlank c = false

/-- The text is words with blanks around them. -/
inductive Falls : List Char → List (List Char) → Prop
  | nil : Falls [] []
  | blank {c s ws} : isBlank c = true → Falls s ws → Falls (c :: s) ws
  | word {w s ws} : IsWord w → Breaks s → Falls s ws → Falls (w ++ s) (w :: ws)

/-- The second text is the first one with other blanks for some stretches of blanks,
    such as the maximal ones. -/
inductive Respaced : List Char → List Char → Prop
  | nil : Respaced [] []
  | char {c s t} : Respaced s t → Respaced (c :: s) (c :: t)
  | blanks {b b' s t} : b ≠ [] → b' ≠ [] → Blanks b → Blanks b' → Respaced s t →
      Respaced (b ++ s) (b' ++ t)

variable {c : Char} {s t w : List Char} {ws : List (List Char)}

/-! ## Joined lists -/

section
variable {α : Type} {sep l : List α} {ls : List (List α)}

/-- Joined lists have what any of them has. -/
theorem mem_intercalate {a : α} (hl : l ∈ ls) (ha : a ∈ l) : a ∈ sep.intercalate ls := by
  induction ls with
  | nil => cases hl
  | cons l' ls ih =>
    rcases List.mem_cons.1 hl with rfl | hl
    · cases ls with
      | nil => simpa using ha
      | cons m ls => simp [List.intercalate_cons_cons, ha]
    · cases ls with
      | nil => cases hl
      | cons m ls =>
        rw [List.intercalate_cons_cons]
        exact List.mem_append_right _ (ih hl)

/-- What is true of the members of all lists and of the separator is true of those of
    the joined list. -/
theorem forall_mem_intercalate {P : α → Prop} (hsep : ∀ a ∈ sep, P a)
    (hls : ∀ l ∈ ls, ∀ a ∈ l, P a) : ∀ a ∈ sep.intercalate ls, P a := by
  induction ls with
  | nil => simp
  | cons l ls ih =>
    obtain ⟨hl, hrest⟩ := List.forall_mem_cons.1 hls
    cases ls with
    | nil => simpa using hl
    | cons m ls =>
      rw [List.intercalate_cons_cons, List.forall_mem_append, List.forall_mem_append]
      exact ⟨⟨hl, hsep⟩, ih hrest⟩

end

/-! ## The words of a text -/

theorem words_blank (hc : isBlank c = true) : words (c :: s) = words s := by
  rw [words.eq_def]
  exact if_pos hc

theorem words_blanks {b : List Char} (hb : Blanks b) : words (b ++ s) = words s := by
  induction b with
  | nil => rfl
  | cons c b ih =>
    obtain ⟨hc, hb⟩ := List.forall_mem_cons.1 hb
    rw [List.cons_append, words_blank hc, ih hb]

theorem words_word (hw : IsWord w) (hs : Breaks s) : words (w ++ s) = w :: words s := by
  induction w with
  | nil => exact absurd rfl hw.ne_nil
  | cons c w ih =>
    obtain ⟨hc, hletters⟩ := List.forall_mem_cons.1 hw.letters
    cases w with
    | nil =>
      cases s with
      | nil => simp [words, hc]
      | cons d s => simp [words, hc, hs d rfl]
    | cons d w =>
      have hd : isBlank d = false := hletters d List.mem_cons_self
      have hrest : words (d :: (w ++ s)) = (d :: w) :: words s := ih ⟨by simp, hletters⟩
      rw [List.cons_append, List.cons_append, words.eq_def]
      simp [hc, hd, hrest]

theorem isWord_letter (hc : isBlank c = false) : IsWord [c] := ⟨by simp, by simpa using hc⟩

/-- A text that starts with no blank falls into a word, which a letter in front of the
    text makes longer. -/
theorem Falls.exists_word {d : Char} (hd : isBlank d = false) (h : Falls (d :: s) ws) :
    ∃ w us, ws = w :: us ∧ ∀ c, isBlank c = false → Falls (c :: d :: s) ((c :: w) :: us) := by
  generalize ht : d :: s = t at h
  cases h with
  | nil => cases ht
  | blank hc _ =>
    obtain ⟨rfl, -⟩ := List.cons.inj ht
    exact absurd hc (by simp [hd])
  | word hw hs hf =>
    refine ⟨_, _, rfl, fun c hc => ?_⟩
    exact .word ⟨by simp, List.forall_mem_cons.2 ⟨hc, hw.letters⟩⟩ hs hf

/-- **A text falls into its words and no others.** -/
theorem falls_iff : Falls s ws ↔ words s = ws := by
  constructor
  · intro h
    induction h with
    | nil => rfl
    | blank hc _ ih => rw [words_blank hc, ih]
    | word hw hs _ ih => rw [words_word hw hs, ih]
  · rintro rfl
    fun_induction words s with
    | case1 => exact .nil
    | case2 c s hc ih => exact .blank hc ih
    | case3 c hc => exact .word (isWord_letter (by simpa using hc)) (by simp [Breaks]) .nil
    | case4 c hc d s hd ih =>
      exact .word (isWord_letter (by simpa using hc)) (by simpa [Breaks] using hd) ih
    | case5 c hc d s hd hw ih =>
      obtain ⟨w, us, hws, -⟩ := ih.exists_word (by simpa using hd)
      rw [hw] at hws
      cases hws
    | case6 c hc d s hd w ws hw ih =>
      obtain ⟨w', us, hws, hlonger⟩ := ih.exists_word (by simpa using hd)
      obtain ⟨rfl, rfl⟩ := List.cons.inj (hw.symm.trans hws)
      rw [hw]
      exact hlonger c (by simpa using hc)

theorem falls_words (s : List Char) : Falls s (words s) := falls_iff.2 rfl

theorem Falls.isWord (h : Falls s ws) : ∀ w ∈ ws, IsWord w := by
  induction h with
  | nil => simp
  | blank _ _ ih => exact ih
  | word hw _ _ ih => exact List.forall_mem_cons.2 ⟨hw, ih⟩

/-- The words of a text have the characters that are not blank, in order. -/
theorem flatten_words (s : List Char) : (words s).flatten = s.filter (!isBlank ·) := by
  have h := falls_words s
  generalize words s = ws at h
  induction h with
  | nil => rfl
  | blank hc _ ih => rw [ih, List.filter_cons_of_neg (by simp [hc])]
  | @word w _ _ hw _ _ ih =>
    have hkept : ∀ c ∈ w, (!isBlank c) = true := fun c hc => by simp [hw.letters c hc]
    rw [List.flatten_cons, ih, List.filter_append, List.filter_eq_self.2 hkept]

/-! ## Words with single spaces between them -/

/-- Words with spaces between them are found again. -/
theorem falls_intercalate (h : ∀ w ∈ ws, IsWord w) : Falls ([' '].intercalate ws) ws := by
  induction ws with
  | nil => exact .nil
  | cons w ws ih =>
    obtain ⟨hw, hws⟩ := List.forall_mem_cons.1 h
    cases ws with
    | nil => simpa using Falls.word hw (by simp [Breaks]) .nil
    | cons v ws =>
      have hspace : Breaks (' ' :: [' '].intercalate (v :: ws)) := by
        intro c hc
        obtain rfl : ' ' = c := Option.some.inj hc
        decide
      rw [List.intercalate_cons_cons, List.append_assoc]
      exact .word hw hspace (.blank (by decide) (ih hws))

/-- The only blanks are the spaces between the words. -/
theorem eq_space_of_mem_intercalate (h : ∀ w ∈ ws, IsWord w) :
    ∀ c ∈ [' '].intercalate ws, isBlank c = true → c = ' ' := by
  refine forall_mem_intercalate (fun c hc _ => List.mem_singleton.1 hc) fun w hw c hc hb => ?_
  rw [(h w hw).letters c hc] at hb
  cases hb

theorem head?_intercalate (hw : IsWord w) (ws : List (List Char)) :
    ([' '].intercalate (w :: ws)).head? = w.head? := by
  cases ws with
  | nil => simp
  | cons v ws =>
    rw [List.intercalate_cons_cons, List.append_assoc, List.head?_append_of_ne_nil _ hw.ne_nil]

/-- No blank stands at the start. -/
theorem isBlank_of_head?_intercalate (h : ∀ w ∈ ws, IsWord w)
    (hc : c ∈ ([' '].intercalate ws).head?) : isBlank c = false := by
  cases ws with
  | nil => cases hc
  | cons w ws =>
    have hw : IsWord w := h w List.mem_cons_self
    rw [head?_intercalate hw] at hc
    exact hw.letters c (List.mem_of_mem_head? hc)

/-- No blank stands at the end. -/
theorem isBlank_of_getLast?_intercalate (h : ∀ w ∈ ws, IsWord w)
    (hc : c ∈ ([' '].intercalate ws).getLast?) : isBlank c = false := by
  induction ws with
  | nil => cases hc
  | cons w ws ih =>
    obtain ⟨hw, hws⟩ := List.forall_mem_cons.1 h
    cases ws with
    | nil => exact hw.letters c (List.mem_of_mem_getLast? (by simpa using hc))
    | cons v ws =>
      have hv : IsWord v := hws v List.mem_cons_self
      have hne : [' '].intercalate (v :: ws) ≠ [] := by
        rw [ne_eq, ← List.head?_eq_none_iff, head?_intercalate hv, List.head?_eq_none_iff]
        exact hv.ne_nil
      rw [List.intercalate_cons_cons, List.getLast?_append_of_ne_nil _ hne] at hc
      exact ih hws hc

/-! ## Other blanks -/

theorem Respaced.refl (s : List Char) : Respaced s s := by
  induction s with
  | nil => exact .nil
  | cons c s ih => exact .char ih

theorem Respaced.append {s' t' : List Char} (h : Respaced s t) (h' : Respaced s' t') :
    Respaced (s ++ s') (t ++ t') := by
  induction h with
  | nil => exact h'
  | char _ ih => exact .char ih
  | blanks hne hne' hb hb' _ ih =>
    rw [List.append_assoc, List.append_assoc]
    exact .blanks hne hne' hb hb' ih

theorem Blanks.breaks_append {b : List Char} (hb : Blanks b) (hne : b ≠ []) (s : List Char) :
    Breaks (b ++ s) := by
  intro c hc
  rw [List.head?_append_of_ne_nil _ hne] at hc
  exact hb c (List.mem_of_mem_head? hc)

/-- Words end at the same places in both texts. -/
theorem Respaced.breaks_iff (h : Respaced s t) : Breaks s ↔ Breaks t := by
  cases h with
  | nil | char => exact Iff.rfl
  | blanks hne hne' hb hb' _ =>
    exact iff_of_true (hb.breaks_append hne _) (hb'.breaks_append hne' _)

theorem exists_letter_of_not_breaks (h : ¬ Breaks s) : ∃ d s', isBlank d = false ∧ s = d :: s' := by
  cases s with
  | nil => exact absurd (by simp [Breaks]) h
  | cons d s => exact ⟨d, s, by simpa [Breaks] using h, rfl⟩

/-- A character in front of two texts belongs to the same word in both. -/
theorem words_cons_congr (c : Char) (hbreaks : Breaks s ↔ Breaks t) (h : words s = words t) :
    words (c :: s) = words (c :: t) := by
  cases hc : isBlank c with
  | true => rw [words_blank hc, words_blank hc, h]
  | false =>
    by_cases hs : Breaks s
    · have hs' : words (c :: s) = [c] :: words s := words_word (isWord_letter hc) hs
      have ht' : words (c :: t) = [c] :: words t := words_word (isWord_letter hc) (hbreaks.1 hs)
      rw [hs', ht', h]
    · obtain ⟨d, s', hd, rfl⟩ := exists_letter_of_not_breaks hs
      obtain ⟨e, t', he, rfl⟩ := exists_letter_of_not_breaks (mt hbreaks.2 hs)
      obtain ⟨w, us, hw, hlonger⟩ := (falls_words (d :: s')).exists_word hd
      obtain ⟨w', us', hw', hlonger'⟩ := (falls_words (e :: t')).exists_word he
      obtain ⟨rfl, rfl⟩ := List.cons.inj (hw.symm.trans (h.trans hw'))
      rw [falls_iff.1 (hlonger c hc), falls_iff.1 (hlonger' c hc)]

theorem Respaced.words_eq (h : Respaced s t) : words s = words t := by
  induction h with
  | nil => rfl
  | char hst ih => exact words_cons_congr _ hst.breaks_iff ih
  | blanks _ _ hb hb' _ ih => rw [words_blanks hb, words_blanks hb', ih]

end SignGloss.Text
