/-
  The language of patterns.

  * a tag is `Bracketable` if it is not empty and has neither blanks nor
    brackets;
  * `Pattern.Row ts s`: the text `s` is the tags `ts` in brackets, one after the
    other, with spaces inside and behind the brackets as one likes;
  * `Pattern.Spells s ts`: the same with spaces before the first tag.

  Main statements: a text is read as a pattern iff it spells its tags, these are
  bracketable, and there is one at least (`parse_eq_ok_iff`); the usual form of a
  pattern is read back (`parse_text`).
-/
import SignGloss.Pattern
import SignGloss.Proofs.Runs

namespace SignGloss

open Text

/-- The tag can stand in a pattern. -/
structure Tag.Bracketable (t : Tag) : Prop where
  ne_empty : t.name ≠ ""
  chars : ∀ c ∈ t.name.toList, isBlank c = false ∧ c ≠ '[' ∧ c ≠ ']'

instance (t : Tag) : Decidable t.Bracketable :=
  decidable_of_iff
    (t.name ≠ "" ∧ t.name.toList.all fun c => isBlank c = false ∧ c ≠ '[' ∧ c ≠ ']')
    ⟨fun h => ⟨h.1, by simpa using h.2⟩, fun h => ⟨h.ne_empty, by simpa using h.chars⟩⟩

namespace Pattern

/-- The tags are written in a row, in brackets. -/
inductive Row : List Tag → List Char → Prop
  | nil : Row [] []
  | cons {t ts w w' w'' s} : Spaces w → Spaces w' → Spaces w'' → Row ts s →
      Row (t :: ts) ('[' :: (w ++ (t.name.toList ++ (w' ++ ']' :: (w'' ++ s)))))

/-- The text is spaces and a row of tags. -/
def Spells (s : List Char) (ts : List Tag) : Prop := ∃ w r, Spaces w ∧ Row ts r ∧ s = w ++ r

theorem isTagChar_iff {c : Char} :
    isTagChar c = true ↔ isBlank c = false ∧ c ≠ '[' ∧ c ≠ ']' := by
  simp [isTagChar, and_assoc]

/-! ## One tag -/

theorem readTag_of_written {t : Tag} (ht : t.Bracketable) {w w' w'' s : List Char}
    (hw : Spaces w) (hw' : Spaces w') (hw'' : Spaces w'') :
    readTag ('[' :: (w ++ (t.name.toList ++ (w' ++ ']' :: (w'' ++ s))))) = .ok (t, skipSpaces s) := by
  have hne : t.name.toList ≠ [] := fun h => ht.ne_empty (String.toList_eq_nil_iff.1 h)
  obtain ⟨hname, hrest⟩ := spacedName_eq (p := isTagChar) (r := ']' :: (w'' ++ s))
    (fun c hc => (isTagChar_iff.1 hc).1) hw hw' hne
    (fun c hc => isTagChar_iff.2 (ht.chars c hc)) (fun c hc => by
      obtain rfl : ']' = c := Option.some.inj hc
      exact ⟨by decide, fun _ => by decide⟩)
  simp only [readTag, skipSpaces, hname, hrest, List.isEmpty_iff, hne, if_false,
    String.ofList_toList, List.dropWhile_append_of_pos hw'']

theorem of_readTag_eq_ok {t : Tag} {s r : List Char} (h : readTag s = .ok (t, r)) :
    t.Bracketable ∧ ∃ w w' w'', Spaces w ∧ Spaces w' ∧ Spaces w'' ∧
      s = '[' :: (w ++ (t.name.toList ++ (w' ++ ']' :: (w'' ++ r)))) := by
  unfold readTag at h
  split at h
  · rename_i s'
    simp only [skipSpaces, List.isEmpty_iff] at h
    split at h
    · cases h
    · rename_i hne
      split at h
      · rename_i r' hr'
        obtain ⟨rfl, rfl⟩ := Prod.mk.inj (Except.ok.inj h)
        obtain ⟨hname, w, w', hw, hw', -, hs⟩ := of_spacedName_eq rfl hr'
        obtain ⟨w'', hw'', hr⟩ := exists_spaces r'
        refine ⟨⟨?_, ?_⟩, w, w', w'', hw, hw', hw'', ?_⟩
        · simpa using hne
        · intro c hc
          exact isTagChar_iff.1 (hname c (by simpa using hc))
        · rw [String.toList_ofList, ← hr, ← hs]
      · cases h
  · cases h

/-! ## Rows -/

theorem readTags_of_ok {s r : List Char} {t : Tag} (h : readTag s = .ok (t, r)) :
    readTags s = (t :: (readTags r).1, (readTags r).2) := by
  rw [readTags]
  split
  · rename_i he
    cases h.symm.trans he
  · rename_i t' r' he
    obtain ⟨rfl, rfl⟩ := Prod.mk.inj (Except.ok.inj (h.symm.trans he))
    rfl

theorem readTags_of_error {s left : List Char} (h : readTag s = .error left) :
    readTags s = ([], s) := by
  rw [readTags]
  split
  · rfl
  · rename_i he
    cases h.symm.trans he

/-- A row starts with a bracket, if with anything. -/
theorem Row.head? {ts : List Tag} {s : List Char} (h : Row ts s) :
    ∀ c ∈ s.head?, isSpace c = false := by
  intro c hc
  cases h with
  | nil => cases hc
  | cons =>
    obtain rfl : '[' = c := Option.some.inj hc
    decide

theorem Row.ne_nil {ts : List Tag} {s : List Char} (h : Row ts s) (hne : ts ≠ []) : s ≠ [] := by
  cases h with
  | nil => exact absurd rfl hne
  | cons => simp

/-- A row that is not empty is read as its tags, whatever follows, and reading goes on
    behind the spaces that follow. -/
theorem readTags_append_of_row {ts : List Tag} {s : List Char} (h : Row ts s) (hne : ts ≠ [])
    (ht : ∀ t ∈ ts, t.Bracketable) (r : List Char) :
    readTags (s ++ r) = (ts ++ (readTags (skipSpaces r)).1, (readTags (skipSpaces r)).2) := by
  induction h with
  | nil => exact absurd rfl hne
  | @cons t ts w w' w'' s hw hw' hw'' hrow ih =>
    have hread := readTag_of_written (s := s ++ r) (ht t (by simp)) hw hw' hw''
    simp only [List.cons_append, List.append_assoc]
    rw [readTags_of_ok hread]
    by_cases hts : ts = []
    · subst hts
      cases hrow
      rfl
    · have hskip : skipSpaces (s ++ r) = s ++ r := dropWhile_isSpace_eq_self fun c hc => by
        rw [List.head?_append_of_ne_nil _ (hrow.ne_nil hts)] at hc
        exact hrow.head? c hc
      rw [hskip, ih hts fun u hu => ht u (by simp [hu])]

/-- What is read as tags is a row of them. -/
theorem row_of_readTags {s r : List Char} {ts : List Tag} (h : readTags s = (ts, r)) :
    (∀ t ∈ ts, t.Bracketable) ∧ ∃ x, Row ts x ∧ s = x ++ r := by
  fun_induction readTags s generalizing ts with
  | case1 s =>
    obtain ⟨rfl, rfl⟩ := Prod.mk.inj h
    exact ⟨by simp, [], .nil, rfl⟩
  | case2 s t r₁ hread _ us r' hus ih =>
    obtain ⟨rfl, rfl⟩ := Prod.mk.inj h
    obtain ⟨hts, x, hrow, hx⟩ := ih hus
    obtain ⟨ht, w, w', w'', hw, hw', hw'', hs⟩ := of_readTag_eq_ok hread
    refine ⟨fun u hu => ?_, _, .cons hw hw' hw'' hrow, ?_⟩
    · rcases List.mem_cons.1 hu with rfl | hu
      · exact ht
      · exact hts u hu
    · rw [hs, hx]
      simp

/-! ## Patterns -/

/-- A text that is not blank is read tag by tag behind the spaces at its start. -/
theorem parse_eq_ok_iff_readTags {s : String} {ts : List Tag} (hb : ¬ s.toList.all isBlank = true) :
    parse s = .ok ⟨ts⟩ ↔ ts ≠ [] ∧ readTags (skipSpaces s.toList) = (ts, []) := by
  simp only [parse, if_neg hb]
  cases hread : readTag (skipSpaces s.toList) with
  | error left =>
    rw [readTags_of_error hread]
    constructor
    · intro h
      cases h
    · rintro ⟨hne, h⟩
      exact absurd (Prod.mk.inj h).1.symm hne
  | ok found =>
    obtain ⟨t, r⟩ := found
    rw [readTags_of_ok hread]
    dsimp only
    rcases readTags r with ⟨us, _ | ⟨c, left⟩⟩
    · simp only [Except.ok.injEq, mk.injEq, Prod.mk.injEq, and_true]
      constructor
      · rintro rfl
        exact ⟨by simp, rfl⟩
      · rintro ⟨-, h⟩
        exact h
    · simp

/-- A text with a bracket is not blank. -/
theorem not_all_isBlank_of_spells {s : List Char} {ts : List Tag} (hne : ts ≠ [])
    (h : Spells s ts) : ¬ s.all isBlank = true := by
  obtain ⟨w, r, -, hrow, rfl⟩ := h
  intro hall
  have hmem : '[' ∈ w ++ r := by
    cases hrow with
    | nil => exact absurd rfl hne
    | cons => simp
  exact absurd (List.all_eq_true.1 hall '[' hmem) (by decide)

/-- **A text is read as a pattern iff it spells the tags of the pattern.** -/
theorem parse_eq_ok_iff {s : String} {ts : List Tag} :
    parse s = .ok ⟨ts⟩ ↔ ts ≠ [] ∧ (∀ t ∈ ts, t.Bracketable) ∧ Spells s.toList ts := by
  constructor
  · intro h
    have hb : ¬ s.toList.all isBlank = true := fun hb => by
      simp only [parse, if_pos hb] at h
      cases h
    obtain ⟨hne, hread⟩ := (parse_eq_ok_iff_readTags hb).1 h
    obtain ⟨hts, r, hrow, hr⟩ := row_of_readTags hread
    obtain ⟨w, hw, hs⟩ := exists_spaces s.toList
    rw [List.append_nil] at hr
    exact ⟨hne, hts, w, r, hw, hrow, by rw [← hr]; exact hs⟩
  · rintro ⟨hne, hts, hsp⟩
    refine (parse_eq_ok_iff_readTags (not_all_isBlank_of_spells hne hsp)).2 ⟨hne, ?_⟩
    obtain ⟨w, r, hw, hrow, hs⟩ := hsp
    have hread := readTags_append_of_row hrow hne hts []
    rw [List.append_nil] at hread
    rw [hs, skipSpaces, dropWhile_spaces hw hrow.head?, hread]
    simp [skipSpaces, readTags_of_error (rfl : readTag [] = .error [])]

/-- The tags of a pattern that has been read can stand in one. -/
theorem bracketable_of_parse {s : String} {p : Pattern} (h : parse s = .ok p) :
    ∀ t ∈ p.tags, t.Bracketable :=
  (parse_eq_ok_iff.1 h).2.1

/-! ## The usual form -/

/-- The usual form of some tags is a row of them. -/
theorem row_text (ts : List Tag) : Row ts (text ⟨ts⟩).toList := by
  have hbracket : ∀ t : Tag, ("[" ++ t.name ++ "]").toList = '[' :: (t.name.toList ++ [']']) :=
    fun t => by simp
  simp only [text, String.toList_intercalate, List.map_map]
  induction ts with
  | nil => exact .nil
  | cons t ts ih =>
    cases ts with
    | nil =>
      have h := Row.cons (t := t) Spaces.nil Spaces.nil Spaces.nil .nil
      simpa [hbracket] using h
    | cons u ts =>
      have hspace : Spaces [' '] := by simp [Spaces, isSpace]
      have h := Row.cons (t := t) Spaces.nil Spaces.nil hspace ih
      simpa [hbracket, List.intercalate_cons_cons] using h

/-- **The usual form of a pattern is read back.** -/
theorem parse_text {ts : List Tag} (hne : ts ≠ []) (hts : ∀ t ∈ ts, t.Bracketable) :
    parse (text ⟨ts⟩) = .ok ⟨ts⟩ :=
  parse_eq_ok_iff.2 ⟨hne, hts, [], _, Spaces.nil, row_text ts, rfl⟩

/-- **The language of patterns.**  A text is read as a pattern iff it spells one
    or more bracketable tags.  So the usual form of such tags is read back, a
    pattern that is read matches its own tags only, and a sequence with a tag that
    is not bracketable is matched by none. -/
theorem parse_spells :
    (∀ s ts, parse s = .ok ⟨ts⟩ ↔ ts ≠ [] ∧ (∀ t ∈ ts, t.Bracketable) ∧ Spells s.toList ts) ∧
    (∀ ts, ts ≠ [] → (∀ t ∈ ts, t.Bracketable) → parse (text ⟨ts⟩) = .ok ⟨ts⟩) ∧
    (∀ s p us, parse s = .ok p → (p.matchesTags us = true ↔ us = p.tags)) ∧
    ∀ s p us, parse s = .ok p → (∃ u ∈ us, ¬ u.Bracketable) → p.matchesTags us = false := by
  refine ⟨fun s ts => parse_eq_ok_iff, fun ts => parse_text, fun s p us _ => matchesTags_iff, ?_⟩
  rintro s p us hp ⟨u, hu, hnot⟩
  rw [Bool.eq_false_iff]
  intro hm
  obtain rfl := matchesTags_iff.1 hm
  exact hnot (bracketable_of_parse hp u hu)

/-- Spaces of all kinds around two tags, and a tag with a blank that is no space. -/
theorem parse_spells_spaced :
    let ts : List Tag := [⟨"AUX-V"⟩, ⟨"V.PART"⟩]
    parse "\t[ AUX-V\n][V.PART ]\r" = .ok ⟨ts⟩ ∧ parse "[AUX-V] [V.PART]" = .ok ⟨ts⟩ ∧
      matchesTags ⟨ts⟩ ts = true ∧ ¬ Tag.Bracketable ⟨"V\u00a0PART"⟩ ∧
        matchesTags ⟨ts⟩ [⟨"AUX-V"⟩, ⟨"V\u00a0PART"⟩] = false := by
  intro ts
  obtain ⟨hspells, htext, hmatch, hnone⟩ := parse_spells
  have hts : ∀ t ∈ ts, t.Bracketable := by decide
  have hrow : Spells "\t[ AUX-V\n][V.PART ]\r".toList ts :=
    ⟨['\t'], _, by decide,
      @Row.cons ⟨"AUX-V"⟩ _ [' '] ['\n'] [] _ (by decide) (by decide) (by decide)
        (@Row.cons ⟨"V.PART"⟩ _ [] [' '] ['\r'] _ (by decide) (by decide) (by decide) .nil),
      by decide⟩
  have hread : parse "\t[ AUX-V\n][V.PART ]\r" = .ok ⟨ts⟩ :=
    (hspells _ _).2 ⟨by decide, hts, hrow⟩
  have hnot : ¬ Tag.Bracketable ⟨"V\u00a0PART"⟩ := by decide
  exact ⟨hread, htext ts (by decide) hts, (hmatch _ _ ts hread).2 rfl, hnot,
    hnone _ _ _ hread ⟨_, by simp, hnot⟩⟩

end Pattern

end SignGloss
