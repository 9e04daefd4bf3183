/-
  What a rendered text depends on.

  * `IsFirst t ws w`: the word `w` is the first one of the part of speech `t`
    among `ws`;
  * `Alike ws us t`: the first words of a part of speech have one gloss in both
    lists, or there is none in either.

  A placeholder is filled from the gloss of the first word of its part of speech
  (`fill_eq_of_alike`), and so a template depends on the words for which its
  placeholders ask and on nothing else (`render_eq_of_alike`).

  Main statement: words that are alike for a template have one text or failure
  with the same queries, so that signs, confidences, spellings and words that are
  not first do not matter (`render_depends_on_first_words`).
-/
import Mathlib.Data.List.Forall2
import SignGloss.Render

namespace SignGloss

/-- The first word of a part of speech. -/
def IsFirst (t : Tag) (ws : List Word) (w : Word) : Prop :=
  w.tag = t ∧ ∃ before after, ws = before ++ w :: after ∧ ∀ v ∈ before, v.tag ≠ t

/-- As far as a part of speech goes, both lists give one gloss or none. -/
inductive Alike (ws us : List Word) (t : Tag) : Prop
  | absent : (∀ w ∈ ws, w.tag ≠ t) → (∀ u ∈ us, u.tag ≠ t) → Alike ws us t
  | present {w u : Word} : IsFirst t ws w → IsFirst t us u → w.gloss = u.gloss → Alike ws us t

variable {ws us : List Word} {t : Tag} {w : Word} {form : Morphology}

/-! ## First words -/

theorem find?_eq_some_iff_isFirst : ws.find? (·.tag = t) = some w ↔ IsFirst t ws w := by
  simp [IsFirst, List.find?_eq_some_iff_append]

theorem find?_eq_none_iff_absent : ws.find? (·.tag = t) = none ↔ ∀ w ∈ ws, w.tag ≠ t := by
  simp [List.find?_eq_none]

/-- A placeholder is filled if its tag is there. -/
theorem exists_wordFor? {p : Placeholder} (h : p.tag ∈ ws.map Word.tag) :
    ∃ w ∈ ws, w.tag = p.tag ∧ wordFor? ws p = some w := by
  cases hw : wordFor? ws p with
  | none =>
    obtain ⟨w, hmem, htag⟩ := List.mem_map.1 h
    exact absurd htag (find?_eq_none_iff_absent.1 hw w hmem)
  | some w => exact ⟨w, List.mem_of_find?_eq_some hw, (find?_eq_some_iff_isFirst.1 hw).1, rfl⟩

theorem alike_iff : Alike ws us t ↔
    (ws.find? (·.tag = t)).map Word.gloss = (us.find? (·.tag = t)).map Word.gloss := by
  constructor
  · rintro (⟨hws, hus⟩ | ⟨hw, hu, hgloss⟩)
    · rw [find?_eq_none_iff_absent.2 hws, find?_eq_none_iff_absent.2 hus]
    · rw [find?_eq_some_iff_isFirst.2 hw, find?_eq_some_iff_isFirst.2 hu, Option.map_some,
        Option.map_some, hgloss]
  · intro h
    cases hw : ws.find? (·.tag = t) with
    | none =>
      rw [hw, Option.map_none, eq_comm, Option.map_eq_none_iff] at h
      exact .absent (find?_eq_none_iff_absent.1 hw) (find?_eq_none_iff_absent.1 h)
    | some w =>
      rw [hw, Option.map_some, eq_comm, Option.map_eq_some_iff] at h
      obtain ⟨u, hu, hgloss⟩ := h
      exact .present (find?_eq_some_iff_isFirst.1 hw) (find?_eq_some_iff_isFirst.1 hu) hgloss.symm

/-- Words that differ in other respects than part of speech and gloss are alike. -/
theorem alike_of_forall₂ (h : List.Forall₂ (fun w u => w.tag = u.tag ∧ w.gloss = u.gloss) ws us)
    (t : Tag) : Alike ws us t := by
  rw [alike_iff]
  induction h with
  | nil => rfl
  | @cons w u ws us hwu _ ih =>
    rw [List.find?_cons, List.find?_cons, hwu.1]
    split
    · simp [hwu.2]
    · exact ih

/-- A word does not matter where it has another part of speech or is not the first. -/
theorem alike_of_not_first {before after : List Word}
    (h : w.tag ≠ t ∨ ∃ v ∈ before, v.tag = w.tag) :
    Alike (before ++ w :: after) (before ++ after) t := by
  rw [alike_iff, List.find?_append, List.find?_append, List.find?_cons]
  by_cases hw : w.tag = t
  · obtain ⟨v, hv, hvw⟩ := h.resolve_left (not_not_intro hw)
    have hfound : (before.find? (·.tag = t)).isSome :=
      List.find?_isSome.2 ⟨v, hv, decide_eq_true (hvw.trans hw)⟩
    rw [Option.or_of_isSome hfound, Option.or_of_isSome hfound]
  · rw [decide_eq_false hw]

/-! ## Rendering -/

theorem fill_eq_of_alike {p : Placeholder} (h : Alike ws us p.tag) :
    fill form ws p = fill form us p := by
  rw [alike_iff] at h
  unfold fill wordFor?
  cases hw : ws.find? (·.tag = p.tag) with
  | none =>
    rw [hw, Option.map_none, eq_comm, Option.map_eq_none_iff] at h
    rw [h]
  | some w =>
    rw [hw, Option.map_some, eq_comm, Option.map_eq_some_iff] at h
    obtain ⟨u, hu, hgloss⟩ := h
    simp only [hu, Word.plain, hgloss]

theorem renderRaw_eq_of_alike {segs : List Segment}
    (h : ∀ p, Segment.placeholder p ∈ segs → Alike ws us p.tag) :
    renderRaw form ws segs = renderRaw form us segs := by
  induction segs with
  | nil => rfl
  | cons seg segs ih =>
    have hrest := ih fun p hp => h p (List.mem_cons_of_mem _ hp)
    rw [renderRaw, renderRaw, hrest]
    cases seg with
    | literal | stray => rfl
    | placeholder p => simp only [renderSegment, fill_eq_of_alike (h p List.mem_cons_self)]

theorem mem_placeholders {tmpl : Template} {p : Placeholder} :
    p ∈ tmpl.placeholders ↔ Segment.placeholder p ∈ tmpl.segments := by
  rw [Template.placeholders, List.mem_filterMap]
  constructor
  · rintro ⟨seg, hseg, hp⟩
    cases seg with
    | literal | stray => cases hp
    | placeholder q =>
      obtain rfl := Option.some.inj hp
      exact hseg
  · exact fun h => ⟨_, h, rfl⟩

theorem render_eq_of_alike {tmpl : Template} (h : ∀ p ∈ tmpl.placeholders, Alike ws us p.tag) :
    render form ws tmpl = render form us tmpl := by
  rw [render, render, renderRaw_eq_of_alike fun p hp => h p (mem_placeholders.2 hp)]

/-- **A rendered text depends on the first words only.**  Two lists that give one
    gloss or none for each part of speech of the placeholders have the same text or
    failure, and the same queries are made.  So words may differ in their signs,
    confidences and spellings, and a word may be put in or left out if no placeholder
    has its part of speech or it is not the first of it. -/
theorem render_depends_on_first_words (form : Morphology) (tmpl : Template) :
    (∀ ws us, (∀ p ∈ tmpl.placeholders, Alike ws us p.tag) →
      (render form ws tmpl).result = (render form us tmpl).result ∧
      (render form ws tmpl).queries = (render form us tmpl).queries) ∧
    (∀ ws us, List.Forall₂ (fun w u : Word => w.tag = u.tag ∧ w.gloss = u.gloss) ws us →
      render form ws tmpl = render form us tmpl) ∧
    ∀ before w after,
      ((∀ p ∈ tmpl.placeholders, p.tag ≠ w.tag) ∨ ∃ v ∈ before, Word.tag v = w.tag) →
      render form (before ++ w :: after) tmpl = render form (before ++ after) tmpl := by
  refine ⟨fun ws us h => ?_, fun ws us h => ?_, fun before w after h => ?_⟩
  · rw [render_eq_of_alike h]
    exact ⟨rfl, rfl⟩
  · exact render_eq_of_alike fun p _ => alike_of_forall₂ h p.tag
  · refine render_eq_of_alike fun p hp => alike_of_not_first ?_
    exact h.imp_left fun hother => (hother p hp).symm

/-- Two lists of different lengths and orders, and a morphology that fails: the verbs
    have one gloss though they are other signs, a numeral is not referred to, and the
    second verb is not the first. -/
theorem render_depends_on_first_words_failing :
    let tmpl : Template := ⟨[.placeholder ⟨.verb, [⟨"conj", "pres"⟩]⟩, .literal " ",
      .placeholder ⟨⟨"PRON"⟩, []⟩, .placeholder ⟨⟨"ADJ"⟩, []⟩, .placeholder ⟨.verb, []⟩]⟩
    let form : Morphology := fun gloss code _ =>
      if code = "pres" then .ok (some "quiero") else .error (.morphology gloss "no table")
    let half : Single := .ofRatio false 1 2
    let zero : Single := .ofRatio false 0 1
    let ws : List Word := [⟨"YO", ⟨"YO", ⟨"PRON"⟩, none⟩, half⟩,
      ⟨"QUERER", ⟨"QUERER", .verb, none⟩, half⟩]
    let us : List Word := [⟨"DOS", ⟨"DOS", ⟨"NUM"⟩, none⟩, half⟩,
      ⟨"WANT", ⟨"QUERER", .verb, some "querer"⟩, zero⟩,
      ⟨"AMAR", ⟨"AMAR", .verb, none⟩, half⟩,
      ⟨"I", ⟨"YO", ⟨"PRON"⟩, none⟩, zero⟩]
    (render form ws tmpl).result = .error (.morphology "QUERER" "no table") ∧
      (render form us tmpl).result = .error (.morphology "QUERER" "no table") ∧
      (render form us tmpl).queries =
        [.form "QUERER" "pres" none, .form "QUERER" "infinitive" none] := by
  intro tmpl form half zero ws us
  have halike : ∀ p ∈ tmpl.placeholders, Alike ws us p.tag := by
    simp only [alike_iff]
    decide +kernel
  obtain ⟨hresult, hqueries⟩ := (render_depends_on_first_words form tmpl).1 ws us halike
  have hfails : (render form ws tmpl).result = .error (.morphology "QUERER" "no table") := by
    decide +kernel
  have hasked : (render form ws tmpl).queries =
      [.form "QUERER" "pres" none, .form "QUERER" "infinitive" none] := by decide +kernel
  exact ⟨hfails, hresult.symm.trans hfails, hqueries.symm.trans hasked⟩

end SignGloss
