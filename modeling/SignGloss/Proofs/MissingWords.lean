/-
  Placeholders that never have a word.

  * `Rule.missing r`: the tags that are reported as not in the pattern of a rule;
  * `Template.without t tags`: the template without its placeholders for some tags.

  A placeholder without a word is no text and makes no query, so that it may be left
  out (`render_without`).

  Main statement: whatever words fit the pattern of a rule, its template is rendered
  as it is without the placeholders that are reported, and all others have a word
  (`render_without_missing`).
-/
import SignGloss.Proofs.FirstWords
import SignGloss.Proofs.RawText
import SignGloss.Proofs.RuleFindings

namespace SignGloss

/-- The tags that are reported as not in the pattern. -/
def Rule.missing (r : Rule) : List Tag := (lintRule r).filterMap Finding.missing?

/-- The segment is no placeholder for one of the tags. -/
def Segment.avoids (tags : List Tag) : Segment → Bool
  | .placeholder p => p.tag ∉ tags
  | .literal _ | .stray _ => true

/-- The template without the placeholders for some tags. -/
def Template.without (t : Template) (tags : List Tag) : Template :=
  ⟨t.segments.filter (·.avoids tags)⟩

variable {form : Morphology} {ws : List Word} {tags : List Tag} {t : Template} {ph : Placeholder}

/-! ## Leaving out placeholders -/

theorem mem_placeholders_without :
    ph ∈ (t.without tags).placeholders ↔ ph ∈ t.placeholders ∧ ph.tag ∉ tags := by
  rw [mem_placeholders, mem_placeholders, Template.without, List.mem_filter, Segment.avoids,
    decide_eq_true_iff]

/-- A placeholder without a word is no text. -/
theorem fill_of_absent (h : ∀ w ∈ ws, w.tag ≠ ph.tag) : fill form ws ph = pure "" := by
  rw [fill, wordFor?, find?_eq_none_iff_absent.2 h]

/-- Placeholders for tags that no word has may be left out. -/
theorem render_without (h : ∀ w ∈ ws, w.tag ∉ tags) :
    render form ws (t.without tags) = render form ws t := by
  rw [render, render, Template.without, renderRaw_filter]
  intro seg _ hseg
  cases seg with
  | literal | stray => cases hseg
  | placeholder p =>
    have hp : p.tag ∈ tags := by simpa [Segment.avoids] using hseg
    exact fill_of_absent fun w hw htag => h w hw (htag ▸ hp)

/-! ## Rules -/

variable {r : Rule} {p : Pattern}

/-- The tags that are reported are those of placeholders that the pattern does not have. -/
theorem mem_missing_iff {tag : Tag} (hp : Pattern.parse r.pattern = .ok p) :
    tag ∈ r.missing ↔ tag ∈ (Template.parse r.template).references ∧ tag ∉ p.tags := by
  rw [Rule.missing, filterMap_lintRule hp rfl fun _ => missing?_tagFinding?, List.mem_filter,
    mem_distinct, decide_eq_true_iff, List.count_eq_zero]

/-- A placeholder shows the word that is found for it: a form of a verb that is known, or
    else its plain form. -/
theorem text_of_fill {w : Word} {text : String} (hw : wordFor? ws ph = some w)
    (h : (fill form ws ph).result = .ok text) :
    text = w.plain ∨ form w.gloss ph.code ph.person = .ok (some text) := by
  rw [fill, hw] at h
  by_cases hverb : ph.tag = .verb
  · simp only [if_pos hverb] at h
    obtain ⟨known, hknown, h⟩ := Consultation.result_bind_eq_ok_iff.1 h
    obtain rfl := Consultation.result_pure_eq_ok_iff.1 h
    cases known with
    | none => exact Or.inl rfl
    | some s => exact Or.inr hknown
  · simp only [if_neg hverb] at h
    exact Or.inl (Consultation.result_pure_eq_ok_iff.1 h).symm

/-- **The placeholders that are reported as not in the pattern are dead.**  Whatever
    words fit the pattern of a rule, and whatever the morphology answers, the template
    has the text or failure, and makes the queries, that it does without them.  There
    is no word for any of them, and all that remain show one of the words. -/
theorem render_without_missing (r : Rule) (p : Pattern) (hp : Pattern.parse r.pattern = .ok p)
    (form : Morphology) (ws : List Word) (hfit : p.Fits ws) :
    let t := Template.parse r.template
    ((render form ws t).result = (render form ws (t.without r.missing)).result ∧
      (render form ws t).queries = (render form ws (t.without r.missing)).queries) ∧
    (∀ ph ∈ (t.without r.missing).placeholders, ∃ w ∈ ws, w.tag = ph.tag ∧
      wordFor? ws ph = some w ∧ ∀ text, (fill form ws ph).result = .ok text →
        text = w.plain ∨ form w.gloss ph.code ph.person = .ok (some text)) ∧
    ∀ ph ∈ t.placeholders, ph.tag ∈ r.missing → wordFor? ws ph = none := by
  intro t
  have htags : ws.map Word.tag = p.tags := Pattern.fits_iff.1 hfit
  have habsent : ∀ w ∈ ws, w.tag ∉ r.missing := by
    intro w hw hmem
    have hnot := ((mem_missing_iff hp).1 hmem).2
    rw [← htags] at hnot
    exact hnot (List.mem_map_of_mem hw)
  refine ⟨?_, fun ph hph => ?_, fun ph _ hmissing => ?_⟩
  · rw [render_without habsent]
    exact ⟨rfl, rfl⟩
  · obtain ⟨hmem, hkept⟩ := mem_placeholders_without.1 hph
    have htag : ph.tag ∈ ws.map Word.tag := by
      by_contra hnot
      rw [htags] at hnot
      exact hkept ((mem_missing_iff hp).2 ⟨List.mem_map_of_mem hmem, hnot⟩)
    obtain ⟨w, hw, hsame, hfound⟩ := exists_wordFor? htag
    exact ⟨w, hw, hsame, hfound, fun text => text_of_fill hfound⟩
  · refine find?_eq_none_iff_absent.2 fun w hw htag => ?_
    exact habsent w hw (htag ▸ hmissing)

/-- A placeholder for a verb among those that are reported: a morphology that always
    fails is not asked. -/
theorem render_without_missing_verb :
    let r : Rule :=
      { id := 3, pattern := "[PRON] [NOUN]",
        template := "\x7bADV\x7d\x7bPRON\x7d \x7bVERB:conj=pres\x7d \x7bNOUN\x7d" }
    let form : Morphology := fun gloss _ _ => .error (.morphology gloss "no table")
    let half : Single := .ofRatio false 1 2
    let ws : List Word := [⟨"S1", ⟨"YO", ⟨"PRON"⟩, none⟩, half⟩,
      ⟨"S2", ⟨"PAN", ⟨"NOUN"⟩, none⟩, half⟩]
    r.missing = [⟨"ADV"⟩, .verb] ∧
      (render form ws ((Template.parse r.template).without [⟨"ADV"⟩, .verb])).result = .ok "yo pan" ∧
      (render form ws (Template.parse r.template)).result = .ok "yo pan" ∧
      (render form ws (Template.parse r.template)).queries = [] := by
  intro r form half ws
  have hp : Pattern.parse r.pattern = .ok ⟨[⟨"PRON"⟩, ⟨"NOUN"⟩]⟩ := by decide +kernel
  have hmissing : r.missing = [⟨"ADV"⟩, .verb] := by decide +kernel
  obtain ⟨⟨hresult, hqueries⟩, -⟩ :=
    render_without_missing r _ hp form ws (Pattern.fits_iff.2 (by decide))
  rw [hmissing] at hresult hqueries
  have htext : (render form ws ((Template.parse r.template).without [⟨"ADV"⟩, .verb])).result =
      .ok "yo pan" := by decide +kernel
  exact ⟨hmissing, htext, hresult.trans htext, hqueries.trans (by decide +kernel)⟩

end SignGloss
