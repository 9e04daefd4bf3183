/-
  The blanks of a rendered text.

  * `Consultation.Related R x y`: the same queries are made, and both fail alike or
    have values that are related;
  * `Segment.Respaced`: literals differ only in their stretches of blanks, and all
    else is equal.

  Raw texts of segments that differ in blanks do so, too (`renderRaw_respaced`).

  Main statement: a rendered text is the words of the raw text with single spaces
  between them, so that it does not depend on the blanks of the literals
  (`render_spacing`).
-/
import SignGloss.Proofs.RawText
import SignGloss.Proofs.Words

namespace SignGloss

/-! ## Consultations side by side -/

namespace Consultation

variable {α β : Type}

/-- The same queries are made, and both fail alike or have related values. -/
inductive Related (R : α → α → Prop) : Consultation α → Consultation α → Prop
  | error {qs e} : Related R ⟨qs, .error e⟩ ⟨qs, .error e⟩
  | ok {qs a b} : R a b → Related R ⟨qs, .ok a⟩ ⟨qs, .ok b⟩

theorem Related.bind {R : α → α → Prop} {S : β → β → Prop} {x y : Consultation α}
    {f g : α → Consultation β} (h : Related R x y)
    (hfg : ∀ a b, R a b → Related S (f a) (g b)) : Related S (x >>= f) (y >>= g) := by
  cases h with
  | error => exact .error
  | @ok qs a b hab =>
    have hbind : ∀ (k : α → Consultation β) (a : α),
        ((⟨qs, .ok a⟩ : Consultation α) >>= k) = ⟨qs ++ (k a).queries, (k a).result⟩ :=
      fun _ _ => rfl
    have hrest := hfg a b hab
    rw [hbind, hbind]
    generalize f a = u at hrest
    generalize g b = v at hrest
    cases hrest with
    | error => exact .error
    | ok hab' => exact .ok hab'

theorem Related.refl {R : α → α → Prop} (hR : ∀ a, R a a) (x : Consultation α) : Related R x x := by
  obtain ⟨qs, e | a⟩ := x
  · exact .error
  · exact .ok (hR a)

theorem Related.eq {x y : Consultation α} (h : Related Eq x y) : x = y := by
  cases h with
  | error => rfl
  | ok hab => rw [hab]

end Consultation

/-! ## Segments -/

open Text

/-- The segments differ only in the blanks of a literal. -/
inductive Segment.Respaced : Segment → Segment → Prop
  | literal {t t'} : Text.Respaced t.toList t'.toList → Respaced (.literal t) (.literal t')
  | placeholder {p} : Respaced (.placeholder p) (.placeholder p)
  | stray {c} : Respaced (.stray c) (.stray c)

variable {form : Morphology} {ws : List Word} {segs segs' : List Segment}

theorem renderSegment_respaced {seg seg' : Segment} (h : seg.Respaced seg') :
    (renderSegment form ws seg).Related (fun t t' => Text.Respaced t.toList t'.toList)
      (renderSegment form ws seg') := by
  cases h with
  | literal h => exact .ok h
  | placeholder => exact .refl (fun t => .refl t.toList) _
  | stray => exact .refl (fun t => .refl t.toList) _

/-- Raw texts of segments that differ in blanks do so, too. -/
theorem renderRaw_respaced (h : List.Forall₂ Segment.Respaced segs segs') :
    (renderRaw form ws segs).Related (fun t t' => Text.Respaced t.toList t'.toList)
      (renderRaw form ws segs') := by
  induction h with
  | nil => exact .ok .nil
  | cons hseg _ ih =>
    rw [renderRaw_cons, renderRaw_cons]
    refine (renderSegment_respaced hseg).bind fun t t' ht => ih.bind fun u u' hu => .ok ?_
    rw [String.toList_append, String.toList_append]
    exact ht.append hu

/-- **The blanks of a rendered text.**  Its words are those of the raw text, which is
    the texts of the segments put together, with single spaces between them and no
    other blanks.  What stands for a stretch of blanks in a literal does not matter:
    the text or failure is the same, and so are the queries. -/
theorem render_spacing (form : Morphology) (ws : List Word) :
    (∀ t out, (render form ws t).result = .ok out →
      ∃ texts, List.Forall₂ (fun seg u => (renderSegment form ws seg).result = .ok u)
          t.segments texts ∧
        ∃ vs, (∀ us, Falls (String.join texts).toList us ↔ us = vs) ∧
          (∀ us, Falls out.toList us ↔ us = vs) ∧ out.toList = [' '].intercalate vs ∧
          (∀ c ∈ out.toList, isBlank c = true → c = ' ') ∧
          (∀ c ∈ out.toList.head?, isBlank c = false) ∧
          ∀ c ∈ out.toList.getLast?, isBlank c = false) ∧
    ∀ segs segs', List.Forall₂ Segment.Respaced segs segs' →
      render form ws ⟨segs⟩ = render form ws ⟨segs'⟩ := by
  constructor
  · intro t out h
    obtain ⟨raw, hraw, hout⟩ := Consultation.result_bind_eq_ok_iff.1 h
    obtain rfl := Consultation.result_pure_eq_ok_iff.1 hout
    obtain ⟨texts, htexts, rfl⟩ := result_renderRaw_eq_ok_iff.1 hraw
    have hwords := (falls_words (String.join texts).toList).isWord
    refine ⟨texts, htexts, _, fun us => falls_iff.trans eq_comm, fun us => ?_, ?_⟩
    · rw [oneSpaced, String.toList_ofList, falls_iff, falls_iff.1 (falls_intercalate hwords)]
      exact eq_comm
    · rw [oneSpaced, String.toList_ofList]
      exact ⟨rfl, eq_space_of_mem_intercalate hwords,
        fun c => isBlank_of_head?_intercalate hwords,
        fun c => isBlank_of_getLast?_intercalate hwords⟩
  · intro segs segs' h
    refine ((renderRaw_respaced h).bind fun t t' ht => .ok ?_).eq
    rw [oneSpaced, oneSpaced, ht.words_eq]

/-- Blanks of several kinds around a placeholder that is removed, inside a gloss and
    inside an inflected form, and the same literals with other blanks. -/
theorem render_spacing_removed :
    let form : Morphology := fun _ _ _ => .ok (some "he\u3000ido ")
    let half : Single := .ofRatio false 1 2
    let ws : List Word := [⟨"S1", ⟨"IR", .verb, none⟩, half⟩,
      ⟨"S2", ⟨"PAN\u00a0\tDURO", ⟨"NOUN"⟩, none⟩, half⟩]
    let verb : Segment := .placeholder ⟨.verb, []⟩
    let noun : Segment := .placeholder ⟨⟨"NOUN"⟩, []⟩
    let adverb : Segment := .placeholder ⟨⟨"ADV"⟩, []⟩
    let segs : List Segment := [.literal "\n", adverb, .literal "\u2003 ", verb,
      .literal "a ", noun, .stray '{']
    let segs' : List Segment := [.literal "  ", adverb, .literal "\t", verb,
      .literal "a\u0085\r\n", noun, .stray '{']
    (render form ws ⟨segs⟩).result = .ok "he ido a pan duro\x7b" ∧
      (∀ c ∈ "he ido a pan duro\x7b".toList, isBlank c = true → c = ' ') ∧
      (render form ws ⟨segs'⟩).result = .ok "he ido a pan duro\x7b" := by
  intro form half ws verb noun adverb segs segs'
  obtain ⟨hspaced, hsame⟩ := render_spacing form ws
  have htext : (render form ws ⟨segs⟩).result = .ok "he ido a pan duro\x7b" := by decide +kernel
  have hblanks : ∀ (b b' s : List Char), b ≠ [] → b' ≠ [] → Blanks b → Blanks b' →
      Text.Respaced (b ++ s) (b' ++ s) := fun b b' s hne hne' hb hb' =>
    .blanks hne hne' hb hb' (.refl s)
  have hsegs : List.Forall₂ Segment.Respaced segs segs' :=
    .cons (.literal (hblanks ['\n'] [' ', ' '] [] (by decide) (by decide) (by decide) (by decide)))
    (.cons .placeholder
    (.cons (.literal (hblanks ['\u2003', ' '] ['\t'] [] (by decide) (by decide) (by decide)
      (by decide)))
    (.cons .placeholder
    (.cons (.literal (.char (hblanks [' '] ['\u0085', '\r', '\n'] [] (by decide) (by decide)
      (by decide) (by decide))))
    (.cons .placeholder (.cons .stray .nil))))))
  obtain ⟨_, -, _, -, -, -, hspace, -⟩ := hspaced _ _ htext
  exact ⟨htext, hspace, hsame segs segs' hsegs ▸ htext⟩

end SignGloss
