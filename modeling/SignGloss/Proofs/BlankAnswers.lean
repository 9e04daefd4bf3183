/-
  Answers that show nothing.

  * `Segment.Shows tags seg`: something of a segment can be seen where there are words
    of the parts of speech `tags`;
  * `Template.Vanishes t tags`: nothing of a template can be seen then: its literals
    are blank, and there is no word for any of its placeholders.

  A placeholder without a word is removed, and no rule is passed over because nothing
  of its template is left.

  Main statement: where the glosses and forms of a catalog and the signs of a request
  are visible, the answer is visible unless it comes from a rule whose template
  vanishes; it is empty then (`Catalog.blank_iff_template_vanishes`).
-/
import SignGloss.Proofs.CatalogAvailability
import SignGloss.Proofs.RawText
import SignGloss.Proofs.TemplateGrammar
import SignGloss.Proofs.VisibleText

namespace SignGloss

open Text (Visible visible_append visible_intercalate not_visible_empty)

/-- The segment shows something where there are words of the given parts of speech. -/
inductive Segment.Shows (tags : List Tag) : Segment → Prop
  | literal {t} : Visible t → Shows tags (.literal t)
  | placeholder {p} : p.tag ∈ tags → Shows tags (.placeholder p)
  | stray {brace} : Shows tags (.stray brace)

instance (tags : List Tag) : (seg : Segment) → Decidable (seg.Shows tags)
  | .literal t => decidable_of_iff (Visible t) ⟨.literal, fun h => by cases h; assumption⟩
  | .placeholder p => decidable_of_iff (p.tag ∈ tags) ⟨.placeholder, fun h => by cases h; assumption⟩
  | .stray _ => isTrue .stray

/-- No segment of the template shows anything. -/
def Template.Vanishes (t : Template) (tags : List Tag) : Prop :=
  ∀ seg ∈ t.segments, ¬ seg.Shows tags

instance (t : Template) (tags : List Tag) : Decidable (t.Vanishes tags) :=
  inferInstanceAs (Decidable (∀ seg ∈ t.segments, ¬ seg.Shows tags))

/-! ## Stray braces -/

namespace Template

theorem Reads.stray_eq {s : List Char} {as : List Atom} (h : Reads s as) {b : Char}
    (hb : Atom.stray b ∈ as) : b = '{' ∨ b = '}' := by
  induction h with
  | nil => cases hb
  | cons hp _ ih =>
    rcases List.mem_cons.1 hb with rfl | hb
    · cases hp with
      | strayOpening => exact Or.inl rfl
      | strayClosing => exact Or.inr rfl
    · exact ih hb

/-- The stray segments of a template are braces, which are visible. -/
theorem visible_of_stray {s : String} {b : Char} (h : .stray b ∈ (parse s).segments) :
    Visible (String.singleton b) := by
  have hatom : Atom.stray b ∈ (parse s).segments.flatMap Segment.atoms :=
    List.mem_flatMap.2 ⟨_, h, List.mem_singleton_self _⟩
  rcases (reads_parse s).stray_eq hatom with rfl | rfl <;> decide

end Template

/-! ## Rendering -/

section
variable {form : Morphology} {ws : List Word} {text : String}

variable (hform : ∀ gloss code person s, form gloss code person = .ok (some s) → Visible s)
  (hws : ∀ w ∈ ws, Visible w.gloss)
include hform hws

/-- A placeholder shows something iff there is a word for it. -/
theorem visible_of_fill {p : Placeholder} (h : (fill form ws p).result = .ok text) :
    Visible text ↔ p.tag ∈ ws.map Word.tag := by
  unfold fill wordFor? at h
  cases hw : ws.find? (·.tag = p.tag) with
  | none =>
    simp only [hw] at h
    obtain rfl : "" = text := Except.ok.inj h
    refine iff_of_false not_visible_empty fun hp => ?_
    obtain ⟨w, hmem, htag⟩ := List.mem_map.1 hp
    exact find?_eq_none_iff_absent.1 hw w hmem htag
  | some w =>
    simp only [hw] at h
    have hmem := List.mem_of_find?_eq_some hw
    have hplain : Visible w.plain := visible_plainForm (hws w hmem)
    refine iff_of_true ?_ (List.mem_map.2 ⟨w, hmem, (find?_eq_some_iff_isFirst.1 hw).1⟩)
    split at h
    · obtain ⟨known, hknown, h⟩ := Consultation.result_bind_eq_ok_iff.1 h
      obtain rfl : known.getD w.plain = text := Except.ok.inj h
      cases known with
      | none => exact hplain
      | some s => exact hform _ _ _ s hknown
    · obtain rfl : w.plain = text := Except.ok.inj h
      exact hplain

/-- Segments show something iff one of them does. -/
theorem visible_of_renderRaw {segs : List Segment}
    (hstray : ∀ b, .stray b ∈ segs → Visible (String.singleton b))
    (h : (renderRaw form ws segs).result = .ok text) :
    Visible text ↔ ∃ seg ∈ segs, seg.Shows (ws.map Word.tag) := by
  induction segs generalizing text with
  | nil =>
    obtain rfl : "" = text := Except.ok.inj h
    simp [not_visible_empty]
  | cons seg segs ih =>
    obtain ⟨t, ht, h⟩ := Consultation.result_bind_eq_ok_iff.1 h
    obtain ⟨ts, hts, h⟩ := Consultation.result_bind_eq_ok_iff.1 h
    obtain rfl : t ++ ts = text := Except.ok.inj h
    have hseg : Visible t ↔ seg.Shows (ws.map Word.tag) := by
      cases seg with
      | literal u =>
        obtain rfl : u = t := Except.ok.inj ht
        exact ⟨.literal, fun hs => by cases hs; assumption⟩
      | stray b =>
        obtain rfl : String.singleton b = t := Except.ok.inj ht
        exact ⟨fun _ => .stray, fun _ => hstray b List.mem_cons_self⟩
      | placeholder p =>
        rw [visible_of_fill hform hws ht]
        exact ⟨.placeholder, fun hs => by cases hs; assumption⟩
    rw [visible_append, hseg, ih (fun b hb => hstray b (List.mem_cons_of_mem _ hb)) hts,
      List.exists_mem_cons_iff]

/-- A template gives the empty text iff it vanishes, and a visible one otherwise. -/
theorem visible_of_render {s : String} (h : (render form ws (Template.parse s)).result = .ok text) :
    (text = "" ∨ Visible text) ∧
      (¬ Visible text ↔ (Template.parse s).Vanishes (ws.map Word.tag)) := by
  obtain ⟨raw, hraw, h⟩ := Consultation.result_bind_eq_ok_iff.1 h
  obtain rfl : Text.oneSpaced raw = text := Except.ok.inj h
  have hshows := visible_of_renderRaw hform hws (fun b => Template.visible_of_stray) hraw
  constructor
  · by_cases hv : Visible raw
    · exact Or.inr (Text.visible_oneSpaced_iff.2 hv)
    · exact Or.inl (Text.oneSpaced_eq_empty hv)
  · rw [Text.visible_oneSpaced_iff, hshows]
    simp [Template.Vanishes]

end

/-! ## Catalogs -/

namespace Catalog

variable {c : Catalog} {req : Request} {i : Interpretation}

/-- The senses of a visible sign are visible. -/
theorem visible_of_mem_senses (hgloss : ∀ id l, c.lexemes.get? id = some l → Visible l.gloss)
    {sign : String} (hsign : Visible sign) {s : Sense} (hs : s ∈ c.senses sign) :
    Visible s.gloss := by
  simp only [senses] at hs
  split at hs
  · obtain rfl := List.mem_singleton.1 hs
    exact Text.visible_toUpper hsign
  · obtain ⟨l, -, hl⟩ := List.mem_filterMap.1 hs
    obtain ⟨x, hx, rfl⟩ := Option.map_eq_some_iff.1 hl
    exact hgloss _ x hx

/-- The words of visible signs are visible. -/
theorem visible_of_mem_words (hgloss : ∀ id l, c.lexemes.get? id = some l → Visible l.gloss)
    (hsigns : ∀ t ∈ req.tokens, Visible t.sign) {w : Word} (hw : w ∈ c.sources.words req.tokens) :
    Visible w.gloss := by
  rw [words_sources] at hw
  obtain ⟨t, ht, rfl⟩ := List.mem_map.1 hw
  exact visible_of_mem_senses hgloss (hsigns t ht) (List.head_mem _)

theorem visible_of_form (hform : ∀ k s, c.forms.forms.get? k = some s → Visible s)
    {gloss code : String} {person : Option UInt8} {s : String}
    (h : c.sources.form gloss code person = .ok (some s)) : Visible s :=
  hform _ s (Except.ok.inj h)

/-- The only rule of a catalog is chosen where it answers. -/
theorem selectRule?_of_only {r : Rule} {locale : String} {ts : List Tag} (hc : c.rules = [r])
    (hr : r.Answers locale ts) : selectRule? (c.activeRules locale) ts = some r := by
  have hd : ([r].map Rule.id).Nodup := List.nodup_singleton r.id
  rw [activeRules, hc, selectRule?_activeRules hd]
  refine ⟨List.mem_singleton_self r, hr, fun r' hr' _ => ?_⟩
  rw [List.mem_singleton.1 hr']
  exact Or.inr ⟨rfl, UInt32.le_refl _⟩

/-- **An answer is blank iff nothing is left of the template that gives it.**  For the
    glosses and forms of the catalog and the signs of a request that are all visible,
    and at least one token: the answer is empty if a rule answers whose template
    vanishes for the parts of speech of the request, and visible otherwise. -/
theorem blank_iff_template_vanishes (c : Catalog)
    (hgloss : ∀ id l, c.lexemes.get? id = some l → Visible l.gloss)
    (hform : ∀ k s, c.forms.forms.get? k = some s → Visible s)
    (req : Request) (htokens : req.tokens ≠ []) (hsigns : ∀ t ∈ req.tokens, Visible t.sign) :
    let tags := req.tokens.map fun t => (c.word t).tag
    ∃ i, c.interpret req = .ok i ∧ (i.response.text = "" ∨ Visible i.response.text) ∧
      (¬ Visible i.response.text → ∃ id, i.outcome = .ruleMatch id) ∧
      (¬ Visible i.response.text ↔ 2 ≤ req.tokens.length ∧
        ∃ r, selectRule? (c.activeRules req.locale) tags = some r ∧
          (Template.parse r.template).Vanishes tags) := by
  intro tags
  obtain ⟨i, hi⟩ := c.reliable_sources.exists_answered req
  refine ⟨i, hi.result c.reliable_sources, ?_⟩
  have hwords : ∀ w ∈ c.sources.words req.tokens, Visible w.gloss :=
    fun w => visible_of_mem_words hgloss hsigns
  have htags : (c.sources.words req.tokens).map Word.tag = tags := by
    rw [words_sources, List.map_map]
    rfl
  have hlength := c.length_words_sources req.tokens
  cases hi with
  | empty ht => exact absurd ht htokens
  | unresolved ht hw =>
    rw [hw] at hlength
    exact absurd (List.length_eq_zero_iff.1 hlength.symm) ht
  | @singleSign w hw =>
    rw [hw] at hlength
    have hv : Visible (plainForm w.sense.gloss) :=
      visible_plainForm (hwords w (by rw [hw]; exact List.mem_singleton_self w))
    simp [hv, ← hlength]
  | @ruleMatch rules r text h2 hr h ht =>
    obtain rfl : c.activeRules req.locale = rules := Except.ok.inj hr
    have h : selectRule? (c.activeRules req.locale) tags = some r := by rwa [← htags]
    obtain ⟨hempty, hvanishes⟩ := visible_of_render (fun _ _ _ _ => visible_of_form hform) hwords ht
    rw [htags] at hvanishes
    refine ⟨hempty, fun _ => ⟨r.id, rfl⟩, hvanishes.trans ⟨fun hv => ?_, ?_⟩⟩
    · exact ⟨hlength ▸ h2, r, h, hv⟩
    · rintro ⟨-, r', hr', hv⟩
      rwa [Option.some.inj (h.symm.trans hr')]
  | @joined rules h2 hr h =>
    obtain rfl : c.activeRules req.locale = rules := Except.ok.inj hr
    have h : selectRule? (c.activeRules req.locale) tags = none := by rwa [← htags]
    obtain ⟨w, hw⟩ := List.exists_mem_of_length_pos (Nat.lt_of_lt_of_le Nat.zero_lt_two h2)
    have hv : Visible (" ".intercalate
        ((c.sources.words req.tokens).map fun w => plainForm w.sense.gloss)) :=
      visible_intercalate (List.mem_map_of_mem hw) (visible_plainForm (hwords w hw))
    simp [hv, h]

/-- A rule that waits for a noun, behind a pronoun and a verb: nothing is left of its
    template, while a sign of its own has a text. -/
theorem blank_iff_template_vanishes_noun :
    let d : Document := {
      lexemes := [⟨1, "YO", ⟨"PRON"⟩, none⟩, ⟨2, "QUERER", .verb, none⟩]
      links := [⟨"YO", 1, 0⟩, ⟨"QUERER", 2, 0⟩]
      rules := [{ id := 1, pattern := "[PRON] [VERB]", template := " \x7bNOUN\x7d " }] }
    let c := spanish.putAll d.edits
    (∀ id l, c.lexemes.get? id = some l → Visible l.gloss) ∧
      (∀ k s, c.forms.forms.get? k = some s → Visible s) ∧
      (∃ i, c.interpret (.ofSigns ["YO", "QUERER"] "es-MX") = .ok i ∧ i.response.text = "" ∧
        ∃ id, i.outcome = .ruleMatch id) ∧
      ∃ i, c.interpret (.ofSigns ["YO"] "es-MX") = .ok i ∧ Visible i.response.text := by
  intro d c
  have hgloss : ∀ id l, c.lexemes.get? id = some l → Visible l.gloss := by
    have hall : ∀ e ∈ c.lexemes.entries, Visible e.2.gloss := by decide +kernel
    exact fun id l h => hall _ (Table.mem_entries_of_get? h)
  have hform : ∀ k s, c.forms.forms.get? k = some s → Visible s := by
    have hall : ∀ e ∈ c.forms.forms.entries, Visible e.2 := by decide +kernel
    exact fun k s h => hall _ (Table.mem_entries_of_get? h)
  refine ⟨hgloss, hform, ?_, ?_⟩
  · obtain ⟨i, hi, hempty, houtcome, hblank⟩ := blank_iff_template_vanishes c hgloss hform
      (.ofSigns ["YO", "QUERER"] "es-MX") (by decide) (by decide)
    have hvanishes := hblank.2 ⟨by decide, d.rules[0],
      selectRule?_of_only rfl ⟨rfl, by simp [d], by decide +kernel⟩, by decide +kernel⟩
    exact ⟨i, hi, hempty.resolve_right hvanishes, houtcome hvanishes⟩
  · obtain ⟨i, hi, -, -, hblank⟩ := blank_iff_template_vanishes c hgloss hform
      (.ofSigns ["YO"] "es-MX") (by decide) (by decide)
    refine ⟨i, hi, ?_⟩
    by_contra h
    exact absurd (hblank.1 h).1 (by decide)

/-- Not every answer shows something: here all signs, glosses and forms are visible,
    and the rule that answers has a placeholder for which there is no word. -/
theorem interpret_blank_text :
    let d : Document := {
      rules := [{ id := 1, pattern := "[INTJ] [INTJ]", template := "\x7bADJ\x7d" }] }
    let req : Request := .ofSigns ["HOLA", "ADIOS"] "es-MX"
    ∃ c, ofDocument d = .ok c ∧ (∀ id l, c.lexemes.get? id = some l → Visible l.gloss) ∧
      (∀ k s, c.forms.forms.get? k = some s → Visible s) ∧
      req.tokens ≠ [] ∧ (∀ t ∈ req.tokens, Visible t.sign) ∧
      ∃ i, c.interpret req = .ok i ∧ i.response = { text := "", confidence := ruleConfidence } ∧
        i.outcome = .ruleMatch 1 ∧ ¬ Visible i.response.text := by
  intro d req
  have hadd : ofDocument d = .ok (spanish.putAll d.edits) :=
    addAll_eq_ok_iff.2 ⟨by decide +kernel, rfl⟩
  refine ⟨_, hadd, fun id l h => ?_, fun k s h => ?_, by decide, by decide, ?_⟩
  · cases h
  · have hall : ∀ e ∈ (spanish.putAll d.edits).forms.forms.entries, Visible e.2 := by decide +kernel
    exact hall _ (Table.mem_entries_of_get? h)
  · have hanswered : Answered (spanish.putAll d.edits).sources req
        ⟨{ text := "", confidence := .ofRatio false 8 10 }, .ruleMatch d.rules[0].id,
          (spanish.putAll d.edits).sources.words req.tokens⟩ :=
      .ruleMatch (by decide +kernel) rfl
        (selectRule?_of_only rfl ⟨rfl, by simp [d], by decide +kernel⟩) (by decide +kernel)
    exact ⟨_, hanswered.result (reliable_sources _), rfl, rfl, not_visible_empty⟩

end Catalog

end SignGloss
