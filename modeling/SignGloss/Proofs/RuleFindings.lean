/-
  What the findings about one rule say of the words it is applied to.

  * words `Fit` a pattern if their parts of speech are its tags; as any tag has
    words, what holds of all words that fit holds of the tags (`forall_fits_iff`);
  * `Finding.missing?` and `Finding.repeated?` are the tag that a finding reports
    as not in the pattern, and as repeated there.

  Main statement: there is no finding iff the pattern is read, there is no stray
  brace, and every placeholder has exactly one word among those that fit.
  Otherwise the tags reported are those that never have a word, or always have
  several (`lintRule_guarantee`).
-/
import Mathlib.Data.List.Basic
import SignGloss.Lint
import SignGloss.Render

namespace SignGloss

/-! ## Words that fit -/

/-- The words are those of a pattern, in its order. -/
def Pattern.Fits (p : Pattern) (ws : List Word) : Prop := p.matchesTags (ws.map Word.tag) = true

theorem Pattern.fits_iff {p : Pattern} {ws : List Word} : p.Fits ws ↔ ws.map Word.tag = p.tags :=
  Pattern.matchesTags_iff

/-- There are words for all tags. -/
theorem exists_words (ts : List Tag) : ∃ ws : List Word, ws.map Word.tag = ts := by
  induction ts with
  | nil => exact ⟨[], rfl⟩
  | cons t ts ih =>
    obtain ⟨ws, hws⟩ := ih
    exact ⟨⟨"", ⟨"", t, none⟩, ⟨false, 0, 0⟩⟩ :: ws, by rw [List.map_cons, hws]; rfl⟩

/-- What holds of the tags of all words that fit holds of those of the pattern. -/
theorem Pattern.forall_fits_iff {p : Pattern} {P : List Tag → Prop} :
    (∀ ws : List Word, p.Fits ws → P (ws.map Word.tag)) ↔ P p.tags := by
  constructor
  · intro h
    obtain ⟨ws, hws⟩ := exists_words p.tags
    have htags := h ws (fits_iff.2 hws)
    rwa [hws] at htags
  · intro h ws hws
    rwa [fits_iff.1 hws]

/-- A placeholder has one word, which fills it, iff its tag is there once. -/
theorem exists_word_iff {ws : List Word} {ph : Placeholder} :
    (∃ w, ws.filter (·.tag = ph.tag) = [w] ∧ wordFor? ws ph = some w) ↔
      (ws.map Word.tag).count ph.tag = 1 := by
  have hcount : (ws.map Word.tag).count ph.tag = (ws.filter (·.tag = ph.tag)).length := by
    rw [List.count, List.countP_map, List.countP_eq_length_filter]
    congr 1
  rw [hcount, List.length_eq_one_iff]
  constructor
  · rintro ⟨w, hw, -⟩
    exact ⟨w, hw⟩
  · rintro ⟨w, hw⟩
    exact ⟨w, hw, by rw [wordFor?, ← List.head?_filter, hw]; rfl⟩

/-! ## Findings about tags -/

namespace Finding

/-- The tag that is reported as not in the pattern. -/
def missing? : Finding → Option Tag
  | notInPattern _ t _ => some t
  | _ => none

/-- The tag that is reported as repeated in the pattern. -/
def repeated? : Finding → Option Tag
  | repeatedTag _ t => some t
  | _ => none

/-- The tag that is reported as one or the other. -/
def tag? (f : Finding) : Option Tag := f.missing?.or f.repeated?

end Finding

variable {r : Rule} {p : Pattern} {id : UInt32} {t : Tag}

/-- What is found depends on how often the pattern has the tag. -/
theorem tagFinding?_cases (id : UInt32) (p : Pattern) (t : Tag) :
    (p.tags.count t = 0 ∧ ∃ meant, tagFinding? id p t = some (.notInPattern id t meant)) ∨
      (p.tags.count t = 1 ∧ tagFinding? id p t = none) ∨
      (2 ≤ p.tags.count t ∧ tagFinding? id p t = some (.repeatedTag id t)) := by
  unfold tagFinding? Pattern.contains
  by_cases hmem : t ∈ p.tags
  · have hpos := List.count_pos_iff.2 hmem
    rw [List.contains_iff_mem.2 hmem]
    by_cases hmany : 1 < p.tags.count t
    · exact Or.inr (Or.inr ⟨hmany, by simp [hmany]⟩)
    · exact Or.inr (Or.inl ⟨by omega, by simp [hmany]⟩)
  · exact Or.inl ⟨List.count_eq_zero.2 hmem, by simp [hmem]⟩

theorem tagFinding?_eq_none_iff : tagFinding? id p t = none ↔ p.tags.count t = 1 := by
  rcases tagFinding?_cases id p t with ⟨hc, _, hf⟩ | ⟨hc, hf⟩ | ⟨hc, hf⟩
  · simp [hf, hc]
  · simp [hf, hc]
  · have hne : p.tags.count t ≠ 1 := by omega
    simp [hf, hne]

theorem missing?_tagFinding? : (tagFinding? id p t).bind Finding.missing? =
    Option.guard (fun t => p.tags.count t = 0) t := by
  rcases tagFinding?_cases id p t with ⟨hc, _, hf⟩ | ⟨hc, hf⟩ | ⟨hc, hf⟩
  · simp [hf, Option.guard, Finding.missing?, hc]
  · simp [hf, Option.guard, hc]
  · have hne : p.tags.count t ≠ 0 := by omega
    simp only [hf, Option.guard, hne, decide_false]
    rfl

theorem repeated?_tagFinding? : (tagFinding? id p t).bind Finding.repeated? =
    Option.guard (fun t => 2 ≤ p.tags.count t) t := by
  rcases tagFinding?_cases id p t with ⟨hc, _, hf⟩ | ⟨hc, hf⟩ | ⟨hc, hf⟩
  · simp [hf, Option.guard, Finding.repeated?, hc]
  · simp [hf, Option.guard, hc]
  · simp [hf, Option.guard, Finding.repeated?, hc]

theorem tag?_tagFinding? : (tagFinding? id p t).bind Finding.tag? =
    Option.guard (fun t => p.tags.count t ≠ 1) t := by
  rcases tagFinding?_cases id p t with ⟨hc, _, hf⟩ | ⟨hc, hf⟩ | ⟨hc, hf⟩
  · simp [hf, Option.guard, Finding.tag?, Finding.missing?, hc]
  · simp [hf, Option.guard, hc]
  · have hne : p.tags.count t ≠ 1 := by omega
    simp only [hf, Option.guard, ne_eq, hne, not_false_eq_true, decide_true]
    rfl

/-! ## Findings about a rule -/

/-- The tags of the placeholders, as often as they are referred to. -/
def Template.references (t : Template) : List Tag := t.placeholders.map Placeholder.tag

theorem lintRule_of_ok (h : Pattern.parse r.pattern = .ok p) :
    lintRule r = (if (Template.parse r.template).hasStray then [.strayBrace r.id] else []) ++
      (Template.parse r.template).tags.filterMap (tagFinding? r.id p) := by
  simp only [lintRule, h]

/-- Tags are reported of a rule as they are found, one by one. -/
theorem filterMap_lintRule {f : Finding → Option Tag} {q : Tag → Bool}
    (h : Pattern.parse r.pattern = .ok p) (hstray : f (.strayBrace r.id) = none)
    (hf : ∀ t, (tagFinding? r.id p t).bind f = Option.guard q t) :
    (lintRule r).filterMap f = (distinct (Template.parse r.template).references).filter q := by
  have hbrace : List.filterMap f
      (if (Template.parse r.template).hasStray then [.strayBrace r.id] else []) = [] := by
    split <;> simp [hstray]
  rw [lintRule_of_ok h, List.filterMap_append, hbrace, List.nil_append, List.filterMap_filterMap,
    funext hf, List.filterMap_eq_filter]
  rfl

theorem lintRule_eq_nil_iff : lintRule r = [] ↔
    ∃ p, Pattern.parse r.pattern = .ok p ∧ (Template.parse r.template).hasStray = false ∧
      ∀ ph ∈ (Template.parse r.template).placeholders, p.tags.count ph.tag = 1 := by
  cases hp : Pattern.parse r.pattern with
  | error e => simp [lintRule, hp]
  | ok p =>
    have htags : (Template.parse r.template).tags.filterMap (tagFinding? r.id p) = [] ↔
        ∀ ph ∈ (Template.parse r.template).placeholders, p.tags.count ph.tag = 1 := by
      simp [List.filterMap_eq_nil_iff, tagFinding?_eq_none_iff, Template.tags, mem_distinct]
    rw [lintRule_of_ok hp, List.append_eq_nil_iff, htags]
    simp

/-- Every finding is about the rule itself. -/
theorem rule_of_mem_lintRule {f : Finding} (h : f ∈ lintRule r) : f.rule = r.id := by
  unfold lintRule at h
  rcases List.mem_append.1 h with h | h
  · split at h
    · obtain rfl := List.mem_singleton.1 h
      rfl
    · cases h
  · split at h
    · obtain rfl := List.mem_singleton.1 h
      rfl
    · rename_i p _
      obtain ⟨t, -, ht⟩ := List.mem_filterMap.1 h
      rcases tagFinding?_cases r.id p t with ⟨-, _, hf⟩ | ⟨-, hf⟩ | ⟨-, hf⟩
      · obtain rfl := Option.some.inj (hf.symm.trans ht)
        rfl
      · cases hf.symm.trans ht
      · obtain rfl := Option.some.inj (hf.symm.trans ht)
        rfl

/-- **What the findings about a rule say.**  There is none iff the pattern is read,
    no brace of the template is stray, and whatever words fit the pattern, each
    placeholder is filled from the only one among them with its tag.

    Where the pattern is read, the tags reported as not in it are those referred to
    that no words that fit have, and the ones reported as repeated those that all
    words that fit have at least twice.  Tags are reported once, in the order of
    the first reference to them. -/
theorem lintRule_guarantee (r : Rule) :
    (lintRule r = [] ↔ ∃ p, Pattern.parse r.pattern = .ok p ∧
      (Template.parse r.template).hasStray = false ∧
      ∀ ws, p.Fits ws → ∀ ph ∈ (Template.parse r.template).placeholders,
        ∃ w, ws.filter (·.tag = ph.tag) = [w] ∧ wordFor? ws ph = some w) ∧
    (∀ f ∈ lintRule r, f.rule = r.id) ∧
    ∀ p, Pattern.parse r.pattern = .ok p →
      let refs := (Template.parse r.template).references
      (∀ t, t ∈ (lintRule r).filterMap Finding.missing? ↔
        t ∈ refs ∧ ∀ ws, p.Fits ws → t ∉ ws.map Word.tag) ∧
      (∀ t, t ∈ (lintRule r).filterMap Finding.repeated? ↔
        t ∈ refs ∧ ∀ ws, p.Fits ws → 2 ≤ (ws.map Word.tag).count t) ∧
      ((lintRule r).filterMap Finding.tag?).Pairwise fun t u => refs.idxOf t < refs.idxOf u := by
  refine ⟨?_, fun f => rule_of_mem_lintRule, fun p hp => ⟨fun t => ?_, fun t => ?_, ?_⟩⟩
  · rw [lintRule_eq_nil_iff]
    refine exists_congr fun p => and_congr_right fun _ => and_congr_right fun _ => ?_
    simp only [exists_word_iff]
    exact (Pattern.forall_fits_iff (P := fun ts =>
      ∀ ph ∈ (Template.parse r.template).placeholders, ts.count ph.tag = 1)).symm
  · rw [filterMap_lintRule hp rfl fun _ => missing?_tagFinding?, List.mem_filter, mem_distinct,
      Pattern.forall_fits_iff (P := (t ∉ ·)), decide_eq_true_iff, List.count_eq_zero]
  · rw [filterMap_lintRule hp rfl fun _ => repeated?_tagFinding?, List.mem_filter, mem_distinct,
      Pattern.forall_fits_iff (P := (2 ≤ List.count t ·)), decide_eq_true_iff]
  · rw [filterMap_lintRule hp rfl fun _ => tag?_tagFinding?]
    exact (pairwise_distinct _).filter _

/-- Two verbs for one placeholder, and a placeholder that never has a word. -/
theorem lintRule_guarantee_verbs :
    let r : Rule := { id := 7, pattern := "[VERB] [VERB] [N]", template := "{ADV} {N} {VERB}{ADV}" }
    lintRule r ≠ [] ∧ ⟨"ADV"⟩ ∈ (lintRule r).filterMap Finding.missing? ∧
      ⟨"VERB"⟩ ∈ (lintRule r).filterMap Finding.repeated? := by
  intro r
  have hp : Pattern.parse r.pattern = .ok ⟨[⟨"VERB"⟩, ⟨"VERB"⟩, ⟨"N"⟩]⟩ := by decide +kernel
  have hrefs : (Template.parse r.template).references =
      [⟨"ADV"⟩, ⟨"N"⟩, ⟨"VERB"⟩, ⟨"ADV"⟩] := by decide +kernel
  obtain ⟨-, -, hread⟩ := lintRule_guarantee r
  obtain ⟨hmissing, hrepeated, -⟩ := hread _ hp
  have hadv : ⟨"ADV"⟩ ∈ (lintRule r).filterMap Finding.missing? := by
    refine (hmissing _).2 ⟨by rw [hrefs]; decide, fun ws hws => ?_⟩
    rw [Pattern.fits_iff.1 hws]
    decide
  have hverb : ⟨"VERB"⟩ ∈ (lintRule r).filterMap Finding.repeated? := by
    refine (hrepeated _).2 ⟨by rw [hrefs]; decide, fun ws hws => ?_⟩
    rw [Pattern.fits_iff.1 hws]
    decide
  refine ⟨fun hnil => ?_, hadv, hverb⟩
  rw [hnil] at hadv
  cases hadv

end SignGloss
