/-
  Interpretations from a catalog.

  A catalog answers every query, with at least one sense for a sign, so that each
  token has a word (`Catalog.word`) and an interpretation is determined by the
  words (`interpret_eq_answer`).

  Main statement: the rule that answers a request is the best of all rules that
  were accepted into the catalog (`interpret_by_best_rule`).
-/
import SignGloss.Proofs.Edits
import SignGloss.Proofs.Outcomes
import SignGloss.Proofs.Selection

namespace SignGloss.Catalog

variable (c : Catalog)

/-- A sign has a sense. -/
theorem senses_ne_nil (sign : String) : c.senses sign ≠ [] := by
  unfold senses
  simp only
  split
  · simp
  · rename_i h
    simpa using h

/-- The word of a token, with the first of its senses. -/
def word (t : Token) : Word := ⟨t.sign, (c.senses t.sign).head (c.senses_ne_nil t.sign), t.confidence⟩

/-! ## Success -/

theorem reliable_sources : c.sources.Reliable := fun q => by cases q <;> rfl

theorem words_sources (ts : List Token) : c.sources.words ts = ts.map c.word := by
  rw [← List.filterMap_eq_map]
  refine List.filterMap_congr fun t _ => ?_
  simp [sources, Token.word?, word, List.head?_eq_some_head (c.senses_ne_nil t.sign)]

/-- An interpretation is determined by the words. -/
theorem interpret_eq_answer (req : Request) :
    c.interpret req = (answer c.sources req (req.tokens.map c.word)).result := by
  rw [interpret, c.reliable_sources.result_interpret, words_sources]

/-! ## The case that answers -/

/-- Fewer than two tokens need no rule. -/
theorem interpret_of_lt_two {req : Request} (h : req.tokens.length < 2) :
    ∃ i, c.interpret req = .ok i ∧ (i.outcome = .empty ∨ i.outcome = .singleSign) := by
  rw [interpret_eq_answer]
  match ht : req.tokens, h with
  | [], _ => exact ⟨_, by simp only [List.map_nil, answer, ht, if_true]; rfl, Or.inl rfl⟩
  | [t], _ => exact ⟨_, rfl, Or.inr rfl⟩

/-- Two tokens or more are answered by their words. -/
theorem interpret_of_two_le {req : Request} (h : 2 ≤ req.tokens.length) :
    c.interpret req = (interpretWords c.sources req.locale (req.tokens.map c.word)).result := by
  rw [interpret_eq_answer, answer_of_two_le (by simpa using h)]

variable {c}

/-- The best of the rules that were accepted answers. -/
theorem Reached.interpret_of_isBest {es : List Edit} (hc : c.Reached es) {req : Request}
    (h2 : 2 ≤ req.tokens.length) {r : Rule} (hr : r.IsBest (es.filterMap Edit.rule?) req.locale
      (req.tokens.map fun t => (c.word t).tag)) :
    ∃ text, (render c.sources.form (req.tokens.map c.word) (Template.parse r.template)).result =
        .ok text ∧
      c.interpret req =
        .ok ⟨{ text, confidence := ruleConfidence }, .ruleMatch r.id, req.tokens.map c.word⟩ := by
  have h : selectRule? (c.activeRules req.locale) ((req.tokens.map c.word).map Word.tag) = some r := by
    rw [hc.activeRules_eq, List.map_map]
    exact (selectRule?_activeRules hc.nodup_rules).2 hr
  obtain ⟨text, ht⟩ := c.reliable_sources.exists_result
    (follows_render (req.tokens.map c.word) (Template.parse r.template))
  refine ⟨text, ht, ?_⟩
  rw [c.interpret_of_two_le h2]
  exact result_interpretWords_some (show c.sources.rules _ = .ok (c.activeRules _) from rfl) h ht

/-- Where none of the rules that were accepted answers, words are joined. -/
theorem Reached.interpret_of_not_answers {es : List Edit} (hc : c.Reached es) {req : Request}
    (h2 : 2 ≤ req.tokens.length) (hn : ∀ r ∈ es.filterMap Edit.rule?,
      ¬ r.Answers req.locale (req.tokens.map fun t => (c.word t).tag)) :
    c.interpret req = .ok ⟨{
      text := joinedText (req.tokens.map c.word)
      confidence := joinedConfidence }, .joined, req.tokens.map c.word⟩ := by
  rw [c.interpret_of_two_le h2]
  refine result_interpretWords_none (show c.sources.rules _ = .ok (c.activeRules _) from rfl) ?_
  rw [hc.activeRules_eq, List.map_map]
  exact selectRule?_activeRules_eq_none.2 hn

/-- **A request is answered by the best rule.**  Here `es` are the items that were
    accepted into the catalog. -/
theorem interpret_by_best_rule {es : List Edit} (hc : c.Reached es) (req : Request) :
    let rules := es.filterMap Edit.rule?
    let tags := req.tokens.map fun t => (c.word t).tag
    ∃ i, c.interpret req = .ok i ∧
      (∀ id, i.outcome = .ruleMatch id ↔
        2 ≤ req.tokens.length ∧ ∃ r : Rule, r.IsBest rules req.locale tags ∧ r.id = id) ∧
      (∀ r : Rule, 2 ≤ req.tokens.length → r.IsBest rules req.locale tags →
        (render c.sources.form (req.tokens.map c.word) (Template.parse r.template)).result =
          .ok i.response.text) ∧
      (i.outcome = .joined ↔
        2 ≤ req.tokens.length ∧ ∀ r ∈ rules, ¬ r.Answers req.locale tags) := by
  intro rules tags
  have hd : (rules.map Rule.id).Nodup := hc.nodup_rules
  by_cases h2 : 2 ≤ req.tokens.length
  · rcases exists_isBest_or_not_answers hd req.locale tags with ⟨r, hr⟩ | hn
    · obtain ⟨text, ht, hi⟩ := hc.interpret_of_isBest h2 hr
      refine ⟨_, hi, fun id => ?_, fun r' _ hr' => ?_, ?_⟩
      · simp only [h2, true_and, Outcome.ruleMatch.injEq]
        constructor
        · rintro rfl
          exact ⟨r, hr, rfl⟩
        · rintro ⟨r', hr', rfl⟩
          rw [hr.eq hd hr']
      · rw [hr'.eq hd hr]
        exact ht
      · simp only [reduceCtorEq, h2, true_and, false_iff]
        exact fun hn => hn r hr.mem hr.answers
    · have hnone : ∀ r : Rule, ¬ r.IsBest rules req.locale tags :=
        fun r hr => hn r hr.mem hr.answers
      refine ⟨_, hc.interpret_of_not_answers h2 hn, fun id => ?_, fun r _ hr => ?_, ?_⟩
      · simp [hnone]
      · exact absurd hr (hnone r)
      · simp only [h2, true_and, true_iff]
        exact hn
  · obtain ⟨i, hi, ho⟩ := c.interpret_of_lt_two (Nat.lt_of_not_le h2)
    refine ⟨i, hi, fun id => ?_, fun r h => absurd h h2, ?_⟩
    · rcases ho with ho | ho <;> simp [ho, h2]
    · rcases ho with ho | ho <;> simp [ho, h2]

/-- Of four rules with one pattern, one is switched off and one is for another
    locale; of the others, which have one weight, the one with the smaller
    identifier answers. -/
theorem interpret_by_best_rule_tie :
    let d : Document := {
      lexemes := [⟨1, "YO", ⟨"PRON"⟩, none⟩, ⟨2, "QUERER", ⟨"VERB"⟩, none⟩]
      links := [⟨"YO", 1, 0⟩, ⟨"QUERER", 2, 0⟩]
      rules := [
        { id := 9, pattern := "[PRON] [VERB]", template := "nueve", weight := 20 },
        { id := 1, pattern := "[PRON] [VERB]", template := "uno", weight := 99, active := false },
        { id := 2, pattern := "[PRON] [VERB]", template := "dos", weight := 99,
          locale := some "es-ES" },
        { id := 3, pattern := "[PRON][VERB]", template := "{PRON}  {VERB:conj=pres,persona=1}",
          weight := 20, locale := some "es-mx" }] }
    let c := spanish.putAll d.edits
    c.Reached d.edits ∧ ∃ i, c.interpret (.ofSigns ["YO", "QUERER"] "es-MX") = .ok i ∧
      i.outcome = .ruleMatch 3 ∧ i.response.text = "yo quiero" := by
  intro d c
  have hc : c.Reached d.edits := .document (addAll_eq_ok_iff.2 ⟨by decide +kernel, rfl⟩)
  have hbest : Rule.IsBest d.rules "es-MX" [⟨"PRON"⟩, ⟨"VERB"⟩] d.rules[3] := by
    refine ⟨List.getElem_mem _, ⟨rfl, fun s hs => ?_, by decide +kernel⟩, fun r hr ha => ?_⟩
    · obtain rfl := Option.some.inj hs
      decide +kernel
    · simp only [d, List.mem_cons, List.not_mem_nil, or_false] at hr
      rcases hr with rfl | rfl | rfl | rfl
      · exact Or.inr (by decide)
      · cases ha.active
      · exact absurd (ha.scope _ rfl) (by decide +kernel)
      · exact Or.inr (by decide)
  have htags : [⟨"PRON"⟩, ⟨"VERB"⟩] =
      ["YO", "QUERER"].map fun s => (c.word { sign := s }).tag := by decide +kernel
  obtain ⟨i, hi, hrule, htext, -⟩ := interpret_by_best_rule hc (.ofSigns ["YO", "QUERER"] "es-MX")
  rw [Document.rules_edits] at hrule htext
  rw [htags] at hbest
  refine ⟨hc, i, hi, (hrule 3).2 ⟨by decide, _, hbest, rfl⟩, ?_⟩
  have hyes := htext _ (by decide) hbest
  have hsay : (render c.sources.form (["YO", "QUERER"].map fun s => c.word { sign := s })
      (Template.parse d.rules[3].template)).result = .ok "yo quiero" := by decide +kernel
  exact Except.ok.inj (hyes.symm.trans hsay)

end SignGloss.Catalog
