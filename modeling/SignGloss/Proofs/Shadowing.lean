/-
  Rules that are never chosen.

  * a rule `Shadows` another one if it is active, comes before it in the order of
    priorities, has the same pattern, and applies wherever the other does.

  Main statements: a rule is reported as shadowed iff it is active and some rule
  shadows it (`exists_shadowed_mem_lint_iff`), and that is so iff it is chosen in
  no locale for no sequence of tags (`shadowed_iff_never_chosen`).
-/
import SignGloss.Lint
import SignGloss.Proofs.Selection
import SignGloss.Proofs.VerbatimLocale

namespace SignGloss

/-- `e` is preferred to `r` wherever `r` could be chosen. -/
structure Rule.Shadows (e r : Rule) : Prop where
  active : e.active = true
  pattern : ∃ p, Pattern.parse e.pattern = .ok p ∧ Pattern.parse r.pattern = .ok p
  scope : covers e.locale r.locale = true
  before : e.priority.le r.priority = true ∧ e.priority ≠ r.priority

theorem covers_iff {outer inner : Option String} : covers outer inner = true ↔
    ∀ a, outer = some a → ∃ b, inner = some b ∧ Locale.canonical a = Locale.canonical b := by
  cases outer <;> cases inner <;> simp [covers]

/-! ## Candidates -/

variable {rules : List Rule}

theorem candidate?_eq_some {r : Rule} {c : Rule × Pattern} :
    candidate? r = some c ↔ r.active = true ∧ Pattern.parse r.pattern = .ok c.2 ∧ r = c.1 := by
  obtain ⟨r', p⟩ := c
  unfold candidate?
  split
  · rename_i ha
    cases Pattern.parse r.pattern <;> simp [ha, and_comm]
  · rename_i ha
    simp [ha]

theorem mem_candidates {c : Rule × Pattern} : c ∈ candidates rules ↔
    c.1 ∈ rules ∧ c.1.active = true ∧ Pattern.parse c.1.pattern = .ok c.2 := by
  simp only [candidates, mem_sortByPriority, List.mem_filterMap, candidate?_eq_some]
  constructor
  · rintro ⟨r, hr, ha, hp, rfl⟩
    exact ⟨hr, ha, hp⟩
  · rintro ⟨hr, ha, hp⟩
    exact ⟨_, hr, ha, hp, rfl⟩

theorem pairwise_candidates (rules : List Rule) :
    (candidates rules).Pairwise fun c d => c.1.priority.le d.1.priority = true := by
  rw [candidates]
  exact pairwise_sortByPriority (fun c : Rule × Pattern => c.1.priority) _

/-- The candidates are some of the rules, in another order. -/
theorem sublist_filterMap_candidate? (rules : List Rule) :
    ((rules.filterMap candidate?).map Prod.fst).Sublist rules := by
  induction rules with
  | nil => exact List.Sublist.slnil
  | cons r rules ih =>
    rw [List.filterMap_cons]
    split
    · exact ih.cons r
    · rename_i c hc
      obtain ⟨-, -, rfl⟩ := candidate?_eq_some.1 hc
      exact ih.cons_cons c.1

theorem nodup_candidates (hd : (rules.map Rule.id).Nodup) :
    ((candidates rules).map fun c => c.1.id).Nodup := by
  have hp := (sortByPriority_perm (fun c => c.1.priority) (rules.filterMap candidate?)).map
    fun c => c.1.id
  refine hp.nodup_iff.2 ?_
  have hs := (sublist_filterMap_candidate? rules).map Rule.id
  rw [List.map_map] at hs
  exact hs.nodup hd

/-! ## Findings -/

theorem winner?_eq_none {earlier : List (Rule × Pattern)} {c : Rule × Pattern} :
    winner? earlier c = none ↔
      ∀ e ∈ earlier, ¬ (e.2 = c.2 ∧ covers e.1.locale c.1.locale = true) := by
  simp [winner?]

theorem of_winner?_eq_some {earlier : List (Rule × Pattern)} {c e : Rule × Pattern}
    (h : winner? earlier c = some e) :
    e ∈ earlier ∧ e.2 = c.2 ∧ covers e.1.locale c.1.locale = true := by
  have hp := List.find?_some h
  rw [Bool.and_eq_true, decide_eq_true_eq] at hp
  exact ⟨List.mem_of_find?_eq_some h, hp⟩

/-- What is found about a candidate depends on the candidates before it. -/
theorem mem_shadowedAfter {i w : UInt32} {earlier cs : List (Rule × Pattern)} :
    Finding.shadowed i w ∈ shadowedAfter earlier cs ↔ ∃ pre c post e, cs = pre ++ c :: post ∧
      winner? (earlier ++ pre) c = some e ∧ i = c.1.id ∧ w = e.1.id := by
  induction cs generalizing earlier with
  | nil => simp [shadowedAfter]
  | cons d cs ih =>
    rw [shadowedAfter, List.mem_append, ih]
    constructor
    · rintro (h | ⟨pre, c, post, e, rfl, he, hi, hw⟩)
      · cases hd : winner? earlier d with
        | none => simp [hd] at h
        | some e =>
          simp only [hd, Option.map_some, Option.toList_some, List.mem_singleton,
            Finding.shadowed.injEq] at h
          exact ⟨[], d, cs, e, rfl, by simpa using hd, h.1, h.2⟩
      · exact ⟨d :: pre, c, post, e, rfl, by simpa using he, hi, hw⟩
    · rintro ⟨pre, c, post, e, hcs, he, hi, hw⟩
      cases pre with
      | nil =>
        obtain ⟨rfl, rfl⟩ := List.cons.inj hcs
        rw [List.append_nil] at he
        exact Or.inl (by simp [he, hi, hw])
      | cons d' pre =>
        obtain ⟨rfl, rfl⟩ := List.cons.inj hcs
        exact Or.inr ⟨pre, c, post, e, rfl, by simpa using he, hi, hw⟩

theorem shadowed_not_mem_lintRule (r : Rule) (i w : UInt32) :
    Finding.shadowed i w ∉ lintRule r := by
  unfold lintRule
  simp only [List.mem_append, not_or]
  refine ⟨by split <;> simp, ?_⟩
  split
  · simp
  · simp only [List.mem_filterMap, not_exists, not_and]
    intro t ht
    unfold tagFinding?
    split_ifs <;> simp

theorem shadowed_mem_lint {i w : UInt32} :
    Finding.shadowed i w ∈ lint rules ↔ Finding.shadowed i w ∈ shadowed rules := by
  simp [lint, shadowed_not_mem_lintRule]

/-! ## Shadowing -/

/-- Of two candidates the one with the smaller priority stands before the other. -/
theorem mem_of_candidates_eq {pre post : List (Rule × Pattern)} {c e : Rule × Pattern}
    (hc : candidates rules = pre ++ c :: post) (he : e ∈ candidates rules)
    (hle : e.1.priority.le c.1.priority = true) (hne : e.1.priority ≠ c.1.priority) : e ∈ pre := by
  have hs := pairwise_candidates rules
  rw [hc] at he hs
  rcases List.mem_append.1 he with he | he
  · exact he
  · rcases List.mem_cons.1 he with rfl | he
    · exact absurd rfl hne
    · have hge := (List.pairwise_cons.1 (List.pairwise_append.1 hs).2.1).1 e he
      exact absurd (Priority.le_antisymm hle hge) hne

/-- What stands before a candidate comes before it in the order of priorities. -/
theorem before_of_candidates_eq (hd : (rules.map Rule.id).Nodup)
    {pre post : List (Rule × Pattern)} {c e : Rule × Pattern}
    (hc : candidates rules = pre ++ c :: post) (he : e ∈ pre) :
    e.1.priority.le c.1.priority = true ∧ e.1.priority ≠ c.1.priority := by
  have hs := pairwise_candidates rules
  have hn := nodup_candidates hd
  rw [hc] at hs hn
  refine ⟨(List.pairwise_append.1 hs).2.2 e he c (by simp), fun h => ?_⟩
  rw [List.map_append, List.nodup_append] at hn
  exact hn.2.2 _ (List.mem_map_of_mem he) c.1.id (by simp) (congrArg Priority.id h)

/-- The rule that is found for a candidate shadows it. -/
theorem shadows_of_winner? (hd : (rules.map Rule.id).Nodup) {pre post : List (Rule × Pattern)}
    {c e : Rule × Pattern} (hcs : candidates rules = pre ++ c :: post) (he : winner? pre c = some e) :
    e.1.Shadows c.1 := by
  obtain ⟨hep, hpat, hcov⟩ := of_winner?_eq_some he
  have hcm : c ∈ candidates rules := by rw [hcs]; simp
  have hem : e ∈ candidates rules := by rw [hcs]; simp [hep]
  obtain ⟨-, -, hcp⟩ := mem_candidates.1 hcm
  obtain ⟨-, hea, hpe⟩ := mem_candidates.1 hem
  exact ⟨hea, ⟨c.2, hpat ▸ hpe, hcp⟩, hcov, before_of_candidates_eq hd hcs hep⟩

/-- **A rule is reported as shadowed iff it is active and some rule shadows it.** -/
theorem exists_shadowed_mem_lint_iff (hd : (rules.map Rule.id).Nodup) {r : Rule} (hr : r ∈ rules) :
    (∃ w, Finding.shadowed r.id w ∈ lint rules) ↔ r.active = true ∧ ∃ e ∈ rules, e.Shadows r := by
  simp only [shadowed_mem_lint, shadowed, mem_shadowedAfter, List.nil_append]
  constructor
  · rintro ⟨w, pre, c, post, e, hcs, he, hi, -⟩
    have hcm : c ∈ candidates rules := by rw [hcs]; simp
    have hem : e ∈ candidates rules := by rw [hcs]; simp [(of_winner?_eq_some he).1]
    obtain ⟨hcr, hca, -⟩ := mem_candidates.1 hcm
    obtain rfl := List.inj_on_of_nodup_map hd hr hcr hi
    exact ⟨hca, e.1, (mem_candidates.1 hem).1, shadows_of_winner? hd hcs he⟩
  · rintro ⟨ha, e, her, hea, ⟨p, hep, hrp⟩, hcov, hle, hne⟩
    have hcm : (r, p) ∈ candidates rules := mem_candidates.2 ⟨hr, ha, hrp⟩
    have hem : (e, p) ∈ candidates rules := mem_candidates.2 ⟨her, hea, hep⟩
    obtain ⟨pre, post, hcs⟩ := List.append_of_mem hcm
    have hpre : (e, p) ∈ pre := mem_of_candidates_eq hcs hem hle hne
    cases hw : winner? pre (r, p) with
    | none => exact absurd ⟨rfl, hcov⟩ (winner?_eq_none.1 hw _ hpre)
    | some d => exact ⟨d.1.id, pre, (r, p), post, d, hcs, hw, rfl, rfl⟩

/-- A rule that is shadowed is never the best. -/
theorem Rule.Shadows.not_isBest {e r : Rule} (he : e ∈ rules) (h : e.Shadows r) (locale : String)
    (ts : List Tag) : ¬ r.IsBest rules locale ts := by
  rintro ⟨-, ⟨-, hscope, hpat⟩, hfirst⟩
  obtain ⟨p, hep, hrp⟩ := h.pattern
  have hp : p = ⟨ts⟩ := Except.ok.inj (hrp.symm.trans hpat)
  have hans : e.Answers locale ts := by
    refine ⟨h.active, fun s hs => ?_, hp ▸ hep⟩
    obtain ⟨b, hb, hsb⟩ := covers_iff.1 h.scope s hs
    exact hsb.trans (hscope b hb)
  have hle : r.priority.le e.priority = true := priority_le_iff.2 (hfirst e he hans)
  exact h.before.2 (Priority.le_antisymm h.before.1 hle)

/-- The locale that a rule is limited to, and otherwise one that no rule names. -/
theorem exists_own_locale (rules : List Rule) (r : Rule) : ∃ locale,
    (∀ s, r.locale = some s → Locale.canonical s = Locale.canonical locale) ∧
      ∀ e ∈ rules, (∀ s, e.locale = some s → Locale.canonical s = Locale.canonical locale) →
        covers e.locale r.locale = true := by
  cases hr : r.locale with
  | some a =>
    refine ⟨a, fun s hs => by rw [Option.some.inj hs], fun e _ h => covers_iff.2 fun s hs => ?_⟩
    exact ⟨a, rfl, h s hs⟩
  | none =>
    obtain ⟨l, hl⟩ := Locale.exists_unnamed (rules.filterMap Rule.locale)
    refine ⟨l, by simp, fun e he h => covers_iff.2 fun s hs => ?_⟩
    exact absurd (h s hs) (hl s (List.mem_filterMap.2 ⟨e, he, hs⟩))

/-- **A rule that is not shadowed is the best somewhere.** -/
theorem exists_isBest_of_not_shadowed (hd : (rules.map Rule.id).Nodup) {r : Rule} (hr : r ∈ rules)
    (ha : r.active = true) {p : Pattern} (hp : Pattern.parse r.pattern = .ok p)
    (h : ∀ e ∈ rules, ¬ e.Shadows r) : ∃ locale ts, r.IsBest rules locale ts := by
  obtain ⟨l, hown, hcov⟩ := exists_own_locale rules r
  refine ⟨l, p.tags, hr, ⟨ha, hown, hp⟩, fun e he hans => ?_⟩
  by_cases heq : e = r
  · exact Or.inr (heq ▸ ⟨rfl, Nat.le_refl _⟩)
  · have hne : e.priority ≠ r.priority := fun h' => heq (Rule.eq_of_priority_eq hd e he r hr h')
    have hnle : ¬ e.priority.le r.priority = true := fun hle =>
      h e he ⟨hans.active, ⟨p, hans.pattern, hp⟩, hcov e he hans.scope, hle, hne⟩
    exact Rule.priority_le_iff.1 ((Priority.le_total _ _).resolve_right hnle)

/-- **A rule is reported as shadowed iff it is never chosen.**  Only active rules
    with a readable pattern are reported. -/
theorem shadowed_iff_never_chosen (rules : List Rule) (hd : (rules.map Rule.id).Nodup) (r : Rule)
    (hr : r ∈ rules) :
    ((r.active = true ∧ ∃ p, Pattern.parse r.pattern = .ok p) →
      ((∃ w, Finding.shadowed r.id w ∈ lint rules) ↔
        ∀ locale ts, selectRule? (activeRules rules locale) ts ≠ some r)) ∧
    (¬ (r.active = true ∧ ∃ p, Pattern.parse r.pattern = .ok p) →
      ∀ w, Finding.shadowed r.id w ∉ lint rules) := by
  have hrep := exists_shadowed_mem_lint_iff hd hr
  refine ⟨fun ⟨ha, p, hp⟩ => ?_, fun hn w hw => ?_⟩
  · simp only [ne_eq, selectRule?_activeRules hd]
    rw [hrep]
    constructor
    · rintro ⟨-, e, he, hsh⟩ locale ts
      exact hsh.not_isBest he locale ts
    · intro h
      by_contra hns
      have hns' : ∀ e ∈ rules, ¬ e.Shadows r := fun e he hsh => hns ⟨ha, e, he, hsh⟩
      obtain ⟨l, ts, hb⟩ := exists_isBest_of_not_shadowed hd hr ha hp hns'
      exact h l ts hb
  · obtain ⟨ha, e, -, hsh⟩ := hrep.1 ⟨w, hw⟩
    obtain ⟨p, -, hp⟩ := hsh.pattern
    exact hn ⟨ha, p, hp⟩

/-- Two rules with one pattern in two spellings: the one for a single locale and
    without weight is reported and never chosen, the other one is not reported. -/
theorem shadowed_iff_never_chosen_twins :
    let general : Rule :=
      { id := 1, pattern := "[PRON][VERB]", template := "{PRON} {VERB}", weight := 10 }
    let mexican : Rule :=
      { id := 2, pattern := "[PRON] [VERB]", template := "{VERB} {PRON}", locale := some "es-MX" }
    (∃ w, Finding.shadowed 2 w ∈ lint [mexican, general]) ∧
      (∀ locale ts, selectRule? (activeRules [mexican, general] locale) ts ≠ some mexican) ∧
      ∃ locale ts, selectRule? (activeRules [mexican, general] locale) ts = some general := by
  intro general mexican
  have hd : ([mexican, general].map Rule.id).Nodup := by decide
  have hpm : Pattern.parse mexican.pattern = .ok ⟨[⟨"PRON"⟩, ⟨"VERB"⟩]⟩ := by decide +kernel
  have hpg : Pattern.parse general.pattern = .ok ⟨[⟨"PRON"⟩, ⟨"VERB"⟩]⟩ := by decide +kernel
  have hrep : ∃ w, Finding.shadowed 2 w ∈ lint [mexican, general] :=
    (exists_shadowed_mem_lint_iff (r := mexican) hd (by simp)).2
      ⟨rfl, general, by simp, rfl, ⟨_, hpg, hpm⟩, rfl, by decide, by decide⟩
  have hnot : ¬ ∃ w, Finding.shadowed 1 w ∈ lint [mexican, general] := by
    rw [exists_shadowed_mem_lint_iff (r := general) hd (by simp)]
    rintro ⟨-, e, he, hsh⟩
    rcases List.mem_pair.1 he with rfl | rfl
    · exact absurd hsh.before.1 (by decide)
    · exact hsh.before.2 rfl
  have hm := shadowed_iff_never_chosen _ hd mexican (by simp)
  have hg := shadowed_iff_never_chosen _ hd general (by simp)
  refine ⟨hrep, (hm.1 ⟨rfl, _, hpm⟩).1 hrep, ?_⟩
  by_contra hn
  exact hnot ((hg.1 ⟨rfl, _, hpg⟩).2 fun locale ts h => hn ⟨locale, ts, h⟩)

end SignGloss
