/-
  Which rule is chosen.

  * a rule `Answers` in a locale for a sequence of tags if it is active, is not
    limited to another locale, and its pattern is read as that sequence;
  * it `IsBest` among some rules if it is one of them and has the greatest weight
    of those that answer and, of equal weights, the least identifier.

  Main statement: where identifiers are distinct, the rule chosen among the
  active ones is the best (`selectRule?_activeRules`).
-/
import Mathlib.Data.List.Nodup
import SignGloss.Choice
import SignGloss.Proofs.PriorityOrder

namespace SignGloss

namespace Rule

/-- The rule may be chosen in a locale for a sequence of tags. -/
structure Answers (locale : String) (ts : List Tag) (r : Rule) : Prop where
  active : r.active = true
  scope : ∀ s, r.locale = some s → Locale.canonical s = Locale.canonical locale
  pattern : Pattern.parse r.pattern = .ok ⟨ts⟩

/-- The rule comes first among the rules that answer. -/
structure IsBest (rs : List Rule) (locale : String) (ts : List Tag) (r : Rule) : Prop where
  mem : r ∈ rs
  answers : r.Answers locale ts
  first : ∀ r' ∈ rs, r'.Answers locale ts →
    r'.weight < r.weight ∨ (r'.weight = r.weight ∧ r.id ≤ r'.id)

theorem matchesTags_iff {r : Rule} {ts : List Tag} :
    r.matchesTags ts = true ↔ Pattern.parse r.pattern = .ok ⟨ts⟩ := by
  unfold matchesTags
  cases Pattern.parse r.pattern with
  | error e => simp
  | ok p =>
    obtain ⟨us⟩ := p
    simp only [Pattern.matchesTags_iff, Except.ok.injEq, Pattern.mk.injEq]
    exact eq_comm

theorem appliesIn_iff {r : Rule} {locale : String} :
    r.appliesIn locale = true ↔
      r.active = true ∧ ∀ s, r.locale = some s → Locale.canonical s = Locale.canonical locale := by
  unfold appliesIn Locale.matchesScope
  cases r.locale <;> simp

theorem answers_iff {r : Rule} {locale : String} {ts : List Tag} :
    r.Answers locale ts ↔ r.appliesIn locale = true ∧ r.matchesTags ts = true := by
  rw [appliesIn_iff, matchesTags_iff]
  constructor
  · rintro ⟨h₁, h₂, h₃⟩
    exact ⟨⟨h₁, h₂⟩, h₃⟩
  · rintro ⟨⟨h₁, h₂⟩, h₃⟩
    exact ⟨h₁, h₂, h₃⟩

theorem priority_le_iff {r r' : Rule} : r.priority.le r'.priority = true ↔
    r'.weight < r.weight ∨ (r'.weight = r.weight ∧ r.id ≤ r'.id) := by
  rw [Priority.le_iff]
  exact or_congr_right (and_congr_left fun _ => eq_comm)

/-- A rule is known by its priority where identifiers are distinct. -/
theorem eq_of_priority_eq {rs : List Rule} (hd : (rs.map Rule.id).Nodup) :
    ∀ r ∈ rs, ∀ r' ∈ rs, r.priority = r'.priority → r = r' :=
  fun _ hr _ hr' h => List.inj_on_of_nodup_map hd hr hr' (congrArg Priority.id h)

end Rule

variable {rs : List Rule} {locale : String} {ts : List Tag}

theorem mem_activeRules {r : Rule} :
    r ∈ activeRules rs locale ↔ r ∈ rs ∧ r.appliesIn locale = true := by
  rw [activeRules, mem_sortByPriority, List.mem_filter]

/-- **The rule chosen is the best.** -/
theorem selectRule?_activeRules (hd : (rs.map Rule.id).Nodup) {r : Rule} :
    selectRule? (activeRules rs locale) ts = some r ↔ r.IsBest rs locale ts := by
  have hk : ∀ r ∈ rs.filter (Rule.appliesIn locale), ∀ r' ∈ rs.filter (Rule.appliesIn locale),
      r.priority = r'.priority → r = r' := fun r hr r' hr' =>
    Rule.eq_of_priority_eq hd r (List.mem_filter.1 hr).1 r' (List.mem_filter.1 hr').1
  rw [selectRule?, activeRules, find?_sortByPriority hk]
  simp only [List.mem_filter, Rule.priority_le_iff]
  constructor
  · rintro ⟨⟨hr, ha⟩, hm, hf⟩
    refine ⟨hr, Rule.answers_iff.2 ⟨ha, hm⟩, fun r' hr' h' => ?_⟩
    obtain ⟨ha', hm'⟩ := Rule.answers_iff.1 h'
    exact hf r' ⟨hr', ha'⟩ hm'
  · rintro ⟨hr, h, hf⟩
    obtain ⟨ha, hm⟩ := Rule.answers_iff.1 h
    exact ⟨⟨hr, ha⟩, hm, fun r' ⟨hr', ha'⟩ hm' => hf r' hr' (Rule.answers_iff.2 ⟨ha', hm'⟩)⟩

/-- No rule is chosen iff none answers. -/
theorem selectRule?_activeRules_eq_none :
    selectRule? (activeRules rs locale) ts = none ↔ ∀ r ∈ rs, ¬ r.Answers locale ts := by
  simp only [selectRule?, List.find?_eq_none, mem_activeRules, Rule.answers_iff]
  constructor
  · rintro h r hr ⟨ha, hm⟩
    exact h r ⟨hr, ha⟩ hm
  · rintro h r ⟨hr, ha⟩ hm
    exact h r hr ⟨ha, hm⟩

/-- There is one best rule at most. -/
theorem Rule.IsBest.eq (hd : (rs.map Rule.id).Nodup) {r r' : Rule} (h : r.IsBest rs locale ts)
    (h' : r'.IsBest rs locale ts) : r = r' := by
  rw [← selectRule?_activeRules hd] at h h'
  exact Option.some.inj (h.symm.trans h')

/-- There is a best rule iff some rule answers. -/
theorem exists_isBest_or_not_answers (hd : (rs.map Rule.id).Nodup) (locale : String)
    (ts : List Tag) : (∃ r : Rule, r.IsBest rs locale ts) ∨ ∀ r ∈ rs, ¬ r.Answers locale ts := by
  cases h : selectRule? (activeRules rs locale) ts with
  | none => exact Or.inr (selectRule?_activeRules_eq_none.1 h)
  | some r => exact Or.inl ⟨r, (selectRule?_activeRules hd).1 h⟩

end SignGloss
