/-
  Rules that may be deleted.

  * `shadowings rules`: the findings about rules that are never chosen, which are
    those that `shadowed` gives (`shadowings_eq`);
  * `live rules`: the rules that are active, have a readable pattern and are not
    reported as shadowed.

  A rule that shadows another one is either live or shadowed in its turn by an
  earlier one (`Rule.Shadows.trans`).  The report names the first of them, so that
  chains of shadowing end at once, in a rule that stays (`not_shadows_winner`).

  Main statement: all rules that are not live may be deleted together, and what is
  reported as shadowed does not depend on the order of the rules
  (`live_rules_suffice`).
-/
import SignGloss.Proofs.Shadowing

namespace SignGloss

/-- The finding is about a rule that is never chosen. -/
def Finding.isShadowed : Finding → Bool
  | shadowed .. => true
  | invalidPattern .. | notInPattern .. | strayBrace _ | repeatedTag .. => false

/-- The findings about rules that are never chosen. -/
def shadowings (rules : List Rule) : List Finding := (lint rules).filter Finding.isShadowed

/-- The rule is active, can be read, and is not among the rules reported as shadowed. -/
def Rule.isLive (rules : List Rule) (r : Rule) : Bool :=
  r.active && (Pattern.parse r.pattern).isOk && r.id ∉ (shadowings rules).map Finding.rule

/-- The rules that are left when all others are deleted at once. -/
def live (rules : List Rule) : List Rule := rules.filter (Rule.isLive rules)

variable {rules : List Rule} {d e r : Rule} {locale : String} {ts : List Tag}

/-! ## The findings -/

theorem isShadowed_iff {f : Finding} : f.isShadowed = true ↔ ∃ i w, f = .shadowed i w := by
  cases f <;> simp [Finding.isShadowed]

theorem mem_shadowings {f : Finding} :
    f ∈ shadowings rules ↔ ∃ i w, f = .shadowed i w ∧ Finding.shadowed i w ∈ lint rules := by
  rw [shadowings, List.mem_filter, isShadowed_iff]
  constructor
  · rintro ⟨hf, i, w, rfl⟩
    exact ⟨i, w, rfl, hf⟩
  · rintro ⟨i, w, rfl, hf⟩
    exact ⟨hf, i, w, rfl⟩

theorem mem_map_rule_shadowings {i : UInt32} :
    i ∈ (shadowings rules).map Finding.rule ↔ ∃ w, Finding.shadowed i w ∈ lint rules := by
  simp only [List.mem_map, mem_shadowings]
  constructor
  · rintro ⟨_, ⟨i, w, rfl, h⟩, rfl⟩
    exact ⟨w, h⟩
  · rintro ⟨w, h⟩
    exact ⟨_, ⟨i, w, rfl, h⟩, rfl⟩

theorem isShadowed_of_mem_shadowedAfter {f : Finding} {earlier cs : List (Rule × Pattern)}
    (h : f ∈ shadowedAfter earlier cs) : f.isShadowed = true := by
  induction cs generalizing earlier with
  | nil => cases h
  | cons c cs ih =>
    rw [shadowedAfter, List.mem_append, Option.mem_toList] at h
    rcases h with h | h
    · obtain ⟨e, -, rfl⟩ := Option.mem_map.1 h
      rfl
    · exact ih h

theorem shadowings_eq (rules : List Rule) : shadowings rules = shadowed rules := by
  have hrules : (rules.flatMap lintRule).filter Finding.isShadowed = [] := by
    refine List.filter_eq_nil_iff.2 fun f hf hs => ?_
    obtain ⟨i, w, rfl⟩ := isShadowed_iff.1 hs
    obtain ⟨r, -, hr⟩ := List.mem_flatMap.1 hf
    exact shadowed_not_mem_lintRule r i w hr
  have hshadowed : (shadowed rules).filter Finding.isShadowed = shadowed rules :=
    List.filter_eq_self.2 fun f hf => isShadowed_of_mem_shadowedAfter hf
  rw [shadowings, lint, List.filter_append, hrules, hshadowed, List.nil_append]

/-- A finding for some of the candidates, in their order. -/
theorem sublist_shadowedAfter (earlier cs : List (Rule × Pattern)) :
    ((shadowedAfter earlier cs).map Finding.rule).Sublist (cs.map fun c => c.1.id) := by
  induction cs generalizing earlier with
  | nil => exact List.Sublist.slnil
  | cons c cs ih =>
    rw [shadowedAfter, List.map_append, List.map_cons]
    cases winner? earlier c with
    | none => exact (ih _).cons _
    | some e => exact (ih _).cons_cons _

/-- A rule is reported once at most. -/
theorem nodup_shadowings (hd : (rules.map Rule.id).Nodup) :
    ((shadowings rules).map Finding.rule).Nodup := by
  rw [shadowings_eq]
  exact (sublist_shadowedAfter [] _).nodup (nodup_candidates hd)

/-! ## The order of the rules -/

theorem candidates_eq_of_perm (hd : (rules.map Rule.id).Nodup) {rules' : List Rule}
    (h : rules.Perm rules') : candidates rules = candidates rules' := by
  refine sortByPriority_eq_of_perm (h.filterMap candidate?) fun c hc d hd' heq => ?_
  obtain ⟨r, hr, hrc⟩ := List.mem_filterMap.1 hc
  obtain ⟨r', hr', hrd⟩ := List.mem_filterMap.1 hd'
  obtain ⟨-, -, rfl⟩ := candidate?_eq_some.1 hrc
  obtain ⟨-, -, rfl⟩ := candidate?_eq_some.1 hrd
  rw [Rule.eq_of_priority_eq hd _ hr _ hr' heq] at hrc
  exact Option.some.inj (hrc.symm.trans hrd)

theorem shadowings_eq_of_perm (hd : (rules.map Rule.id).Nodup) {rules' : List Rule}
    (h : rules.Perm rules') : shadowings rules = shadowings rules' := by
  rw [shadowings_eq, shadowings_eq, shadowed, shadowed, candidates_eq_of_perm hd h]

/-! ## Chains -/

theorem covers_trans {a b c : Option String} (hab : covers a b = true) (hbc : covers b c = true) :
    covers a c = true := by
  rw [covers_iff] at *
  intro x hx
  obtain ⟨y, hy, hxy⟩ := hab x hx
  obtain ⟨z, hz, hyz⟩ := hbc y hy
  exact ⟨z, hz, hxy.trans hyz⟩

theorem Rule.Shadows.trans (hde : d.Shadows e) (her : e.Shadows r) : d.Shadows r := by
  obtain ⟨p, hdp, hep⟩ := hde.pattern
  obtain ⟨q, heq, hrq⟩ := her.pattern
  obtain rfl : p = q := Except.ok.inj (hep.symm.trans heq)
  refine ⟨hde.active, ⟨p, hdp, hrq⟩, covers_trans hde.scope her.scope,
    Priority.le_trans hde.before.1 her.before.1, fun hdr => ?_⟩
  -- a chain that came back would make the priorities of `d` and `e` equal
  have hed : e.priority.le d.priority = true := hdr ▸ her.before.1
  exact hde.before.2 (Priority.le_antisymm hde.before.1 hed)

/-- A rule that shadows another one applies wherever the other does. -/
theorem Rule.Shadows.matchesScope (h : e.Shadows r)
    (hr : Locale.matchesScope r.locale locale = true) : Locale.matchesScope e.locale locale = true := by
  cases he : e.locale with
  | none => rfl
  | some a =>
    obtain ⟨b, hb, hab⟩ := covers_iff.1 h.scope a he
    rw [hb] at hr
    simpa [Locale.matchesScope, hab] using hr

/-- The rule that is named as the winner is shadowed by none. -/
theorem not_shadows_winner (hd : (rules.map Rule.id).Nodup) {pre post : List (Rule × Pattern)}
    {c w : Rule × Pattern} (hcs : candidates rules = pre ++ c :: post) (hw : winner? pre c = some w)
    (hdr : d ∈ rules) : ¬ d.Shadows w.1 := by
  intro hdw
  have hwc := shadows_of_winner? hd hcs hw
  obtain ⟨-, pre₁, post₁, rfl, hfirst⟩ := List.find?_eq_some_iff_append.1 hw
  obtain ⟨p, hdp, -⟩ := (hdw.trans hwc).pattern
  have hdm : (d, p) ∈ candidates rules := mem_candidates.2 ⟨hdr, hdw.active, hdp⟩
  have hpre : (d, p) ∈ pre₁ := by
    rw [List.append_assoc, List.cons_append] at hcs
    exact mem_of_candidates_eq hcs hdm hdw.before.1 hdw.before.2
  have hp : p = c.2 := by
    obtain ⟨q, hdq, hcq⟩ := (hdw.trans hwc).pattern
    have hcm : c ∈ candidates rules := by rw [hcs]; simp
    have hpq : p = q := Except.ok.inj (hdp.symm.trans hdq)
    rw [hpq]
    exact Except.ok.inj (hcq.symm.trans (mem_candidates.1 hcm).2.2)
  have hnot := hfirst (d, p) hpre
  simp [hp, (hdw.trans hwc).scope] at hnot

/-- What a report of a shadowed rule says. -/
theorem exists_of_shadowed_mem_lint (hd : (rules.map Rule.id).Nodup) {i w : UInt32}
    (h : Finding.shadowed i w ∈ lint rules) :
    ∃ r ∈ rules, ∃ e ∈ rules, r.id = i ∧ e.id = w ∧ e.Shadows r ∧
      ∀ w', Finding.shadowed w w' ∉ lint rules := by
  rw [shadowed_mem_lint, shadowed, mem_shadowedAfter] at h
  obtain ⟨pre, c, post, e, hcs, he, rfl, rfl⟩ := h
  rw [List.nil_append] at he
  have hcm : c ∈ candidates rules := by rw [hcs]; simp
  have hem : e ∈ candidates rules := by rw [hcs]; simp [(of_winner?_eq_some he).1]
  have her := (mem_candidates.1 hem).1
  refine ⟨c.1, (mem_candidates.1 hcm).1, e.1, her, rfl, rfl, shadows_of_winner? hd hcs he, ?_⟩
  intro w' hw'
  obtain ⟨-, d, hdr, hde⟩ := (exists_shadowed_mem_lint_iff hd her).1 ⟨w', hw'⟩
  exact not_shadows_winner hd hcs he hdr hde

/-! ## Deleting rules -/

theorem isLive_iff : r.isLive rules = true ↔ r.active = true ∧
    (∃ p, Pattern.parse r.pattern = .ok p) ∧ ∀ w, Finding.shadowed r.id w ∉ lint rules := by
  have hok : (Pattern.parse r.pattern).isOk = true ↔ ∃ p, Pattern.parse r.pattern = .ok p := by
    cases Pattern.parse r.pattern <;> simp [Except.isOk, Except.toBool]
  rw [Rule.isLive, Bool.and_eq_true, Bool.and_eq_true, decide_eq_true_iff, mem_map_rule_shadowings,
    hok, not_exists, and_assoc]

theorem nodup_live (hd : (rules.map Rule.id).Nodup) : ((live rules).map Rule.id).Nodup :=
  (List.filter_sublist.map Rule.id).nodup hd

theorem Rule.IsBest.isLive (hd : (rules.map Rule.id).Nodup) (h : r.IsBest rules locale ts) :
    r.isLive rules = true := by
  refine isLive_iff.2 ⟨h.answers.active, ⟨_, h.answers.pattern⟩, fun w hw => ?_⟩
  obtain ⟨-, e, he, hsh⟩ := (exists_shadowed_mem_lint_iff hd h.mem).1 ⟨w, hw⟩
  exact hsh.not_isBest he locale ts h

theorem Rule.IsBest.live (hd : (rules.map Rule.id).Nodup) (h : r.IsBest rules locale ts) :
    r.IsBest (live rules) locale ts where
  mem := List.mem_filter.2 ⟨h.mem, h.isLive hd⟩
  answers := h.answers
  first r' hr' := h.first r' (List.mem_filter.1 hr').1

theorem isBest_live_iff (hd : (rules.map Rule.id).Nodup) :
    r.IsBest (live rules) locale ts ↔ r.IsBest rules locale ts := by
  constructor
  · intro h
    have hr : r ∈ rules := (List.mem_filter.1 h.mem).1
    -- some rule is the best of all, and it is the best live one as well
    rcases exists_isBest_or_not_answers hd locale ts with ⟨r', hr'⟩ | hnone
    · rwa [h.eq (nodup_live hd) (hr'.live hd)]
    · exact absurd h.answers (hnone r hr)
  · exact fun h => h.live hd

/-- The rule chosen among those that are left is the one chosen among all. -/
theorem selectRule?_live (hd : (rules.map Rule.id).Nodup) (locale : String) (ts : List Tag) :
    selectRule? (activeRules (live rules) locale) ts = selectRule? (activeRules rules locale) ts := by
  refine Option.ext fun r => ?_
  rw [selectRule?_activeRules (nodup_live hd), selectRule?_activeRules hd, isBest_live_iff hd]

/-- **Live rules suffice.**  Deleting at once the rules that are inactive, cannot be
    read or are reported as shadowed changes no choice.  A rule is reported once at
    most, and the rule named with it is active, comes first, has the same pattern,
    applies wherever the other does and is not reported itself.  The report does not
    depend on the order in which the rules are given. -/
theorem live_rules_suffice (rules : List Rule) (hd : (rules.map Rule.id).Nodup) :
    (∀ locale ts, selectRule? (activeRules (live rules) locale) ts =
      selectRule? (activeRules rules locale) ts) ∧
    ((shadowings rules).map Finding.rule).Nodup ∧
    (∀ i w, Finding.shadowed i w ∈ lint rules → ∃ r ∈ rules, ∃ e ∈ rules, r.id = i ∧ e.id = w ∧
      e.active = true ∧ (e.priority.le r.priority = true ∧ e.priority ≠ r.priority) ∧
      (∃ p, Pattern.parse e.pattern = .ok p ∧ Pattern.parse r.pattern = .ok p) ∧
      (∀ locale, Locale.matchesScope r.locale locale = true →
        Locale.matchesScope e.locale locale = true) ∧
      ∀ w', Finding.shadowed w w' ∉ lint rules) ∧
    ∀ rules', rules.Perm rules' → shadowings rules' = shadowings rules := by
  refine ⟨selectRule?_live hd, nodup_shadowings hd, fun i w h => ?_, fun rules' h => ?_⟩
  · obtain ⟨r, hr, e, he, hi, hw, hsh, hnot⟩ := exists_of_shadowed_mem_lint hd h
    exact ⟨r, hr, e, he, hi, hw, hsh.active, hsh.before, hsh.pattern,
      fun _ => hsh.matchesScope, hnot⟩
  · exact (shadowings_eq_of_perm hd h).symm

/-- A chain of three rules and one that is switched off: both rules behind the first
    are reported, the last of them as shadowed by the first, and the first does for
    all of them. -/
theorem live_rules_suffice_chain :
    let general : Rule := { id := 1, pattern := "[PRON] [VERB]", template := "uno", weight := 9 }
    let mexican : Rule :=
      { id := 2, pattern := "[PRON][VERB]", template := "dos", weight := 5, locale := some "es-MX" }
    let lower : Rule :=
      { id := 3, pattern := "[PRON][VERB]", template := "tres", locale := some "es-mx" }
    let off : Rule :=
      { id := 4, pattern := "[PRON] [VERB]", template := "cuatro", weight := 99, active := false }
    let rules := [lower, off, mexican, general]
    mexican.Shadows lower ∧ live rules = [general] ∧
      (∃ w, Finding.shadowed 3 w ∈ lint rules) ∧ (∀ w, Finding.shadowed 3 w ∈ lint rules → w = 1) ∧
      ∀ locale ts, selectRule? (activeRules [general] locale) ts =
        selectRule? (activeRules rules locale) ts := by
  intro general mexican lower off rules
  have hd : (rules.map Rule.id).Nodup := by decide
  have hspaced : Pattern.parse "[PRON] [VERB]" = .ok ⟨[⟨"PRON"⟩, ⟨"VERB"⟩]⟩ := by decide +kernel
  have htight : Pattern.parse "[PRON][VERB]" = .ok ⟨[⟨"PRON"⟩, ⟨"VERB"⟩]⟩ := by decide +kernel
  have hreported : ∀ r ∈ [lower, mexican], ∃ w, Finding.shadowed r.id w ∈ lint rules := by
    intro r hr
    rcases List.mem_pair.1 hr with rfl | rfl
    · exact (exists_shadowed_mem_lint_iff (r := lower) hd (by simp [rules])).2
        ⟨rfl, general, by simp [rules], rfl, ⟨_, hspaced, htight⟩, rfl, by decide, by decide⟩
    · exact (exists_shadowed_mem_lint_iff (r := mexican) hd (by simp [rules])).2
        ⟨rfl, general, by simp [rules], rfl, ⟨_, hspaced, htight⟩, rfl, by decide, by decide⟩
  have hgeneral : general.isLive rules = true := by
    refine isLive_iff.2 ⟨rfl, ⟨_, hspaced⟩, fun w hw => ?_⟩
    obtain ⟨-, e, he, hsh⟩ :=
      (exists_shadowed_mem_lint_iff (r := general) hd (by simp [rules])).1 ⟨w, hw⟩
    simp only [rules, List.mem_cons, List.not_mem_nil, or_false] at he
    rcases he with rfl | rfl | rfl | rfl
    · exact absurd hsh.before.1 (by decide)
    · cases hsh.active
    · exact absurd hsh.before.1 (by decide)
    · exact hsh.before.2 rfl
  have hdead : ∀ r ∈ [lower, mexican], r.isLive rules = false := by
    intro r hr
    obtain ⟨w, hw⟩ := hreported r hr
    exact Bool.eq_false_iff.2 fun h => (isLive_iff.1 h).2.2 w hw
  have hlive : live rules = [general] := by
    have hoff : off.isLive rules = false := rfl
    simp [live, rules, hgeneral, hoff, hdead lower (by simp), hdead mexican (by simp)]
  obtain ⟨hchoice, -, hwinner, -⟩ := live_rules_suffice rules hd
  refine ⟨⟨rfl, ⟨_, htight, htight⟩, by decide +kernel, by decide, by decide⟩, hlive,
    hreported lower (by simp), fun w hw => ?_, hlive ▸ hchoice⟩
  obtain ⟨r, hr, e, he, hi, rfl, hactive, hbefore, -, -, hnot⟩ := hwinner 3 w hw
  simp only [rules, List.mem_cons, List.not_mem_nil, or_false] at he
  rcases he with rfl | rfl | rfl | rfl
  · obtain rfl := List.inj_on_of_nodup_map hd hr (show lower ∈ rules by simp [rules]) hi
    exact absurd rfl hbefore.2
  · cases hactive
  · obtain ⟨w', hw'⟩ := hreported mexican (by simp)
    exact absurd hw' (hnot w')
  · rfl

end SignGloss
