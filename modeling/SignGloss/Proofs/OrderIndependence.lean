/-
  The order of edits.

  * two catalogs `Agree` if they give the same senses, rules and forms, hold the
    same numbers of items, and interpret each request alike;
  * a document is `Consistent` if lexemes and rules have distinct identifiers and
    links name lexemes of the document.  Just then there is a catalog of it
    (`exists_ofDocument_iff`).

  Main statements: catalogs with the same items and the same forms agree
  (`Reached.agree`), so that neither the order of edits nor the order of a
  document's lists matters (`agree_of_perm`).
-/
import SignGloss.Proofs.Edits
import SignGloss.Proofs.Selection

namespace SignGloss

namespace Catalog

/-- Nothing that catalogs are asked for tells them apart. -/
structure Agree (c c' : Catalog) : Prop where
  senses : ∀ sign, c.senses sign = c'.senses sign
  activeRules : ∀ locale, c.activeRules locale = c'.activeRules locale
  form : ∀ gloss code person, c.forms.find? gloss code person = c'.forms.find? gloss code person
  lexemeCount : c.lexemes.size = c'.lexemes.size
  signCount : c.links.size = c'.links.size
  ruleCount : c.rules.length = c'.rules.length
  formCount : c.forms.size = c'.forms.size
  interpret : ∀ req, c.interpret req = c'.interpret req

variable {c c' : Catalog} {es es' : List Edit}

/-! ## The items of a catalog -/

theorem Reached.putAll (h : c.Reached es) (ha : c.AcceptsAll es') :
    (c.putAll es').Reached (es ++ es') := by
  induction es' generalizing c es with
  | nil => simpa using h
  | cons e es' ih =>
    obtain ⟨he, hes⟩ := ha
    have hadd : c.add e = .ok (c.put e) := add_eq_ok_iff.2 ⟨he, rfl⟩
    have hput : (c.put e).Reached (es ++ [e]) := by
      simpa [taken, hadd, attempt_of_accepts he] using h.attempt e
    simpa using ih hput hes

theorem Reached.get?_lexemes (h : c.Reached es) (k : UInt32) (l : Lexeme) :
    c.lexemes.get? k = some l ↔ l ∈ es.filterMap Edit.lexeme? ∧ l.id = k := by
  obtain ⟨c₀, rfl | rfl, ha, rfl⟩ := h.eq_putAll <;> rw [get?_lexemes_putAll ha] <;>
    exact or_iff_right nofun

theorem Reached.linksOf_eq (h : c.Reached es) (sign : String) :
    c.linksOf sign = (es.filterMap Edit.link?).filter (·.sign = sign) := by
  obtain ⟨c₀, rfl | rfl, -, rfl⟩ := h.eq_putAll <;> exact linksOf_putAll _ _ _

theorem Reached.mem_signs (h : c.Reached es) (sign : String) :
    sign ∈ c.links.keys ↔ ∃ l ∈ es.filterMap Edit.link?, l.sign = sign := by
  obtain ⟨c₀, rfl | rfl, -, rfl⟩ := h.eq_putAll <;> rw [mem_signs_putAll] <;>
    exact or_iff_right nofun

/-! ## Agreement -/

theorem get?_lexemes_congr (h : c.Reached es) (h' : c'.Reached es') (hp : es.Perm es') :
    ∀ k, c.lexemes.get? k = c'.lexemes.get? k := by
  intro k
  ext l
  rw [h.get?_lexemes, h'.get?_lexemes, (hp.filterMap _).mem_iff]

/-- Links of one sign are known by their priority. -/
theorem link_eq_of_priority_eq {l l' : Link} (hs : l.sign = l'.sign)
    (hp : l.priority = l'.priority) : l = l' := by
  cases l; cases l'
  simp_all [Link.priority]

theorem senses_congr (h : c.Reached es) (h' : c'.Reached es') (hp : es.Perm es') (sign : String) :
    c.senses sign = c'.senses sign := by
  have hlinks : (c.linksOf sign).Perm (c'.linksOf sign) := by
    rw [h.linksOf_eq, h'.linksOf_eq]
    exact (hp.filterMap _).filter _
  have hsign : ∀ l ∈ c.linksOf sign, l.sign = sign := by
    intro l hl
    rw [h.linksOf_eq] at hl
    simpa using (List.mem_filter.1 hl).2
  have hsort := sortByPriority_eq_of_perm hlinks fun l hl l' hl' =>
    link_eq_of_priority_eq ((hsign l hl).trans (hsign l' hl').symm)
  simp only [senses, hsort, get?_lexemes_congr h h' hp]

theorem activeRules_congr (h : c.Reached es) (h' : c'.Reached es') (hp : es.Perm es')
    (locale : String) : c.activeRules locale = c'.activeRules locale := by
  have hrules : (es.filterMap Edit.rule?).Perm (es'.filterMap Edit.rule?) := hp.filterMap _
  rw [h.activeRules_eq, h'.activeRules_eq]
  refine sortByPriority_eq_of_perm (hrules.filter _) fun r hr r' hr' => ?_
  exact Rule.eq_of_priority_eq h.nodup_rules r (List.mem_filter.1 hr).1 r' (List.mem_filter.1 hr').1

/-- **Catalogs with the same items and the same forms agree.** -/
theorem Reached.agree (h : c.Reached es) (h' : c'.Reached es') (hp : es.Perm es')
    (hf : c.forms = c'.forms) : c.Agree c' := by
  have hs : ∀ sign, c.senses sign = c'.senses sign := senses_congr h h' hp
  have hr : ∀ locale, c.activeRules locale = c'.activeRules locale := activeRules_congr h h' hp
  refine ⟨hs, hr, fun _ _ _ => by rw [hf], ?_, ?_, ?_, by rw [hf], fun req => ?_⟩
  · refine Table.size_eq_of_keys fun k => not_iff_not.1 ?_
    rw [← Table.get?_eq_none, ← Table.get?_eq_none, get?_lexemes_congr h h' hp]
  · refine Table.size_eq_of_keys fun sign => ?_
    simp only [h.mem_signs, h'.mem_signs, (hp.filterMap _).mem_iff]
  · rw [h.rules_eq, h'.rules_eq]
    exact (hp.filterMap _).length_eq
  · simp only [Catalog.interpret, sources, hs, hr, hf]

/-! ## Documents -/

theorem acceptsAll_lexemes {ls : List Lexeme} : c.AcceptsAll (ls.map .lexeme) ↔
    (ls.map Lexeme.id).Nodup ∧ ∀ l ∈ ls, c.lexemes.get? l.id = none := by
  induction ls generalizing c with
  | nil => simp [AcceptsAll]
  | cons l ls ih =>
    simp only [List.map_cons, AcceptsAll, Accepts, ih, List.nodup_cons, List.forall_mem_cons, put]
    constructor
    · rintro ⟨hl, hd, hls⟩
      have hne : ∀ l' ∈ ls, l.id ≠ l'.id := by
        intro l' hl' he
        have := hls l' hl'
        rw [← he, Table.get?_put_self] at this
        cases this
      refine ⟨⟨fun hm => ?_, hd⟩, hl, fun l' hl' => ?_⟩
      · obtain ⟨l', hl', he⟩ := List.mem_map.1 hm
        exact hne l' hl' he.symm
      · rw [← hls l' hl', Table.get?_put_of_ne (hne l' hl')]
    · rintro ⟨⟨hm, hd⟩, hl, hls⟩
      refine ⟨hl, hd, fun l' hl' => ?_⟩
      have hne : l.id ≠ l'.id := fun he => hm (he ▸ List.mem_map_of_mem hl')
      rw [Table.get?_put_of_ne hne, hls l' hl']

theorem acceptsAll_links {ls : List Link} : c.AcceptsAll (ls.map .link) ↔
    ∀ l ∈ ls, c.lexemes.get? l.lexeme ≠ none := by
  induction ls generalizing c with
  | nil => simp [AcceptsAll]
  | cons l ls ih =>
    rw [List.map_cons, AcceptsAll, ih, List.forall_mem_cons]
    rfl

theorem acceptsAll_rules {rs : List Rule} : c.AcceptsAll (rs.map .rule) ↔
    (rs.map Rule.id).Nodup ∧ ∀ r ∈ rs, r.id ∉ c.rules.map Rule.id := by
  induction rs generalizing c with
  | nil => simp [AcceptsAll]
  | cons r rs ih =>
    simp only [List.map_cons, AcceptsAll, Accepts, ih, List.nodup_cons, List.forall_mem_cons, put,
      List.map_append, List.mem_append, List.map_nil, List.mem_singleton, not_or]
    constructor
    · rintro ⟨hr, hd, hrs⟩
      refine ⟨⟨fun hm => ?_, hd⟩, hr, fun r' hr' => (hrs r' hr').1⟩
      obtain ⟨r', hr', he⟩ := List.mem_map.1 hm
      exact (hrs r' hr').2 he
    · rintro ⟨⟨hm, hd⟩, hr, hrs⟩
      exact ⟨hr, hd, fun r' hr' => ⟨hrs r' hr', fun he => hm (he ▸ List.mem_map_of_mem hr')⟩⟩

theorem acceptsAll_forms (fs : List Form) : c.AcceptsAll (fs.map .form) := by
  induction fs generalizing c with
  | nil => trivial
  | cons f fs ih => exact ⟨trivial, ih⟩

end Catalog

/-- The identifiers of a document are distinct, and its links name its lexemes. -/
structure Document.Consistent (d : Document) : Prop where
  lexemes : (d.lexemes.map Lexeme.id).Nodup
  links : ∀ l ∈ d.links, l.lexeme ∈ d.lexemes.map Lexeme.id
  rules : (d.rules.map Rule.id).Nodup

/-- The documents have the same lexemes, links and rules in any order, and the
    same forms in one order. -/
structure Document.Reordered (d d' : Document) : Prop where
  lexemes : d.lexemes.Perm d'.lexemes
  links : d.links.Perm d'.links
  rules : d.rules.Perm d'.rules
  forms : d.forms = d'.forms

namespace Catalog

theorem get?_lexemes_document {ls : List Lexeme} (h : spanish.AcceptsAll (ls.map .lexeme))
    (k : UInt32) :
    (spanish.putAll (ls.map .lexeme)).lexemes.get? k ≠ none ↔ k ∈ ls.map Lexeme.id := by
  have hls : (ls.map Edit.lexeme).filterMap Edit.lexeme? = ls := by
    simp [List.filterMap_map, Function.comp_def, Edit.lexeme?]
  rw [Option.ne_none_iff_exists', List.mem_map]
  refine exists_congr fun l => ?_
  rw [get?_lexemes_putAll h, hls]
  exact or_iff_right fun h => by cases h

/-- **A document has a catalog iff it is consistent.** -/
theorem exists_ofDocument_iff {d : Document} : (∃ c, ofDocument d = .ok c) ↔ d.Consistent := by
  have hrules : (spanish.putAll (d.lexemes.map .lexeme ++ d.links.map .link)).rules = [] := by
    rw [rules_putAll]
    simp [List.filterMap_map, Function.comp_def, Edit.rule?, spanish, Catalog.empty]
  simp only [ofDocument, addAll_eq_ok_iff, exists_and_left, exists_eq, and_true,
    Document.edits, acceptsAll_append, acceptsAll_forms, acceptsAll_rules, hrules, acceptsAll_links]
  constructor
  · rintro ⟨⟨hl, hk⟩, hr, -⟩
    exact ⟨(acceptsAll_lexemes.1 hl).1, fun l hl' => (get?_lexemes_document hl _).1 (hk l hl'), hr⟩
  · rintro ⟨hl, hk, hr⟩
    have ha : spanish.AcceptsAll (d.lexemes.map .lexeme) := acceptsAll_lexemes.2 ⟨hl, fun _ _ => rfl⟩
    exact ⟨⟨ha, fun l hl' => (get?_lexemes_document ha _).2 (hk l hl')⟩, hr, fun _ _ => by simp⟩

end Catalog

namespace Document

variable {d d' : Document}

theorem Reordered.symm (h : d.Reordered d') : d'.Reordered d :=
  ⟨h.lexemes.symm, h.links.symm, h.rules.symm, h.forms.symm⟩

theorem Reordered.consistent (h : d.Reordered d') (hc : d.Consistent) : d'.Consistent := by
  refine ⟨(h.lexemes.map _).nodup_iff.1 hc.lexemes, fun l hl => ?_,
    (h.rules.map _).nodup_iff.1 hc.rules⟩
  exact (h.lexemes.map _).mem_iff.1 (hc.links l (h.links.mem_iff.2 hl))

theorem Reordered.edits (h : d.Reordered d') : d.edits.Perm d'.edits := by
  unfold Document.edits
  rw [h.forms]
  exact (((h.lexemes.map _).append (h.links.map _)).append (h.rules.map _)).append_right _

end Document

namespace Catalog

/-- Catalogs of reordered documents agree. -/
theorem agree_of_reordered {d d' : Document} (h : d.Reordered d') {c c' : Catalog}
    (hc : ofDocument d = .ok c) (hc' : ofDocument d' = .ok c') : c.Agree c' := by
  refine (Reached.document hc).agree (.document hc') h.edits ?_
  rw [(addAll_eq_ok_iff.1 hc).2, (addAll_eq_ok_iff.1 hc').2, forms_putAll, forms_putAll,
    Document.forms_edits, Document.forms_edits, h.forms]

/-- **The order of edits does not matter**, but for that of forms, and neither
    does the order of a document's lexemes, links and rules. -/
theorem agree_of_perm :
    (∀ (past es es' : List Edit) (c c₁ c₂ : Catalog), c.Reached past →
      c.addAll es = .ok c₁ → c.addAll es' = .ok c₂ → es.Perm es' →
      es.filterMap Edit.form? = es'.filterMap Edit.form? → c₁.Agree c₂) ∧
    ∀ d d' : Document, d.Reordered d' →
      ((∃ c, ofDocument d = .ok c) ↔ ∃ c, ofDocument d' = .ok c) ∧
      ∀ c c', ofDocument d = .ok c → ofDocument d' = .ok c' → c.Agree c' := by
  refine ⟨fun past es es' c c₁ c₂ hc h₁ h₂ hp hf => ?_, fun d d' h => ⟨?_, fun c c' hc hc' => ?_⟩⟩
  · obtain ⟨ha₁, rfl⟩ := addAll_eq_ok_iff.1 h₁
    obtain ⟨ha₂, rfl⟩ := addAll_eq_ok_iff.1 h₂
    refine (hc.putAll ha₁).agree (hc.putAll ha₂) (hp.append_left past) ?_
    rw [forms_putAll, forms_putAll, hf]
  · rw [exists_ofDocument_iff, exists_ofDocument_iff]
    exact ⟨h.consistent, h.symm.consistent⟩
  · exact agree_of_reordered h hc hc'

/-- Edits in two orders, with two links of one weight, one of them twice, and two
    spellings of a form; and the same items as documents. -/
theorem agree_of_perm_ties :
    let low : Lexeme := ⟨3, "LOW", ⟨"NOUN"⟩, none⟩
    let high : Lexeme := ⟨7, "HIGH", .verb, none⟩
    let first : Rule := { id := 4, pattern := "[NOUN]", template := "{NOUN}" }
    let second : Rule := { id := 9, pattern := "[NOUN]", template := "uno" }
    let forms : List Form := [⟨"high", "pres", none, "alto"⟩, ⟨"HIGH ", "pres", none, "alta"⟩]
    let es : List Edit := [.lexeme low, .lexeme high, .link ⟨"S", 7, 1⟩, .link ⟨"S", 3, 1⟩,
      .link ⟨"S", 3, 1⟩, .rule first, .rule second] ++ forms.map .form
    let es' : List Edit := forms.map .form ++ [.rule second, .lexeme high, .lexeme low,
      .link ⟨"S", 3, 1⟩, .rule first, .link ⟨"S", 3, 1⟩, .link ⟨"S", 7, 1⟩]
    let d : Document := ⟨[low, high], [⟨"S", 7, 1⟩, ⟨"S", 3, 1⟩], [first, second], forms⟩
    let d' : Document := ⟨[high, low], [⟨"S", 3, 1⟩, ⟨"S", 7, 1⟩], [second, first], forms⟩
    (Catalog.empty.putAll es).Agree (Catalog.empty.putAll es') ∧
      (∃ c, ofDocument d' = .ok c) ∧ (spanish.putAll d.edits).Agree (spanish.putAll d'.edits) := by
  intro low high first second forms es es' d d'
  have ha : Catalog.empty.addAll es = .ok (Catalog.empty.putAll es) :=
    addAll_eq_ok_iff.2 ⟨by decide +kernel, rfl⟩
  have ha' : Catalog.empty.addAll es' = .ok (Catalog.empty.putAll es') :=
    addAll_eq_ok_iff.2 ⟨by decide +kernel, rfl⟩
  have hd : ofDocument d = .ok (spanish.putAll d.edits) :=
    addAll_eq_ok_iff.2 ⟨by decide +kernel, rfl⟩
  have hd' : ofDocument d' = .ok (spanish.putAll d'.edits) :=
    addAll_eq_ok_iff.2 ⟨by decide +kernel, rfl⟩
  have hr : d.Reordered d' := ⟨.swap .., .swap .., .swap .., rfl⟩
  obtain ⟨hex, hagree⟩ := agree_of_perm.2 d d' hr
  refine ⟨agree_of_perm.1 [] es es' _ _ _ .empty ha ha' (by decide +kernel) rfl, ?_, ?_⟩
  · exact hex.1 ⟨_, hd⟩
  · exact hagree _ _ hd hd'

end Catalog

end SignGloss
