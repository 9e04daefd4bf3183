/-
  Runs of edits.

  * `Accepts` says which items a catalog takes, and `put` is the catalog with an
    item in it, checked or not: an edit succeeds iff the item is accepted, and
    then it puts the item in (`add_eq_ok_iff`).  `AcceptsAll` and `putAll` are the
    same for sequences (`addAll_eq_ok_iff`);
  * what a sequence puts into each table depends on its items of one kind only
    (`rules_putAll`, `forms_putAll`, `linksOf_putAll`, `get?_lexemes_putAll`);
  * `Reached es c` says that `c` can be made, with the items `es` accepted on the
    way.  Such a catalog holds just these items (`Reached.eq_putAll`).

  An item that is not accepted is refused (`Refuses`), and nothing is left of the
  attempt (`run_edit`); a sequence fails at its first such item
  (`addAll_eq_error_iff`).
-/
import Mathlib.Data.List.Nodup
import SignGloss.Catalog

namespace SignGloss

namespace Edit

/-- The lexeme to add. -/
def lexeme? : Edit → Option Lexeme
  | lexeme l => some l
  | _ => none

/-- The link to add. -/
def link? : Edit → Option Link
  | link l => some l
  | _ => none

/-- The rule to add. -/
def rule? : Edit → Option Rule
  | rule r => some r
  | _ => none

/-- The form to add. -/
def form? : Edit → Option Form
  | form f => some f
  | _ => none

end Edit

namespace Document

variable (d : Document)

theorem rules_edits : d.edits.filterMap Edit.rule? = d.rules := by
  simp [edits, List.filterMap_map, Function.comp_def, Edit.rule?]

theorem forms_edits : d.edits.filterMap Edit.form? = d.forms := by
  simp [edits, List.filterMap_map, Function.comp_def, Edit.form?]

end Document

namespace Catalog

variable {c c' : Catalog} {e : Edit} {es es' : List Edit}

/-! ## One edit -/

/-- The catalog takes the item. -/
def Accepts (c : Catalog) : Edit → Prop
  | .lexeme l => c.lexemes.get? l.id = none
  | .link l => c.lexemes.get? l.lexeme ≠ none
  | .rule r => r.id ∉ c.rules.map Rule.id
  | .form _ => True

instance (c : Catalog) : (e : Edit) → Decidable (c.Accepts e)
  | .lexeme l => inferInstanceAs (Decidable (c.lexemes.get? l.id = none))
  | .link l => inferInstanceAs (Decidable (c.lexemes.get? l.lexeme ≠ none))
  | .rule r => inferInstanceAs (Decidable (r.id ∉ c.rules.map Rule.id))
  | .form _ => inferInstanceAs (Decidable True)

/-- The catalog with an item in it. -/
def put (c : Catalog) : Edit → Catalog
  | .lexeme l => { c with lexemes := c.lexemes.put l.id l }
  | .link l => { c with links := c.links.put l.sign (c.linksOf l.sign ++ [l]) }
  | .rule r => { c with rules := c.rules ++ [r] }
  | .form f => { c with forms := c.forms.add f }

/-- The catalog refuses an item, for the problem that it tells. -/
inductive Refuses (c : Catalog) : Edit → Problem → Prop
  | lexeme {l : Lexeme} : c.lexemes.get? l.id ≠ none →
      Refuses c (.lexeme l) (.duplicateLexeme l.id)
  | link {l : Link} : c.lexemes.get? l.lexeme = none →
      Refuses c (.link l) (.unknownLexeme l.sign l.lexeme)
  | rule {r : Rule} : r.id ∈ c.rules.map Rule.id → Refuses c (.rule r) (.duplicateRule r.id)

theorem Refuses.not_accepts {p : Problem} (h : c.Refuses e p) : ¬ c.Accepts e := by
  cases h with
  | lexeme h => exact h
  | link h => exact fun ha => ha h
  | rule h => exact fun ha => ha h

/-- **An edit puts in its item, or it is refused and leaves everything as it was.** -/
theorem run_edit (c : Catalog) (e : Edit) :
    (c.Accepts e ∧ (edit e).run c = .ok () (c.put e)) ∨
      ∃ p, c.Refuses e p ∧ (edit e).run c = .error p c := by
  cases e with
  | lexeme l =>
    cases h : c.lexemes.get? l.id with
    | none =>
      refine Or.inl ⟨h, ?_⟩
      simp [edit, put, h]
    | some x =>
      refine Or.inr ⟨_, .lexeme (by simp [h]), ?_⟩
      simp [edit, h]
  | link l =>
    cases h : c.lexemes.get? l.lexeme with
    | none =>
      refine Or.inr ⟨_, .link h, ?_⟩
      simp [edit, h]
    | some x =>
      refine Or.inl ⟨by simp [Accepts, h], ?_⟩
      simp [edit, put, h]
  | rule r =>
    by_cases h : r.id ∈ c.rules.map Rule.id
    · have hx : ∃ x ∈ c.rules, x.id = r.id := by simpa using h
      refine Or.inr ⟨_, .rule h, ?_⟩
      simp [edit, hx]
    · have hx : ¬ ∃ x ∈ c.rules, x.id = r.id := by simpa using h
      refine Or.inl ⟨h, ?_⟩
      simp [edit, put, hx]
  | form f => exact Or.inl ⟨trivial, rfl⟩

/-- **An edit succeeds iff the item is accepted**, and then the item is put in. -/
theorem add_eq_ok_iff : c.add e = .ok c' ↔ c.Accepts e ∧ c' = c.put e := by
  unfold add
  rcases run_edit c e with ⟨ha, hrun⟩ | ⟨p, hp, hrun⟩
  · simp [hrun, ha, eq_comm]
  · simp [hrun, hp.not_accepts]

/-- An edit fails iff the item is refused, with the problem of that. -/
theorem add_eq_error_iff {p : Problem} : c.add e = .error p ↔ c.Refuses e p := by
  unfold add
  rcases run_edit c e with ⟨ha, hrun⟩ | ⟨q, hq, hrun⟩
  · simp only [hrun, reduceCtorEq, false_iff]
    exact fun hp => hp.not_accepts ha
  · simp only [hrun, Except.error.injEq]
    constructor
    · rintro rfl
      exact hq
    · intro hp
      cases hp <;> cases hq <;> rfl

theorem attempt_of_accepts (h : c.Accepts e) : c.attempt e = c.put e := by
  unfold attempt
  rcases run_edit c e with ⟨-, hrun⟩ | ⟨p, hp, -⟩
  · rw [hrun]
  · exact absurd h hp.not_accepts

theorem attempt_of_not_accepts (h : ¬ c.Accepts e) : c.attempt e = c := by
  unfold attempt
  rcases run_edit c e with ⟨ha, -⟩ | ⟨p, -, hrun⟩
  · exact absurd ha h
  · rw [hrun]

theorem rules_put (c : Catalog) (e : Edit) : (c.put e).rules = c.rules ++ e.rule?.toList := by
  cases e <;> simp [put, Edit.rule?]

theorem forms_put (c : Catalog) (e : Edit) :
    (c.put e).forms = c.forms.addAll e.form?.toList := by
  cases e <;> rfl

theorem linksOf_put (c : Catalog) (e : Edit) (sign : String) :
    (c.put e).linksOf sign = c.linksOf sign ++ e.link?.toList.filter (·.sign = sign) := by
  cases e with
  | link l =>
    by_cases h : l.sign = sign
    · subst h
      simp [put, linksOf, Table.get?_put_self, Edit.link?]
    · simp [put, linksOf, Table.get?_put_of_ne h, Edit.link?, h]
  | lexeme | rule | form => simp [put, linksOf, Edit.link?]

theorem mem_signs_put (c : Catalog) (e : Edit) (sign : String) :
    sign ∈ (c.put e).links.keys ↔ sign ∈ c.links.keys ∨ ∃ l ∈ e.link?.toList, l.sign = sign := by
  cases e with
  | link l =>
    simp only [put, Table.keys_put, Edit.link?, Option.toList_some, List.mem_singleton,
      exists_eq_left]
    split
    · rename_i h
      exact ⟨Or.inl, fun h' => h'.elim id fun he => he ▸ h⟩
    · simp [eq_comm]
  | lexeme | rule | form => simp [put, Edit.link?]

theorem get?_lexemes_put (h : c.Accepts e) (k : UInt32) (l : Lexeme) :
    (c.put e).lexemes.get? k = some l ↔
      c.lexemes.get? k = some l ∨ (l ∈ e.lexeme?.toList ∧ l.id = k) := by
  cases e with
  | lexeme l' =>
    have hn : c.lexemes.get? l'.id = none := h
    simp only [put, Edit.lexeme?, Option.toList_some, List.mem_singleton]
    by_cases hk : l'.id = k
    · subst hk
      rw [Table.get?_put_self, hn]
      constructor
      · rintro ⟨⟩
        exact Or.inr ⟨rfl, rfl⟩
      · rintro (h | ⟨rfl, -⟩)
        · cases h
        · rfl
    · rw [Table.get?_put_of_ne hk]
      exact ⟨Or.inl, fun h' => h'.elim id fun ⟨hl, hl'⟩ => absurd (hl ▸ hl') hk⟩
  | link | rule | form => simp [put, Edit.lexeme?]

/-! ## Sequences of edits -/

/-- The catalog takes all items, one after the other. -/
def AcceptsAll (c : Catalog) : List Edit → Prop
  | [] => True
  | e :: es => c.Accepts e ∧ (c.put e).AcceptsAll es

instance decidableAcceptsAll : (es : List Edit) → (c : Catalog) → Decidable (c.AcceptsAll es)
  | [], _ => inferInstanceAs (Decidable True)
  | e :: es, c =>
    have := decidableAcceptsAll es (c.put e)
    inferInstanceAs (Decidable (c.Accepts e ∧ (c.put e).AcceptsAll es))

/-- The catalog with more items in it. -/
def putAll (c : Catalog) (es : List Edit) : Catalog := es.foldl put c

@[simp] theorem putAll_nil (c : Catalog) : c.putAll [] = c := rfl

@[simp] theorem putAll_cons (c : Catalog) (e : Edit) (es : List Edit) :
    c.putAll (e :: es) = (c.put e).putAll es := rfl

theorem putAll_append (c : Catalog) (es es' : List Edit) :
    c.putAll (es ++ es') = (c.putAll es).putAll es' := List.foldl_append

theorem acceptsAll_append :
    c.AcceptsAll (es ++ es') ↔ c.AcceptsAll es ∧ (c.putAll es).AcceptsAll es' := by
  induction es generalizing c with
  | nil => simp [AcceptsAll]
  | cons e es ih => simp only [List.cons_append, AcceptsAll, putAll_cons, ih, and_assoc]

theorem addAll_cons (c : Catalog) (e : Edit) (es : List Edit) :
    c.addAll (e :: es) = c.add e >>= fun d => d.addAll es := List.foldlM_cons

/-- **A sequence succeeds iff all items are accepted**, and then they are put in. -/
theorem addAll_eq_ok_iff : c.addAll es = .ok c' ↔ c.AcceptsAll es ∧ c' = c.putAll es := by
  induction es generalizing c with
  | nil => simp [addAll, AcceptsAll, pure, Except.pure, eq_comm]
  | cons e es ih =>
    rw [addAll_cons, AcceptsAll, putAll_cons]
    cases h : c.add e with
    | error p =>
      have hn : ¬ c.Accepts e := fun ha => by
        rw [add_eq_ok_iff.2 ⟨ha, rfl⟩] at h
        cases h
      simp [bind, Except.bind, hn]
    | ok d =>
      obtain ⟨ha, rfl⟩ := add_eq_ok_iff.1 h
      simp only [bind, Except.bind, ih, ha, true_and]

theorem addAll_append (c : Catalog) (es es' : List Edit) :
    c.addAll (es ++ es') = c.addAll es >>= fun d => d.addAll es' := List.foldlM_append

/-- A sequence fails at its first item that is refused. -/
theorem addAll_eq_error_iff {p : Problem} : c.addAll es = .error p ↔
    ∃ before e after, es = before ++ e :: after ∧ c.AcceptsAll before ∧
      (c.putAll before).Refuses e p := by
  induction es generalizing c with
  | nil => simp [addAll, pure, Except.pure]
  | cons e es ih =>
    rw [addAll_cons]
    constructor
    · intro h
      cases he : c.add e with
      | error q =>
        rw [he] at h
        obtain rfl : q = p := Except.error.inj h
        exact ⟨[], e, es, rfl, trivial, add_eq_error_iff.1 he⟩
      | ok d =>
        rw [he] at h
        obtain ⟨ha, rfl⟩ := add_eq_ok_iff.1 he
        obtain ⟨before, e', after, rfl, hb, hr⟩ := ih.1 h
        exact ⟨e :: before, e', after, rfl, ⟨ha, hb⟩, hr⟩
    · rintro ⟨_ | ⟨e', before⟩, e'', after, hes, hb, hr⟩
      · obtain ⟨rfl, rfl⟩ := List.cons.inj hes
        have he : c.add e = .error p := add_eq_error_iff.2 hr
        rw [he]
        rfl
      · obtain ⟨rfl, rfl⟩ := List.cons.inj hes
        have he : c.add e = .ok (c.put e) := add_eq_ok_iff.2 ⟨hb.1, rfl⟩
        rw [he]
        exact ih.2 ⟨before, e'', after, rfl, hb.2, hr⟩

theorem rules_putAll (c : Catalog) (es : List Edit) :
    (c.putAll es).rules = c.rules ++ es.filterMap Edit.rule? := by
  induction es generalizing c with
  | nil => simp
  | cons e es ih =>
    rw [putAll_cons, ih, rules_put, List.append_assoc]
    cases h : e.rule? <;> simp [h]

theorem forms_putAll (c : Catalog) (es : List Edit) :
    (c.putAll es).forms = c.forms.addAll (es.filterMap Edit.form?) := by
  induction es generalizing c with
  | nil => rfl
  | cons e es ih =>
    rw [putAll_cons, ih, forms_put]
    cases h : e.form? <;> simp [h, Conjugation.addAll]

theorem linksOf_putAll (c : Catalog) (es : List Edit) (sign : String) :
    (c.putAll es).linksOf sign =
      c.linksOf sign ++ (es.filterMap Edit.link?).filter (·.sign = sign) := by
  induction es generalizing c with
  | nil => simp
  | cons e es ih =>
    rw [putAll_cons, ih, linksOf_put, List.append_assoc]
    cases h : e.link? <;> simp [h, List.filter_cons]
    split <;> rfl

theorem mem_signs_putAll (c : Catalog) (es : List Edit) (sign : String) :
    sign ∈ (c.putAll es).links.keys ↔
      sign ∈ c.links.keys ∨ ∃ l ∈ es.filterMap Edit.link?, l.sign = sign := by
  induction es generalizing c with
  | nil => simp
  | cons e es ih =>
    rw [putAll_cons, ih, mem_signs_put, or_assoc]
    cases h : e.link? <;> simp [h]

theorem get?_lexemes_putAll (h : c.AcceptsAll es) (k : UInt32) (l : Lexeme) :
    (c.putAll es).lexemes.get? k = some l ↔
      c.lexemes.get? k = some l ∨ (l ∈ es.filterMap Edit.lexeme? ∧ l.id = k) := by
  induction es generalizing c with
  | nil => simp
  | cons e es ih =>
    obtain ⟨he, hes⟩ := h
    rw [putAll_cons, ih hes, get?_lexemes_put he, or_assoc, ← or_and_right]
    cases h : e.lexeme? <;> simp [h, eq_comm]

/-- Rules keep distinct identifiers. -/
theorem nodup_rules_putAll (h : c.AcceptsAll es) (hd : (c.rules.map Rule.id).Nodup) :
    ((c.putAll es).rules.map Rule.id).Nodup := by
  induction es generalizing c with
  | nil => exact hd
  | cons e es ih =>
    obtain ⟨he, hes⟩ := h
    refine ih hes ?_
    cases e with
    | rule r =>
      have hr : r.id ∉ c.rules.map Rule.id := he
      rw [rules_put]
      simpa [Edit.rule?, List.nodup_append, hd] using hr
    | lexeme | link | form => exact hd

/-! ## Catalogs that can be made -/

/-- The edit, if it succeeds. -/
def taken (c : Catalog) (e : Edit) : List Edit :=
  match c.add e with
  | .ok _ => [e]
  | .error _ => []

/-- The catalog can be made, from nothing or from a document, by attempts to add
    items, of which `es` are accepted. -/
inductive Reached : List Edit → Catalog → Prop
  | empty : Reached [] empty
  | document {d : Document} {c : Catalog} (h : ofDocument d = .ok c) : Reached d.edits c
  | attempt {es : List Edit} {c : Catalog} (h : Reached es c) (e : Edit) :
      Reached (es ++ c.taken e) (c.attempt e)

/-- **A catalog holds the items that were accepted**, and the forms it started with. -/
theorem Reached.eq_putAll (h : Reached es c) :
    ∃ c₀, (c₀ = Catalog.empty ∨ c₀ = spanish) ∧ c₀.AcceptsAll es ∧ c = c₀.putAll es := by
  induction h with
  | empty => exact ⟨_, Or.inl rfl, trivial, rfl⟩
  | document h => exact ⟨_, Or.inr rfl, addAll_eq_ok_iff.1 h⟩
  | @attempt es c _ e ih =>
    obtain ⟨c₀, hc₀, ha, rfl⟩ := ih
    refine ⟨c₀, hc₀, ?_⟩
    unfold taken
    cases h : (c₀.putAll es).add e with
    | error p =>
      have hn := (add_eq_error_iff.1 h).not_accepts
      exact ⟨by simpa using ha, by simp [attempt_of_not_accepts hn]⟩
    | ok d =>
      obtain ⟨he, rfl⟩ := add_eq_ok_iff.1 h
      rw [acceptsAll_append, putAll_append, attempt_of_accepts he]
      exact ⟨⟨ha, he, trivial⟩, rfl⟩

theorem Reached.rules_eq (h : Reached es c) : c.rules = es.filterMap Edit.rule? := by
  obtain ⟨c₀, rfl | rfl, -, rfl⟩ := h.eq_putAll <;> exact rules_putAll _ _

/-- The rules that were accepted have distinct identifiers. -/
theorem Reached.nodup_rules (h : Reached es c) : ((es.filterMap Edit.rule?).map Rule.id).Nodup := by
  rw [← h.rules_eq]
  obtain ⟨c₀, rfl | rfl, ha, rfl⟩ := h.eq_putAll <;> exact nodup_rules_putAll ha List.nodup_nil

theorem Reached.activeRules_eq (h : Reached es c) (locale : String) :
    c.activeRules locale = SignGloss.activeRules (es.filterMap Edit.rule?) locale := by
  rw [← h.rules_eq]
  rfl

end Catalog

end SignGloss
