/-
  What is refused, and what is left of it.

  * an edit either adds its item and nothing else (`Adds`), or it is refused and
    the catalog is as it was before.  An identifier is taken if the catalog
    `Knows` a lexeme with it, under whatever key;
  * a document is loaded item by item: all lexemes, then all links, then all
    rules.  `FirstProblem d p` says that `p` is about the first of them that cannot
    be added.

  Main statement: which edits are refused, what the others add, and which problem
  of a document is told (`Catalog.edits_atomic_and_first_problem`).
-/
import SignGloss.Proofs.CatalogIntegrity

namespace SignGloss

namespace Catalog

variable {c c' : Catalog} {e : Edit}

/-! ## Edits in place -/

/-- The catalog has a lexeme with the identifier. -/
def Knows (c : Catalog) (id : UInt32) : Prop := ∃ k l, c.lexemes.get? k = some l ∧ l.id = id

theorem Intact.knows_iff (h : c.Intact) {id : UInt32} :
    c.Knows id ↔ c.lexemes.get? id ≠ none := by
  rw [Option.ne_none_iff_exists']
  constructor
  · rintro ⟨k, l, hl, rfl⟩
    exact ⟨l, by rwa [h.lexeme_id k l hl]⟩
  · rintro ⟨l, hl⟩
    exact ⟨id, l, hl, h.lexeme_id id l hl⟩

/-- The second catalog is the first with one more item, and nothing else of it is
    different. -/
def Adds (c c' : Catalog) : Edit → Prop
  | .lexeme l =>
    (∀ k, c'.lexemes.get? k = if k = l.id then some l else c.lexemes.get? k) ∧
      c'.links = c.links ∧ c'.rules = c.rules ∧ c'.forms = c.forms
  | .link l =>
    (∀ sign, c'.links.get? sign =
      if sign = l.sign then some (c.linksOf sign ++ [l]) else c.links.get? sign) ∧
      c'.lexemes = c.lexemes ∧ c'.rules = c.rules ∧ c'.forms = c.forms
  | .rule r =>
    c'.rules = c.rules ++ [r] ∧
      c'.lexemes = c.lexemes ∧ c'.links = c.links ∧ c'.forms = c.forms
  | .form f =>
    (∀ gloss code person, c'.forms.find? gloss code person =
      if FormKey.of gloss code person = f.key then some f.surface
      else c.forms.find? gloss code person) ∧
      c'.lexemes = c.lexemes ∧ c'.links = c.links ∧ c'.rules = c.rules

/-- What is put in is added. -/
theorem adds_put (c : Catalog) (e : Edit) : c.Adds (c.put e) e := by
  cases e with
  | lexeme l =>
    refine ⟨fun k => ?_, rfl, rfl, rfl⟩
    split
    · rename_i hk
      rw [hk, put, Table.get?_put_self]
    · rename_i hk
      rw [put, Table.get?_put_of_ne (Ne.symm hk)]
  | link l =>
    refine ⟨fun sign => ?_, rfl, rfl, rfl⟩
    split
    · rename_i hs
      rw [hs, put, Table.get?_put_self]
    · rename_i hs
      rw [put, Table.get?_put_of_ne (Ne.symm hs)]
  | rule r => exact ⟨rfl, rfl, rfl, rfl⟩
  | form f =>
    refine ⟨fun gloss code person => ?_, rfl, rfl, rfl⟩
    simp only [put, Conjugation.add, Conjugation.find?]
    split
    · rename_i hk
      rw [hk, Table.get?_put_self]
    · rename_i hk
      rw [Table.get?_put_of_ne (Ne.symm hk)]

/-- An edit fails iff its item is refused, and leaves the catalog as it was. -/
theorem run_edit_eq_error_iff {p : Problem} :
    (edit e).run c = .error p c' ↔ c.Refuses e p ∧ c' = c := by
  rcases run_edit c e with ⟨ha, hrun⟩ | ⟨q, hq, hrun⟩
  · rw [hrun]
    constructor
    · intro h
      cases h
    · rintro ⟨hp, -⟩
      exact absurd ha hp.not_accepts
  · have hadd : c.add e = .error q := add_eq_error_iff.2 hq
    rw [hrun]
    constructor
    · intro h
      cases h
      exact ⟨hq, rfl⟩
    · rintro ⟨hp, rfl⟩
      obtain rfl : q = p := Except.error.inj (hadd.symm.trans (add_eq_error_iff.2 hp))
      rfl

/-- An edit that succeeds adds its item. -/
theorem adds_of_run_edit (h : (edit e).run c = .ok () c') : c.Adds c' e := by
  rcases run_edit c e with ⟨-, hrun⟩ | ⟨p, -, hrun⟩
  · rw [hrun] at h
    cases h
    exact adds_put c e
  · rw [hrun] at h
    cases h

section
variable {p : Problem}

theorem refuses_lexeme_iff {l : Lexeme} :
    c.Refuses (.lexeme l) p ↔ c.lexemes.get? l.id ≠ none ∧ p = .duplicateLexeme l.id := by
  constructor
  · intro h
    cases h with
    | lexeme hl => exact ⟨hl, rfl⟩
  · rintro ⟨hl, rfl⟩
    exact .lexeme hl

theorem refuses_link_iff {l : Link} :
    c.Refuses (.link l) p ↔
      c.lexemes.get? l.lexeme = none ∧ p = .unknownLexeme l.sign l.lexeme := by
  constructor
  · intro h
    cases h with
    | link hl => exact ⟨hl, rfl⟩
  · rintro ⟨hl, rfl⟩
    exact .link hl

theorem refuses_rule_iff {r : Rule} :
    c.Refuses (.rule r) p ↔ r.id ∈ c.rules.map Rule.id ∧ p = .duplicateRule r.id := by
  constructor
  · intro h
    cases h with
    | rule hr => exact ⟨hr, rfl⟩
  · rintro ⟨hr, rfl⟩
    exact .rule hr

end

end Catalog

/-! ## Documents -/

/-- The problem is about the first item of a document that cannot be added, where
    all lexemes come before all links, and these before all rules. -/
inductive Document.FirstProblem (d : Document) : Problem → Prop
  | lexeme {before after : List Lexeme} {l : Lexeme} :
      d.lexemes = before ++ l :: after →
      (before.map Lexeme.id).Nodup → l.id ∈ before.map Lexeme.id →
      FirstProblem d (.duplicateLexeme l.id)
  | link {before after : List Link} {l : Link} :
      (d.lexemes.map Lexeme.id).Nodup →
      d.links = before ++ l :: after →
      (∀ l' ∈ before, l'.lexeme ∈ d.lexemes.map Lexeme.id) →
      l.lexeme ∉ d.lexemes.map Lexeme.id →
      FirstProblem d (.unknownLexeme l.sign l.lexeme)
  | rule {before after : List Rule} {r : Rule} :
      (d.lexemes.map Lexeme.id).Nodup →
      (∀ l ∈ d.links, l.lexeme ∈ d.lexemes.map Lexeme.id) →
      d.rules = before ++ r :: after →
      (before.map Rule.id).Nodup → r.id ∈ before.map Rule.id →
      FirstProblem d (.duplicateRule r.id)

namespace Catalog

variable {c : Catalog} {p : Problem}

/-- A sequence of two parts fails in the first or, if all of that is accepted, in
    the second. -/
theorem addAll_append_eq_error_iff {es es' : List Edit} : c.addAll (es ++ es') = .error p ↔
    c.addAll es = .error p ∨ (c.AcceptsAll es ∧ (c.putAll es).addAll es' = .error p) := by
  rw [addAll_append]
  cases h : c.addAll es with
  | error q =>
    have hn : ¬ c.AcceptsAll es := fun ha => by
      rw [addAll_eq_ok_iff.2 ⟨ha, rfl⟩] at h
      cases h
    simp [bind, Except.bind, hn]
  | ok d =>
    obtain ⟨ha, rfl⟩ := addAll_eq_ok_iff.1 h
    simp [bind, Except.bind, ha]

/-- A sequence of items of one kind fails at the first that is refused. -/
theorem addAll_map_eq_error_iff {α : Type} {f : α → Edit} {xs : List α} :
    c.addAll (xs.map f) = .error p ↔ ∃ before x after, xs = before ++ x :: after ∧
      c.AcceptsAll (before.map f) ∧ (c.putAll (before.map f)).Refuses (f x) p := by
  rw [addAll_eq_error_iff]
  constructor
  · rintro ⟨b, e, a, h, hb, hr⟩
    obtain ⟨before, rest, rfl, rfl, hrest⟩ := List.map_eq_append_iff.1 h
    obtain ⟨x, after, rfl, rfl, -⟩ := List.map_eq_cons_iff.1 hrest
    exact ⟨before, x, after, rfl, hb, hr⟩
  · rintro ⟨before, x, after, rfl, hb, hr⟩
    exact ⟨_, _, after.map f, by rw [List.map_append, List.map_cons], hb, hr⟩

/-- The lexemes of a document are accepted iff their identifiers are distinct. -/
theorem acceptsAll_document_lexemes {ls : List Lexeme} :
    spanish.AcceptsAll (ls.map .lexeme) ↔ (ls.map Lexeme.id).Nodup :=
  acceptsAll_lexemes.trans (and_iff_left fun _ _ => rfl)

theorem addAll_lexemes_eq_error_iff {ls : List Lexeme} :
    spanish.addAll (ls.map .lexeme) = .error p ↔ ∃ before l after, ls = before ++ l :: after ∧
      (before.map Lexeme.id).Nodup ∧ l.id ∈ before.map Lexeme.id ∧ p = .duplicateLexeme l.id := by
  rw [addAll_map_eq_error_iff]
  refine exists_congr fun before => exists_congr fun l => exists_congr fun after =>
    and_congr_right fun _ => ?_
  rw [acceptsAll_document_lexemes, refuses_lexeme_iff]
  refine and_congr_right fun hd => and_congr_left fun _ => ?_
  exact get?_lexemes_document (acceptsAll_document_lexemes.2 hd) l.id

theorem lexemes_putAll_links (c : Catalog) (ls : List Link) :
    (c.putAll (ls.map .link)).lexemes = c.lexemes := by
  induction ls generalizing c with
  | nil => rfl
  | cons l ls ih => exact ih (c.put (.link l))

theorem addAll_links_eq_error_iff {ls : List Link} :
    c.addAll (ls.map .link) = .error p ↔ ∃ before l after, ls = before ++ l :: after ∧
      (∀ l' ∈ before, c.lexemes.get? l'.lexeme ≠ none) ∧ c.lexemes.get? l.lexeme = none ∧
      p = .unknownLexeme l.sign l.lexeme := by
  rw [addAll_map_eq_error_iff]
  refine exists_congr fun before => exists_congr fun l => exists_congr fun after =>
    and_congr_right fun _ => and_congr acceptsAll_links ?_
  rw [refuses_link_iff, lexemes_putAll_links]

theorem addAll_rules_eq_error_iff {rs : List Rule} (h : c.rules = []) :
    c.addAll (rs.map .rule) = .error p ↔ ∃ before r after, rs = before ++ r :: after ∧
      (before.map Rule.id).Nodup ∧ r.id ∈ before.map Rule.id ∧ p = .duplicateRule r.id := by
  rw [addAll_map_eq_error_iff]
  refine exists_congr fun before => exists_congr fun r => exists_congr fun after =>
    and_congr_right fun _ => and_congr ?_ ?_
  · rw [acceptsAll_rules, h]
    simp
  · have hrules : (c.putAll (before.map .rule)).rules = before := by
      rw [rules_putAll, h]
      simp [List.filterMap_map, Function.comp_def, Edit.rule?]
    rw [refuses_rule_iff, hrules]

/-- **A document fails with the problem of its first item that cannot be added.** -/
theorem ofDocument_eq_error_iff {d : Document} : ofDocument d = .error p ↔ d.FirstProblem p := by
  have hforms : ∀ c : Catalog, c.addAll (d.forms.map .form) ≠ .error p := fun c h => by
    rw [addAll_eq_ok_iff.2 ⟨acceptsAll_forms d.forms, rfl⟩] at h
    cases h
  have hrules : (spanish.putAll (d.lexemes.map .lexeme ++ d.links.map .link)).rules = [] := by
    rw [rules_putAll]
    simp [List.filterMap_map, Function.comp_def, Edit.rule?, spanish, Catalog.empty]
  have hknown : (d.lexemes.map Lexeme.id).Nodup → ∀ k,
      (spanish.putAll (d.lexemes.map .lexeme)).lexemes.get? k ≠ none ↔
        k ∈ d.lexemes.map Lexeme.id := fun hd =>
    get?_lexemes_document (acceptsAll_document_lexemes.2 hd)
  rw [ofDocument, Document.edits, addAll_append_eq_error_iff, addAll_append_eq_error_iff,
    addAll_append_eq_error_iff, addAll_lexemes_eq_error_iff, addAll_links_eq_error_iff,
    addAll_rules_eq_error_iff hrules, acceptsAll_append, acceptsAll_document_lexemes,
    acceptsAll_links]
  constructor
  · rintro (((⟨before, l, after, hls, hd, hl, rfl⟩ | ⟨hd, before, l, after, hls, hb, hl, rfl⟩) |
      ⟨⟨hd, hk⟩, before, r, after, hrs, hb, hr, rfl⟩) | ⟨-, h⟩)
    · exact .lexeme hls hd hl
    · exact .link hd hls (fun l' hl' => (hknown hd _).1 (hb l' hl')) fun hm =>
        (hknown hd _).2 hm hl
    · exact .rule hd (fun l hl => (hknown hd _).1 (hk l hl)) hrs hb hr
    · exact absurd h (hforms _)
  · intro h
    cases h with
    | lexeme hls hd hl => exact Or.inl (Or.inl (Or.inl ⟨_, _, _, hls, hd, hl, rfl⟩))
    | link hd hls hb hl =>
      refine Or.inl (Or.inl (Or.inr ⟨hd, _, _, _, hls, fun l' hl' => ?_, ?_, rfl⟩))
      · exact (hknown hd _).2 (hb l' hl')
      · exact not_not.1 (mt (hknown hd _).1 hl)
    | rule hd hk hrs hb hr =>
      exact Or.inl (Or.inr ⟨⟨hd, fun l hl => (hknown hd _).2 (hk l hl)⟩, _, _, _, hrs, hb, hr, rfl⟩)

/-- A document fails iff it is not consistent. -/
theorem exists_ofDocument_error_iff {d : Document} :
    (∃ p, ofDocument d = .error p) ↔ ¬ d.Consistent := by
  rw [← exists_ofDocument_iff]
  cases ofDocument d <;> simp

/-! ## All together -/

/-- **Edits are refused as a whole, documents at their first problem.**  In a catalog
    that can be made, an edit is refused iff its identifier is taken, or names no
    lexeme if it is a link; then the catalog is as it was, and otherwise it has the
    item and is the same in all else.  A document fails iff it has two lexemes or two
    rules with one identifier or a link to none of its lexemes, and with the problem
    of the first of these items. -/
theorem edits_atomic_and_first_problem :
    (∀ (es : List Edit) (c : Catalog), c.Reached es →
      (∀ l p c', (edit (.lexeme l)).run c = .error p c' ↔
        c.Knows l.id ∧ p = .duplicateLexeme l.id ∧ c' = c) ∧
      (∀ l p c', (edit (.link l)).run c = .error p c' ↔
        ¬ c.Knows l.lexeme ∧ p = .unknownLexeme l.sign l.lexeme ∧ c' = c) ∧
      (∀ r p c', (edit (.rule r)).run c = .error p c' ↔
        (∃ s ∈ c.rules, s.id = r.id) ∧ p = .duplicateRule r.id ∧ c' = c) ∧
      (∀ f p c', (edit (.form f)).run c ≠ .error p c') ∧
      ∀ e c', (edit e).run c = .ok () c' → c.Adds c' e) ∧
    ∀ d : Document,
      ((∃ p, ofDocument d = .error p) ↔
        ¬ (d.lexemes.map Lexeme.id).Nodup ∨ (∃ l ∈ d.links, ∀ x ∈ d.lexemes, x.id ≠ l.lexeme) ∨
          ¬ (d.rules.map Rule.id).Nodup) ∧
      ∀ p, ofDocument d = .error p ↔ d.FirstProblem p := by
  refine ⟨fun es c hc => ⟨fun l p c' => ?_, fun l p c' => ?_, fun r p c' => ?_, fun f p c' h => ?_,
    fun e c' => adds_of_run_edit⟩, fun d => ⟨?_, fun p => ofDocument_eq_error_iff⟩⟩
  · rw [run_edit_eq_error_iff, refuses_lexeme_iff, hc.intact.knows_iff, and_assoc]
  · rw [run_edit_eq_error_iff, refuses_link_iff, hc.intact.knows_iff, not_not, and_assoc]
  · rw [run_edit_eq_error_iff, refuses_rule_iff, List.mem_map, and_assoc]
  · cases (run_edit_eq_error_iff.1 h).1
  · have hlinks : (∃ l ∈ d.links, ∀ x ∈ d.lexemes, x.id ≠ l.lexeme) ↔
        ¬ ∀ l ∈ d.links, l.lexeme ∈ d.lexemes.map Lexeme.id := by
      simp
    have hparts : d.Consistent ↔ (d.lexemes.map Lexeme.id).Nodup ∧
        (∀ l ∈ d.links, l.lexeme ∈ d.lexemes.map Lexeme.id) ∧ (d.rules.map Rule.id).Nodup :=
      ⟨fun h => ⟨h.lexemes, h.links, h.rules⟩, fun h => ⟨h.1, h.2.1, h.2.2⟩⟩
    rw [exists_ofDocument_error_iff, hparts, hlinks]
    tauto

/-- A catalog with a refused link in its past: the identifier of its lexeme is
    refused a second time; and a document with a link to no lexeme before two rules
    of one identifier, where the link is the problem. -/
theorem edits_atomic_and_first_problem_twice :
    let yo : Lexeme := ⟨1, "YO", ⟨"PRON"⟩, none⟩
    let c := (Catalog.empty.attempt (.link ⟨"YO", 1, 0⟩)).attempt (.lexeme yo)
    let d : Document := {
      lexemes := [yo]
      links := [⟨"YO", 1, 0⟩, ⟨"TU", 2, 0⟩]
      rules := [{ id := 4, pattern := "[PRON]", template := "" },
        { id := 4, pattern := "[VERB]", template := "" }] }
    c.Reached [.lexeme yo] ∧ c.Knows 1 ∧
      (edit (.lexeme { yo with gloss := "TU" })).run c = .error (.duplicateLexeme 1) c ∧
      ofDocument d = .error (.unknownLexeme "TU" 2) := by
  intro yo c d
  have hc : c.Reached [.lexeme yo] :=
    (Reached.empty.attempt (.link ⟨"YO", 1, 0⟩)).attempt (.lexeme yo)
  have hyo : c.Knows 1 := ⟨1, yo, by decide, rfl⟩
  have hfirst : d.FirstProblem (.unknownLexeme "TU" 2) := by
    refine @Document.FirstProblem.link d [⟨"YO", 1, 0⟩] [] ⟨"TU", 2, 0⟩ ?_ rfl ?_ ?_
    · exact List.nodup_singleton _
    · simp [d, yo]
    · simp [d, yo]
  obtain ⟨hedits, hdocuments⟩ := edits_atomic_and_first_problem
  exact ⟨hc, hyo, ((hedits _ c hc).1 { yo with gloss := "TU" } _ c).2 ⟨hyo, rfl, rfl⟩,
    ((hdocuments d).2 _).2 hfirst⟩

end Catalog

end SignGloss
