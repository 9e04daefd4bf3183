/-
  The integrity of catalogs.

  * in an `Intact` catalog each lexeme is held under its identifier, each list of
    links under the sign of its links, links name lexemes of the catalog, and no
    two rules share an identifier.  What an edit puts in keeps a catalog intact
    (`Intact.put`), so that every catalog that can be made is intact
    (`Reached.intact`);
  * `Means` relates a link to a sense, through the lexeme that it names.  A catalog
    is `Lossless` for a sign and the links of it if it tells one sense for each
    link, in order of priority, and the fallback only where there is none or where
    the only link leads to a lexeme of this very sense.

  Main statement: a catalog that can be made is intact and, for each sign,
  lossless for the links that were accepted (`Reached.senses_lossless`).
-/
import Mathlib.Data.List.Forall2
import SignGloss.Proofs.CatalogAnswer
import SignGloss.Proofs.OrderIndependence

namespace SignGloss.Catalog

variable {c : Catalog} {e : Edit} {es : List Edit}

/-! ## The invariant -/

/-- The tables of the catalog fit together. -/
structure Intact (c : Catalog) : Prop where
  /-- A lexeme is held under its own identifier. -/
  lexeme_id : ∀ k l, c.lexemes.get? k = some l → l.id = k
  /-- A link is held under its own sign. -/
  link_sign : ∀ sign ls, c.links.get? sign = some ls → ∀ l ∈ ls, l.sign = sign
  /-- A link names a lexeme of the catalog. -/
  link_lexeme : ∀ sign ls, c.links.get? sign = some ls → ∀ l ∈ ls, c.lexemes.get? l.lexeme ≠ none
  /-- No list of links is empty. -/
  links_ne_nil : ∀ sign ls, c.links.get? sign = some ls → ls ≠ []
  nodup_rules : (c.rules.map Rule.id).Nodup

theorem intact_empty : Catalog.empty.Intact :=
  ⟨nofun, nofun, nofun, nofun, List.nodup_nil⟩

theorem intact_spanish : spanish.Intact :=
  ⟨nofun, nofun, nofun, nofun, List.nodup_nil⟩

theorem Intact.of_mem_linksOf (h : c.Intact) {l : Link} {sign : String} (hl : l ∈ c.linksOf sign) :
    l.sign = sign ∧ c.lexemes.get? l.lexeme ≠ none := by
  unfold linksOf at hl
  cases hls : c.links.get? sign with
  | none =>
    rw [hls] at hl
    cases hl
  | some ls =>
    rw [hls] at hl
    exact ⟨h.link_sign sign ls hls l hl, h.link_lexeme sign ls hls l hl⟩

theorem Intact.put_lexeme (h : c.Intact) {l : Lexeme} (hl : c.lexemes.get? l.id = none) :
    (c.put (.lexeme l)).Intact := by
  -- The identifier is new, so that no lexeme is lost that a link may name.
  have hget : ∀ k x, (c.put (.lexeme l)).lexemes.get? k = some x ↔
      c.lexemes.get? k = some x ∨ (l = x ∧ x.id = k) := by
    intro k x
    rw [get?_lexemes_put (show c.Accepts (.lexeme l) from hl)]
    simp [Edit.lexeme?, eq_comm]
  refine ⟨fun k x hx => ?_, h.link_sign, fun sign ls hls l' hl' => ?_, h.links_ne_nil,
    h.nodup_rules⟩
  · exact ((hget k x).1 hx).elim (h.lexeme_id k x) And.right
  · obtain ⟨x, hx⟩ := Option.ne_none_iff_exists'.1 (h.link_lexeme sign ls hls l' hl')
    exact Option.ne_none_iff_exists'.2 ⟨x, (hget _ _).2 (Or.inl hx)⟩

theorem Intact.put_link (h : c.Intact) {l : Link} (hl : c.lexemes.get? l.lexeme ≠ none) :
    (c.put (.link l)).Intact := by
  have hput : ∀ sign ls, (c.put (.link l)).links.get? sign = some ls →
      ls ≠ [] ∧ ∀ l' ∈ ls, l'.sign = sign ∧ c.lexemes.get? l'.lexeme ≠ none := by
    intro sign ls hls
    by_cases hs : l.sign = sign
    · subst hs
      rw [put, Table.get?_put_self] at hls
      obtain rfl := Option.some.inj hls
      refine ⟨by simp, fun l' hl' => ?_⟩
      rcases List.mem_append.1 hl' with hl' | hl'
      · exact h.of_mem_linksOf hl'
      · rw [List.mem_singleton.1 hl']
        exact ⟨rfl, hl⟩
    · rw [put, Table.get?_put_of_ne hs] at hls
      exact ⟨h.links_ne_nil sign ls hls, fun l' hl' =>
        ⟨h.link_sign sign ls hls l' hl', h.link_lexeme sign ls hls l' hl'⟩⟩
  exact ⟨h.lexeme_id, fun sign ls hls l' hl' => ((hput sign ls hls).2 l' hl').1,
    fun sign ls hls l' hl' => ((hput sign ls hls).2 l' hl').2,
    fun sign ls hls => (hput sign ls hls).1, h.nodup_rules⟩

theorem Intact.put_rule (h : c.Intact) {r : Rule} (hr : r.id ∉ c.rules.map Rule.id) :
    (c.put (.rule r)).Intact := by
  refine ⟨h.lexeme_id, h.link_sign, h.link_lexeme, h.links_ne_nil, ?_⟩
  have ha : c.AcceptsAll [.rule r] := ⟨hr, trivial⟩
  exact nodup_rules_putAll ha h.nodup_rules

/-- **An item that is accepted keeps a catalog intact.** -/
theorem Intact.put (h : c.Intact) (ha : c.Accepts e) : (c.put e).Intact := by
  cases e with
  | lexeme l => exact h.put_lexeme ha
  | link l => exact h.put_link ha
  | rule r => exact h.put_rule ha
  | form f => exact ⟨h.lexeme_id, h.link_sign, h.link_lexeme, h.links_ne_nil, h.nodup_rules⟩

theorem Intact.putAll (h : c.Intact) (ha : c.AcceptsAll es) : (c.putAll es).Intact := by
  induction es generalizing c with
  | nil => exact h
  | cons e es ih => exact ih (h.put ha.1) ha.2

theorem Intact.attempt (h : c.Intact) (e : Edit) : (c.attempt e).Intact := by
  by_cases ha : c.Accepts e
  · rw [attempt_of_accepts ha]
    exact h.put ha
  · rwa [attempt_of_not_accepts ha]

/-- **Every catalog that can be made is intact**, whatever was refused on the way. -/
theorem Reached.intact (h : c.Reached es) : c.Intact := by
  induction h with
  | empty => exact intact_empty
  | document h =>
    obtain ⟨ha, rfl⟩ := addAll_eq_ok_iff.1 h
    exact intact_spanish.putAll ha
  | attempt _ e ih => exact ih.attempt e

/-! ## Senses -/

/-- The senses that the links of a sign lead to, the most likely first. -/
def found (c : Catalog) (sign : String) : List Sense :=
  (sortByPriority Link.priority (c.linksOf sign)).filterMap fun l =>
    (c.lexemes.get? l.lexeme).map Lexeme.sense

theorem senses_of_found_eq_nil {sign : String} (h : c.found sign = []) :
    c.senses sign = [.fallback sign] :=
  if_pos (List.isEmpty_iff.2 h)

theorem senses_of_found_ne_nil {sign : String} (h : c.found sign ≠ []) :
    c.senses sign = c.found sign :=
  if_neg (mt List.isEmpty_iff.1 h)

/-- The link leads to the sense: it is that of the lexeme that the link names. -/
def Means (c : Catalog) (l : Link) (s : Sense) : Prop :=
  ∃ x, c.lexemes.get? l.lexeme = some x ∧ x.sense = s

/-- A link leads to one sense only. -/
theorem Means.unique {l : Link} {s s' : Sense} (h : c.Means l s) (h' : c.Means l s') : s = s' := by
  obtain ⟨x, hx, rfl⟩ := h
  obtain ⟨x', hx', rfl⟩ := h'
  rw [Option.some.inj (hx.symm.trans hx')]

/-- The senses of a sign are those of the given links, and of all of them. -/
structure Lossless (c : Catalog) (sign : String) (links : List Link) : Prop where
  /-- Each link has a sense, the greater weights first and then the smaller identifiers. -/
  linked : links ≠ [] → ∃ ordered : List Link, ordered.Perm links ∧
    ordered.Pairwise (fun l l' =>
      l'.weight < l.weight ∨ (l.weight = l'.weight ∧ l.lexeme ≤ l'.lexeme)) ∧
    List.Forall₂ c.Means ordered (c.senses sign)
  unlinked : links = [] → c.senses sign = [.fallback sign]
  /-- The fallback stands for no link, or for a link to a lexeme of the same sense. -/
  fallback : c.senses sign = [.fallback sign] ↔
    links = [] ∨ ∃ l, links = [l] ∧ c.Means l (.fallback sign)
  nonempty : c.senses sign ≠ []

theorem forall₂_filterMap {α β : Type} {f : α → Option β} {xs : List α}
    (h : ∀ x ∈ xs, f x ≠ none) : List.Forall₂ (fun x y => f x = some y) xs (xs.filterMap f) := by
  induction xs with
  | nil => exact .nil
  | cons x xs ih =>
    obtain ⟨hx, hxs⟩ := List.forall_mem_cons.1 h
    obtain ⟨y, hy⟩ := Option.ne_none_iff_exists'.1 hx
    rw [List.filterMap_cons_some hy]
    exact .cons hy (ih hxs)

/-- In an intact catalog all links of a sign lead to senses. -/
theorem Intact.forall₂_found (h : c.Intact) (sign : String) :
    List.Forall₂ c.Means (sortByPriority Link.priority (c.linksOf sign)) (c.found sign) := by
  have hlexeme : ∀ l ∈ sortByPriority Link.priority (c.linksOf sign),
      (c.lexemes.get? l.lexeme).map Lexeme.sense ≠ none := by
    intro l hl
    rw [Ne, Option.map_eq_none_iff]
    exact (h.of_mem_linksOf (mem_sortByPriority.1 hl)).2
  exact (forall₂_filterMap hlexeme).imp fun l s hs => Option.map_eq_some_iff.1 hs

theorem Intact.found_eq_nil (h : c.Intact) {sign : String} :
    c.found sign = [] ↔ c.linksOf sign = [] := by
  have hf := (h.forall₂_found sign).length_eq
  rw [(sortByPriority_perm _ _).length_eq] at hf
  rw [← List.length_eq_zero_iff, ← hf, List.length_eq_zero_iff]

/-- One link in an intact catalog leads to one sense. -/
theorem Intact.found_eq_singleton_iff (h : c.Intact) {sign : String} {s : Sense} :
    c.found sign = [s] ↔ ∃ l, c.linksOf sign = [l] ∧ c.Means l s := by
  have hfound := h.forall₂_found sign
  have hperm := sortByPriority_perm Link.priority (c.linksOf sign)
  constructor
  · intro hs
    rw [hs] at hfound
    obtain ⟨l, ls, hm, hnil, hsorted⟩ := List.forall₂_cons_right_iff.1 hfound
    rw [hsorted, List.forall₂_nil_right_iff.1 hnil] at hperm
    exact ⟨l, (List.singleton_perm.1 hperm).symm, hm⟩
  · rintro ⟨l, hl, hm⟩
    rw [hl] at hperm hfound
    rw [List.perm_singleton.1 hperm] at hfound
    obtain ⟨s', ss, hm', hnil, hs⟩ := List.forall₂_cons_left_iff.1 hfound
    rw [hs, List.forall₂_nil_left_iff.1 hnil, hm'.unique hm]

/-- An intact catalog tells the fallback only where a sign has no links, or just one, to a lexeme
    of the same sense. -/
theorem Intact.senses_eq_fallback_iff (h : c.Intact) {sign : String} :
    c.senses sign = [.fallback sign] ↔
      c.linksOf sign = [] ∨ ∃ l, c.linksOf sign = [l] ∧ c.Means l (.fallback sign) := by
  by_cases hl : c.linksOf sign = []
  · exact iff_of_true (senses_of_found_eq_nil (h.found_eq_nil.2 hl)) (Or.inl hl)
  · rw [senses_of_found_ne_nil (mt h.found_eq_nil.1 hl), or_iff_right hl]
    exact h.found_eq_singleton_iff

/-- An intact catalog loses no link. -/
theorem Intact.lossless (h : c.Intact) (sign : String) : c.Lossless sign (c.linksOf sign) where
  linked hl := by
    refine ⟨_, sortByPriority_perm Link.priority _, ?_, ?_⟩
    · exact (pairwise_sortByPriority Link.priority _).imp Priority.le_iff.1
    · rw [senses_of_found_ne_nil (mt h.found_eq_nil.1 hl)]
      exact h.forall₂_found sign
  unlinked hl := senses_of_found_eq_nil (h.found_eq_nil.2 hl)
  fallback := h.senses_eq_fallback_iff
  nonempty := c.senses_ne_nil sign

/-- **Every catalog that can be made is intact and tells all senses.**  Here `es`
    are the items that were accepted; others may have been refused. -/
theorem Reached.senses_lossless (h : c.Reached es) :
    c.Intact ∧ ∀ sign, c.Lossless sign ((es.filterMap Edit.link?).filter (·.sign = sign)) := by
  refine ⟨h.intact, fun sign => ?_⟩
  rw [← h.linksOf_eq sign]
  exact h.intact.lossless sign

/-- A sign with two links of one weight, one of them twice, and another whose only
    link was refused. -/
theorem senses_lossless_refused :
    let es : List Edit := [.lexeme ⟨7, "HIGH", .verb, none⟩, .lexeme ⟨3, "LOW", ⟨"NOUN"⟩, none⟩,
      .link ⟨"S", 7, 1⟩, .link ⟨"S", 3, 1⟩, .link ⟨"S", 7, 1⟩, .link ⟨"s", 7, 9⟩]
    let c := (Catalog.empty.putAll es).attempt (.link ⟨"t", 9, 0⟩)
    c.Reached es ∧ c.Intact ∧ c.Lossless "S" [⟨"S", 7, 1⟩, ⟨"S", 3, 1⟩, ⟨"S", 7, 1⟩] ∧
      (c.senses "S").map Sense.gloss = ["LOW", "HIGH", "HIGH"] ∧
      c.Lossless "t" [] ∧ c.senses "t" = [⟨"T", .interjection, none⟩] := by
  intro es c
  have hes : (Catalog.empty.putAll es).Reached es := Reached.empty.putAll (by decide)
  have hc : c.Reached es := hes.attempt (.link ⟨"t", 9, 0⟩)
  obtain ⟨hi, hl⟩ := Reached.senses_lossless hc
  have hsort : sortByPriority Link.priority (c.linksOf "S") =
      [⟨"S", 3, 1⟩, ⟨"S", 7, 1⟩, ⟨"S", 7, 1⟩] := by
    have hlinks : c.linksOf "S" = [⟨"S", 7, 1⟩, ⟨"S", 3, 1⟩, ⟨"S", 7, 1⟩] := by decide
    rw [hlinks, sortByPriority_eq_of_perm (.swap _ _ _) (by decide)]
    exact List.mergeSort_of_pairwise (by decide)
  refine ⟨hc, hi, hl "S", ?_, hl "t", by decide +kernel⟩
  have hfound : (c.found "S").map Sense.gloss = ["LOW", "HIGH", "HIGH"] := by
    rw [found, hsort]
    decide
  have hne : c.found "S" ≠ [] := by
    intro hnil
    rw [hnil] at hfound
    simp at hfound
  rw [senses_of_found_ne_nil hne, hfound]

/-- A sign whose only link leads to a lexeme that is spelled like the fallback of the sign. -/
theorem senses_eq_fallback_of_link :
    let es : List Edit := [.lexeme ⟨1, "YO", .interjection, none⟩, .link ⟨"YO", 1, 0⟩]
    let c := Catalog.empty.putAll es
    c.Reached es ∧ ¬ (c.senses "YO" = [.fallback "YO"] ↔
      (es.filterMap Edit.link?).filter (·.sign = "YO") = []) := by
  intro es c
  have hsenses : c.senses "YO" = [.fallback "YO"] := by decide +kernel
  have hlinks : (es.filterMap Edit.link?).filter (·.sign = "YO") = [⟨"YO", 1, 0⟩] := by decide
  refine ⟨Reached.empty.putAll (by decide), fun h => ?_⟩
  rw [h.1 hsenses] at hlinks
  cases hlinks

end SignGloss.Catalog
