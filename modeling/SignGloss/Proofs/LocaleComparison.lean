/-
  Rules and requests under other spellings of their locales.

  * `Respelled t t'`: the texts differ only in the case of letters and in the blanks
    around them;
  * `Renamed t t'`: `t'` is the canonical form of `t`, or `t` is a locale tag and `t'` is
    a respelling of it;
  * `Rule.Relocated r r'`: the rule `r'` is `r` with its locale renamed, or is `r`.

  Main statement: locales are compared by their canonical forms, so that renaming the
  locales of rules and the requested locale changes neither which rules are active, and
  in which order, nor which rules are reported as shadowed (`locale_comparison`).
-/
import Mathlib.Data.List.Perm.Subperm
import SignGloss.Catalog
import SignGloss.Proofs.CanonicalLocale
import SignGloss.Proofs.Redundancy

namespace SignGloss

/-! ## Other spellings -/

namespace Text

variable {s b b' : List Char}

theorem trimStart_map_toLower (s : List Char) :
    trimStart (s.map Char.toLower) = (trimStart s).map Char.toLower := by
  rw [trimStart, List.dropWhile_map, show isBlank ∘ Char.toLower = isBlank from
    funext Subtag.isBlank_toLower, trimStart]

theorem trimEnd_map_toLower (s : List Char) :
    trimEnd (s.map Char.toLower) = (trimEnd s).map Char.toLower := by
  rw [trimEnd, ← List.map_reverse, ← trimStart, trimStart_map_toLower, ← List.map_reverse,
    trimStart, trimEnd]

/-- The case of letters does not matter for blanks at the ends. -/
theorem trimChars_map_toLower (s : List Char) :
    trimChars (s.map Char.toLower) = (trimChars s).map Char.toLower := by
  rw [trimChars, trimStart_map_toLower, trimEnd_map_toLower, trimChars]

/-- Blanks at the ends are not seen. -/
theorem trimChars_blanks (hb : Blanks b) (hb' : Blanks b') :
    trimChars (b ++ s ++ b') = trimChars s := by
  have hend : ∀ t : List Char, trimEnd (t ++ b') = trimEnd t := fun t => by
    rw [trimEnd, List.reverse_append,
      List.dropWhile_append_of_pos fun c hc => hb' c (List.mem_reverse.1 hc), trimEnd]
  rw [trimChars, trimStart, List.append_assoc, List.dropWhile_append_of_pos hb,
    List.dropWhile_append]
  split
  next h =>
    have hs : s.dropWhile isBlank = [] := List.isEmpty_iff.1 h
    have hb'' : b'.dropWhile isBlank = [] := List.dropWhile_eq_nil_iff.2 hb'
    rw [trimChars, trimStart, hs, hb'']
  next => rw [hend, trimChars, trimStart]

end Text

namespace Locale

variable {t t' : String} {l : Locale}

/-- The texts differ only in the case of letters and in the blanks around them. -/
def Respelled (t t' : String) : Prop :=
  ∃ before core after before' core' after', Text.Blanks before ∧ Text.Blanks after ∧
    Text.Blanks before' ∧ Text.Blanks after' ∧ t.toList = before ++ core ++ after ∧
    t'.toList = before' ++ core' ++ after' ∧ core.map Char.toLower = core'.map Char.toLower

/-- The second text is the canonical form of the first one, or another spelling of it where
    it is a locale tag. -/
inductive Renamed (t : String) : String → Prop
  | canonical : Renamed t (canonical t)
  | respelled {t' : String} (spelling : Respelled t t') (tag : (parse? (Text.trim t)).isSome) :
      Renamed t t'

/-- Other spellings are read as the same locale. -/
theorem Respelled.parse?_eq (h : Respelled t t') :
    parse? (Text.trim t') = parse? (Text.trim t) := by
  obtain ⟨before, core, after, before', core', after', hb, ha, hb', ha', ht, ht', hcore⟩ := h
  refine parse?_congr ?_
  rw [Text.trim, Text.trim, String.toList_ofList, String.toList_ofList, ht, ht',
    Text.trimChars_blanks hb ha, Text.trimChars_blanks hb' ha', ← Text.trimChars_map_toLower,
    ← Text.trimChars_map_toLower, hcore]

theorem Respelled.canonical_eq (h : Respelled t t') (ht : parse? (Text.trim t) = some l) :
    canonical t' = canonical t := by
  rw [canonical_of_parse? ht, canonical_of_parse? (h.parse?_eq.trans ht)]

/-- What is no tag is not compared equal to a tag. -/
theorem canonical_ne_of_parse?_eq_none (ht : parse? (Text.trim t) = some l)
    (ht' : parse? (Text.trim t') = none) : canonical t' ≠ canonical t := by
  rw [canonical_of_parse? ht, canonical_of_parse?_eq_none ht']
  intro heq
  rw [heq, parse?_text ht] at ht'
  cases ht'

theorem Renamed.canonical_eq (h : Renamed t t') : Locale.canonical t' = Locale.canonical t := by
  cases h with
  | canonical => exact canonical_canonical t
  | respelled h ht =>
    obtain ⟨l, hl⟩ := Option.isSome_iff_exists.1 ht
    exact h.canonical_eq hl

/-- A scope matters by its canonical form only. -/
theorem matchesScope_eq (scope : Option String) (requested : String) :
    matchesScope scope requested =
      (scope.map canonical).all fun s => decide (s = canonical requested) := by
  cases scope with
  | none => rfl
  | some s => rw [matchesScope, Option.map_some, Option.all_some]

end Locale

/-! ## Rules with other spellings of their locales -/

/-- The rule with its locale renamed, or the rule itself. -/
inductive Rule.Relocated (r : Rule) : Rule → Prop
  | same : Relocated r r
  | renamed {t t' : String} (locale : r.locale = some t) (name : Locale.Renamed t t') :
      Relocated r { r with locale := some t' }

/-- The rule with the canonical form of its locale. -/
def Rule.normal (r : Rule) : Rule := { r with locale := r.locale.map Locale.canonical }

namespace Rule.Relocated

variable {r r' : Rule} {locale locale' : String}

theorem map_canonical (h : r.Relocated r') :
    r'.locale.map Locale.canonical = r.locale.map Locale.canonical := by
  cases h with
  | same => rfl
  | renamed ht h => rw [ht, Option.map_some, Option.map_some, h.canonical_eq]

/-- Nothing but the spelling of the locale is another one. -/
theorem normal_eq (h : r.Relocated r') : r'.normal = r.normal := by
  have hlocale := h.map_canonical
  cases h with
  | same => rfl
  | renamed => exact congrArg (fun l => { r with locale := l }) hlocale

theorem priority_eq (h : r.Relocated r') : r'.priority = r.priority := by
  cases h <;> rfl

theorem appliesIn_eq (h : r.Relocated r')
    (hl : Locale.canonical locale' = Locale.canonical locale) :
    r'.appliesIn locale' = r.appliesIn locale := by
  have hactive : r'.active = r.active := by cases h <;> rfl
  rw [appliesIn, appliesIn, hactive, Locale.matchesScope_eq, Locale.matchesScope_eq,
    h.map_canonical, hl]

end Rule.Relocated

/-! ## Active rules -/

section
variable {α β : Type} {key : α → Priority} {key' : β → Priority} {xs : List α}

/-- What keeps priorities keeps the order. -/
theorem map_sortByPriority {f : α → β} (h : ∀ x ∈ xs, key' (f x) = key x) :
    (sortByPriority key xs).map f = sortByPriority key' (xs.map f) :=
  List.map_mergeSort fun x hx y hy => by rw [h x hx, h y hy]

end

/-- Rules with the same priorities that apply in the same places are active together. -/
theorem activeRules_map {ι : Type} {xs : List ι} {f g : ι → Rule} {locale locale' : String}
    (hp : ∀ x ∈ xs, (g x).priority = (f x).priority)
    (ha : ∀ x ∈ xs, (g x).appliesIn locale' = (f x).appliesIn locale) :
    activeRules (xs.map g) locale' =
      (sortByPriority (fun x => (f x).priority)
        (xs.filter fun x => (f x).appliesIn locale)).map g := by
  have hfilter : xs.filter (Rule.appliesIn locale' ∘ g) =
      xs.filter fun x => (f x).appliesIn locale := List.filter_congr ha
  rw [activeRules, List.filter_map, hfilter]
  exact (map_sortByPriority fun x hx => hp x (List.mem_of_mem_filter hx)).symm

/-! ## Rules that are never chosen -/

theorem covers_map_canonical (a b : Option String) :
    covers (a.map Locale.canonical) (b.map Locale.canonical) = covers a b := by
  cases a <;> cases b <;> simp [covers, Locale.canonical_canonical]

/-- The candidate with the canonical form of its locale. -/
def normalCandidate (c : Rule × Pattern) : Rule × Pattern := (c.1.normal, c.2)

theorem candidate?_normal (r : Rule) :
    candidate? r.normal = (candidate? r).map normalCandidate := by
  have hactive : r.normal.active = r.active := rfl
  have hpattern : r.normal.pattern = r.pattern := rfl
  rw [candidate?, candidate?, hactive, hpattern]
  split
  · cases Pattern.parse r.pattern <;> rfl
  · rfl

theorem candidates_normal (rules : List Rule) :
    candidates (rules.map Rule.normal) = (candidates rules).map normalCandidate := by
  have hmap : (rules.map Rule.normal).filterMap candidate? =
      (rules.filterMap candidate?).map normalCandidate := by
    rw [List.filterMap_map, List.map_filterMap]
    exact congrArg (rules.filterMap ·) (funext candidate?_normal)
  rw [candidates, hmap, candidates]
  exact (map_sortByPriority fun _ _ => rfl).symm

theorem shadowedAfter_normal (earlier cs : List (Rule × Pattern)) :
    shadowedAfter (earlier.map normalCandidate) (cs.map normalCandidate) =
      shadowedAfter earlier cs := by
  induction cs generalizing earlier with
  | nil => rfl
  | cons c cs ih =>
    have hwinner : winner? (earlier.map normalCandidate) (normalCandidate c) =
        (winner? earlier c).map normalCandidate := by
      rw [winner?, List.find?_map, winner?]
      refine congrArg (Option.map normalCandidate) (congrArg (earlier.find? ·) (funext fun e => ?_))
      show (decide (e.2 = c.2) && covers (e.1.locale.map _) (c.1.locale.map _)) = _
      rw [covers_map_canonical]
    have hearlier := ih (earlier ++ [c])
    rw [List.map_append, List.map_singleton] at hearlier
    rw [List.map_cons, shadowedAfter, hearlier, hwinner, Option.map_map, shadowedAfter]
    rfl

/-- The reported rules depend on the canonical forms of locales only. -/
theorem shadowings_normal (rules : List Rule) :
    shadowings (rules.map Rule.normal) = shadowings rules := by
  rw [shadowings_eq, shadowings_eq, shadowed, shadowed, candidates_normal]
  exact shadowedAfter_normal [] (candidates rules)

/-! ## Locales are compared by their canonical forms -/

/-- **Locales are compared by their canonical forms.**  The canonical form of a canonical form
    is itself.  All spellings of a locale tag have one canonical form, and what is no tag has
    another one.  So when some rules of a catalog are replaced by rules with other names of their
    locales, and the requested locale by another name, the rules that take the place of the active
    ones are active, in their order, and the same rules are reported as shadowed. -/
theorem locale_comparison :
    (∀ t, Locale.canonical (Locale.canonical t) = Locale.canonical t) ∧
    (∀ t l, Locale.parse? (Text.trim t) = some l →
      (∀ t', Locale.Respelled t t' → Locale.canonical t' = Locale.canonical t) ∧
      ∀ s, Locale.parse? (Text.trim s) = none → Locale.canonical s ≠ Locale.canonical t) ∧
    (∀ changes : List (Rule × Rule), (∀ p ∈ changes, p.1.Relocated p.2) →
      (∀ (c c' : Catalog) (locale locale' : String),
        c.rules = changes.map Prod.fst → c'.rules = changes.map Prod.snd →
        locale' = locale ∨ Locale.Renamed locale locale' →
        ∃ active : List (Rule × Rule), active.Subperm changes ∧
          c.activeRules locale = active.map Prod.fst ∧
          c'.activeRules locale' = active.map Prod.snd) ∧
      shadowings (changes.map Prod.snd) = shadowings (changes.map Prod.fst)) := by
  refine ⟨Locale.canonical_canonical, fun t l ht => ⟨fun t' h => h.canonical_eq ht,
    fun s hs => Locale.canonical_ne_of_parse?_eq_none ht hs⟩, fun changes h => ⟨?_, ?_⟩⟩
  · intro c c' locale locale' hc hc' hlocale
    have hl : Locale.canonical locale' = Locale.canonical locale := by
      rcases hlocale with rfl | hlocale
      · rfl
      · exact hlocale.canonical_eq
    refine ⟨sortByPriority (fun p => p.1.priority) (changes.filter fun p => p.1.appliesIn locale),
      (sortByPriority_perm _ _).subperm.trans List.filter_sublist.subperm, ?_, ?_⟩
    · rw [Catalog.activeRules, hc]
      exact activeRules_map (fun _ _ => rfl) fun _ _ => rfl
    · rw [Catalog.activeRules, hc']
      exact activeRules_map (fun p hp => (h p hp).priority_eq) fun p hp => (h p hp).appliesIn_eq hl
  · have hnormal : (changes.map Prod.snd).map Rule.normal =
        (changes.map Prod.fst).map Rule.normal := by
      rw [List.map_map, List.map_map]
      exact List.map_congr_left fun p hp => (h p hp).normal_eq
    rw [← shadowings_normal, hnormal, shadowings_normal]

/-- Two rules for Mexican Spanish, the second of which is spelled in another way. -/
def mexican : List (Rule × Rule) :=
  let r : Rule := { id := 1, pattern := "[NOUN]", template := "uno", locale := some "es-MX" }
  [(r, r), ({ r with id := 2 }, { r with id := 2, locale := some " ES-mx " })]

theorem respelled_mexican : Locale.Respelled "es-MX" " ES-mx " :=
  ⟨[], "es-MX".toList, [], [' '], "ES-mx".toList, [' '], by decide, by decide, by decide,
    by decide, rfl, rfl, by decide⟩

/-- The rule that is spelled in another way is active too and shadowed as before, and a text
    with an underscore is no name of the locale. -/
theorem locale_comparison_mexican :
    Locale.canonical " ES-mx " = Locale.canonical "es-MX" ∧
    Locale.canonical "es_MX" ≠ Locale.canonical "es-MX" ∧
    (∃ active : List (Rule × Rule), active.Subperm mexican ∧
      activeRules (mexican.map Prod.fst) "es-MX" = active.map Prod.fst ∧
      activeRules (mexican.map Prod.snd) " ES-mx " = active.map Prod.snd) ∧
    shadowings (mexican.map Prod.snd) = [.shadowed 2 1] := by
  have htag : Locale.parse? (Text.trim "es-MX") =
      some ⟨⟨['e', 's'], none, some ['M', 'X'], []⟩, []⟩ := by decide +kernel
  have hname : Locale.Renamed "es-MX" " ES-mx " := .respelled respelled_mexican (by rw [htag]; rfl)
  have hrules : ∀ p ∈ mexican, p.1.Relocated p.2 := by
    refine List.forall_mem_cons.2 ⟨.same, List.forall_mem_singleton.2 ?_⟩
    exact .renamed rfl hname
  obtain ⟨-, htags, hchanges⟩ := locale_comparison
  obtain ⟨hactive, hshadowed⟩ := hchanges mexican hrules
  refine ⟨(htags _ _ htag).1 _ respelled_mexican, (htags _ _ htag).2 _ (by decide +kernel), ?_, ?_⟩
  · exact hactive { Catalog.empty with rules := mexican.map Prod.fst }
      { Catalog.empty with rules := mexican.map Prod.snd } _ _ rfl rfl (Or.inr hname)
  · have hsorted : candidates (mexican.map Prod.fst) =
        (mexican.map Prod.fst).filterMap candidate? :=
      List.mergeSort_of_pairwise (by decide +kernel)
    rw [hshadowed, shadowings_eq, shadowed, hsorted]
    decide +kernel

end SignGloss
