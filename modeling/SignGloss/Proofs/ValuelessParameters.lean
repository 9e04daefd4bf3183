/-
  Parameters without a value.

  * `Placeholder.valued p`: the placeholder without the parameters that have no value;
  * `Placeholder.Hides p key`: the first parameter of a key has no value, but a later one
    has.

  A look-up stops at the first parameter of a key, so that one without a value is as good
  as none unless it hides another (`param?_valued_eq_iff`).  What a placeholder shows
  depends on its parameters by the conjugation code and the person of a verb, and by
  nothing else (`fill_congr_iff`).

  Main statement: parameters without a value may be left out where they hide none,
  whatever the words are and whatever the morphology answers (`valueless_parameters`).
-/
import Mathlib.Data.List.Basic
import SignGloss.Catalog

namespace SignGloss

/-- The parameter gives a key a value. -/
def Param.gives (key : String) (q : Param) : Bool := q.value ≠ "" && q.key == key

namespace Placeholder

/-- The placeholder without the parameters that have no value. -/
def valued (p : Placeholder) : Placeholder := ⟨p.tag, p.params.filter (·.value ≠ "")⟩

/-- The first parameter of a key has no value, but a later one has. -/
def Hides (p : Placeholder) (key : String) : Prop :=
  ∃ before q after, p.params = before ++ q :: after ∧ (∀ r ∈ before, r.key ≠ key) ∧
    q.key = key ∧ q.value = "" ∧ ∃ r ∈ after, r.key = key ∧ r.value ≠ ""

/-- The keys that are looked up for a verb. -/
def verbKeys : List String := ["conj", "persona", "person"]

variable {p : Placeholder} {key : String} {q : Param}

/-! ## Looking up -/

theorem param?_of_find?_eq_none (h : p.params.find? (·.key == key) = none) :
    p.param? key = none := by
  rw [param?, h, Option.map_none, Option.filter_none]

theorem param?_of_find?_eq_some (h : p.params.find? (·.key == key) = some q) :
    p.param? key = if q.value = "" then none else some q.value := by
  rw [param?, h, Option.map_some, Option.filter_some]
  by_cases hv : q.value = "" <;> simp [hv]

/-- Without the others, the first parameter that gives a key a value is found. -/
theorem param?_valued (p : Placeholder) (key : String) :
    p.valued.param? key = (p.params.find? (·.gives key)).map Param.value := by
  have hfilter : (p.params.filter (·.value ≠ "")).find? (·.key == key) =
      p.params.find? (·.gives key) := by
    simp [List.find?_filter, Param.gives, Bool.beq_eq_decide_eq]
  rw [param?, valued, hfilter]
  cases hq : p.params.find? (·.gives key) with
  | none => rfl
  | some q =>
    have hgives : q.gives key = true := List.find?_some hq
    rw [Option.map_some, Option.filter_some, if_pos (Bool.and_eq_true_iff.1 hgives).1]

theorem param?_valued_eq_none_iff :
    p.valued.param? key = none ↔ ∀ r ∈ p.params, r.key = key → r.value = "" := by
  rw [param?_valued, Option.map_eq_none_iff, List.find?_eq_none]
  refine forall₂_congr fun r _ => ?_
  simp [Param.gives, not_imp_not]

/-- What hides others is the first of its key. -/
theorem hides_iff : p.Hides key ↔
    ∃ q, p.params.find? (·.key == key) = some q ∧ q.value = "" ∧ p.valued.param? key ≠ none := by
  rw [Ne, param?_valued_eq_none_iff]
  push Not
  constructor
  · rintro ⟨before, q, after, hparams, hbefore, hkey, hvalue, r, hr, hrk, hrv⟩
    refine ⟨q, ?_, hvalue, r, by simp [hparams, hr], hrk, hrv⟩
    exact List.find?_eq_some_iff_append.2
      ⟨by simpa using hkey, before, after, hparams, by simpa using hbefore⟩
  · rintro ⟨q, hq, hvalue, r, hr, hrk, hrv⟩
    obtain ⟨hkey, before, after, hparams, hbefore⟩ := List.find?_eq_some_iff_append.1 hq
    have hne : ∀ a ∈ before, a.key ≠ key := by simpa using hbefore
    refine ⟨before, q, after, hparams, hne, by simpa using hkey, hvalue, r, ?_, hrk, hrv⟩
    rw [hparams, List.mem_append, List.mem_cons] at hr
    rcases hr with hr | rfl | hr
    · exact absurd hrk (hne r hr)
    · exact absurd hvalue hrv
    · exact hr

/-- Leaving out what has no value changes the keys that are hidden, and no others. -/
theorem param?_valued_eq_iff : p.valued.param? key = p.param? key ↔ ¬ p.Hides key := by
  rw [hides_iff]
  cases hq : p.params.find? (·.key == key) with
  | none =>
    have hnone : p.valued.param? key = none := param?_valued_eq_none_iff.2 fun r hr hrk =>
      absurd (beq_iff_eq.2 hrk) (List.find?_eq_none.1 hq r hr)
    simp [hnone, param?_of_find?_eq_none hq]
  | some q =>
    rw [param?_of_find?_eq_some hq]
    by_cases hvalue : q.value = ""
    · simp [hvalue]
    · obtain ⟨hkey, before, after, hparams, hbefore⟩ := List.find?_eq_some_iff_append.1 hq
      have hfound : p.params.find? (·.gives key) = some q := by
        refine List.find?_eq_some_iff_append.2
          ⟨by simp [Param.gives, hvalue, hkey], before, after, hparams, fun r hr => ?_⟩
        have hother : (r.key == key) = false := by simpa using hbefore r hr
        rw [Param.gives, hother, Bool.and_false, Bool.not_false]
      rw [param?_valued, hfound]
      simp [hvalue]

/-! ## Filling -/

variable {form : Morphology} {ws : List Word} {p' : Placeholder}

theorem fill_congr (htag : p'.tag = p.tag)
    (h : p.tag = .verb → p'.code = p.code ∧ p'.person = p.person) :
    fill form ws p' = fill form ws p := by
  have hword : wordFor? ws p' = wordFor? ws p := by rw [wordFor?, wordFor?, htag]
  rw [fill, fill, hword, htag]
  cases wordFor? ws p with
  | none => rfl
  | some w =>
    by_cases hverb : p.tag = .verb
    · simp only [(h hverb).1, (h hverb).2]
    · simp only [if_neg hverb]

/-- A morphology that knows no form shows what a verb asks for. -/
theorem queries_fill_verb (w : Word) (hw : w.tag = p.tag) (hverb : p.tag = .verb) :
    (fill (fun _ _ _ => .ok none) [w] p).queries = [.form w.gloss p.code p.person] := by
  have hfound : wordFor? [w] p = some w := by simp [wordFor?, hw]
  rw [fill, hfound]
  simp only [if_pos hverb]
  rfl

/-- **What a placeholder shows of its parameters**: nothing but the conjugation code and
    the person of a verb. -/
theorem fill_congr_iff (htag : p'.tag = p.tag) :
    (∀ form ws, fill form ws p' = fill form ws p) ↔
      (p.tag = .verb → p'.code = p.code ∧ p'.person = p.person) := by
  constructor
  · intro h hverb
    let w : Word := ⟨"", ⟨"", .verb, none⟩, ⟨false, 0, 0⟩⟩
    have hqueries := congrArg Consultation.queries (h (fun _ _ _ => .ok none) [w])
    rw [queries_fill_verb w (hverb.symm.trans htag.symm) (htag.trans hverb),
      queries_fill_verb w hverb.symm hverb] at hqueries
    simpa using hqueries
  · exact fun h form ws => fill_congr htag h

/-- **Parameters without a value.**  They may be left out where they hide none: a key has
    the same value without them iff its first parameter has a value or none behind it
    has, and a key that is hidden counts as absent though it has a value.

    What is shown for all words and morphologies, and what the morphology is asked for,
    is the same iff the conjugation code and the person of a verb are.  So it is where
    none of their keys is hidden. -/
theorem valueless_parameters (p : Placeholder) :
    (∀ key, p.valued.param? key = p.param? key ↔ ¬ p.Hides key) ∧
    (∀ key, p.Hides key → p.param? key = none ∧ ∃ v, p.valued.param? key = some v) ∧
    ((∀ form ws, fill form ws p.valued = fill form ws p) ↔
      (p.tag = .verb → p.valued.code = p.code ∧ p.valued.person = p.person)) ∧
    ((∀ key ∈ verbKeys, ¬ p.Hides key) → ∀ form ws, fill form ws p.valued = fill form ws p) := by
  refine ⟨fun key => param?_valued_eq_iff, fun key h => ?_, fill_congr_iff rfl, fun h form ws => ?_⟩
  · obtain ⟨q, hq, hvalue, hne⟩ := hides_iff.1 h
    rw [param?_of_find?_eq_some hq, if_pos hvalue]
    exact ⟨rfl, Option.ne_none_iff_exists'.1 hne⟩
  · have hsame : ∀ key ∈ verbKeys, p.valued.param? key = p.param? key := fun key hkey =>
      param?_valued_eq_iff.2 (h key hkey)
    refine fill_congr rfl fun _ => ⟨?_, ?_⟩
    · rw [code, code, hsame "conj" (by simp [verbKeys])]
    · rw [person, person, hsame "persona" (by simp [verbKeys]), hsame "person" (by simp [verbKeys])]

/-- A verb with a code and a person given twice.  The code is hidden, and so the form is
    not found; what has no value may be left out of the second placeholder, where `person`
    stands in for `persona`. -/
theorem valueless_parameters_twice :
    let hidden : Placeholder := ⟨.verb, [⟨"conj", ""⟩, ⟨"conj", "pres"⟩, ⟨"persona", "1"⟩]⟩
    let plain : Placeholder :=
      ⟨.verb, [⟨"conj", "pres"⟩, ⟨"persona", ""⟩, ⟨"conj", ""⟩, ⟨"person", "1"⟩]⟩
    hidden.Hides "conj" ∧ hidden.param? "conj" = none ∧
      (∃ v, hidden.valued.param? "conj" = some v) ∧ (∀ key ∈ verbKeys, ¬ plain.Hides key) ∧
      (∀ form ws, fill form ws plain.valued = fill form ws plain) ∧
      plain.valued = ⟨.verb, [⟨"conj", "pres"⟩, ⟨"person", "1"⟩]⟩ := by
  intro hidden plain
  have hhides : hidden.Hides "conj" :=
    ⟨[], ⟨"conj", ""⟩, _, rfl, by simp, rfl, rfl, ⟨"conj", "pres"⟩, by simp, rfl, by decide⟩
  have hnot : ∀ key ∈ verbKeys, ¬ plain.Hides key := by
    simp only [← (valueless_parameters plain).1]
    decide
  obtain ⟨habsent, hvalue⟩ := (valueless_parameters hidden).2.1 "conj" hhides
  exact ⟨hhides, habsent, hvalue, hnot, (valueless_parameters plain).2.2.2 hnot, by decide⟩

/-- **A parameter without a value is not absent where its key is given again**: with it
    the infinitive of a verb is shown, and without it the form that is asked for. -/
theorem valueless_parameter_hides :
    let p : Placeholder := ⟨.verb, [⟨"conj", ""⟩, ⟨"conj", "pres"⟩, ⟨"persona", "1"⟩]⟩
    let ws : List Word := [⟨"QUERER", ⟨"QUERER", .verb, none⟩, .ofRatio false 1 2⟩]
    let form : Morphology := Catalog.spanish.sources.form
    (Template.parse "\x7bVERB:conj=,conj=pres,persona=1\x7d").segments = [.placeholder p] ∧
      (Template.parse "\x7bVERB:conj=pres,persona=1\x7d").segments = [.placeholder p.valued] ∧
      p.param? "conj" = none ∧ p.valued.param? "conj" = some "pres" ∧
      (fill form ws p).result = .ok "querer" ∧ (fill form ws p.valued).result = .ok "quiero" ∧
      (fill form ws p).queries ≠ (fill form ws p.valued).queries := by
  decide +kernel

end Placeholder

end SignGloss
