/-
  The outcomes of an interpretation.

  * sources are `Reliable` if no query fails, as those of a catalog are;
  * `Answered src req i`: the five cases of an answer, told apart by the words of
    the tokens.  From reliable sources an interpretation is answered by the case
    that applies (`Sources.Reliable.result_interpret_iff`);
  * `Thinned src ts us`: the tokens `us` are `ts` without some that have no sense.

  Main statement: the five cases, and what follows from them on times, confidences
  and tokens without senses (`interpret_cases`).
-/
import SignGloss.Proofs.FirstWords
import SignGloss.Proofs.Protocol
import SignGloss.Proofs.UnitInterval

namespace SignGloss

variable {src : Sources} {req : Request} {i : Interpretation}

/-! ## Reliable sources -/

/-- No query fails. -/
def Sources.Reliable (src : Sources) : Prop := ∀ q, src.failure? q = none

namespace Sources.Reliable

variable (hs : src.Reliable)
include hs

theorem exists_result {α : Type} {x : Consultation α} {plan : List Query} (h : x.Follows src plan) :
    ∃ a, x.result = .ok a :=
  h.exists_result (List.findSome?_eq_none_iff.2 fun q _ => hs q)

theorem exists_rules (locale : String) : ∃ rules, src.rules locale = .ok rules :=
  failureOf?_eq_none.1 (hs (.rules locale))

theorem result_interpret (req : Request) :
    (interpret src req).result = (answer src req (src.words req.tokens)).result := by
  obtain ⟨ws, hws⟩ := hs.exists_result (follows_resolve req.tokens)
  rw [interpret_eq, Consultation.result_bind_ok hws, result_resolve hws]

end Sources.Reliable

/-! ## The answer for two words or more -/

section
variable {locale : String} {ws : List Word} {rules : List Rule}

/-- Words are joined where no rule is chosen. -/
theorem result_interpretWords_none (hr : src.rules locale = .ok rules)
    (h : selectRule? rules (ws.map Word.tag) = none) :
    (interpretWords src locale ws).result =
      .ok ⟨{ text := joinedText ws, confidence := joinedConfidence }, .joined, ws⟩ := by
  rw [interpretWords, Consultation.result_bind_ok (a := rules) hr, h]
  rfl

/-- The template of the rule that is chosen gives the text. -/
theorem result_interpretWords_some (hr : src.rules locale = .ok rules) {r : Rule} {text : String}
    (h : selectRule? rules (ws.map Word.tag) = some r)
    (ht : (render src.form ws (Template.parse r.template)).result = .ok text) :
    (interpretWords src locale ws).result =
      .ok ⟨{ text, confidence := ruleConfidence }, .ruleMatch r.id, ws⟩ := by
  rw [interpretWords, Consultation.result_bind_ok (a := rules) hr, h]
  simp only [Consultation.result_bind_ok ht]
  rfl

end

/-! ## The five cases -/

/-- The answer to a request, case by case. -/
inductive Answered (src : Sources) (req : Request) : Interpretation → Prop
  | empty : req.tokens = [] →
      Answered src req ⟨{ text := "", confidence := .ofRatio false 7 10 }, .empty, []⟩
  | unresolved : req.tokens ≠ [] → src.words req.tokens = [] →
      Answered src req
        ⟨{ text := " ".intercalate (req.tokens.map Token.sign), confidence := .ofRatio false 0 1 },
          .unresolved, []⟩
  | singleSign {w} : src.words req.tokens = [w] →
      Answered src req
        ⟨{ text := plainForm w.sense.gloss, confidence := w.confidence }, .singleSign, [w]⟩
  | ruleMatch {rules r text} : 2 ≤ (src.words req.tokens).length →
      src.rules req.locale = .ok rules →
      selectRule? rules ((src.words req.tokens).map fun w => w.sense.tag) = some r →
      (render src.form (src.words req.tokens) (Template.parse r.template)).result = .ok text →
      Answered src req
        ⟨{ text, confidence := .ofRatio false 8 10 }, .ruleMatch r.id, src.words req.tokens⟩
  | joined {rules} : 2 ≤ (src.words req.tokens).length →
      src.rules req.locale = .ok rules →
      selectRule? rules ((src.words req.tokens).map fun w => w.sense.tag) = none →
      Answered src req
        ⟨{ text := " ".intercalate ((src.words req.tokens).map fun w => plainForm w.sense.gloss),
           confidence := .ofRatio false 5 10 }, .joined, src.words req.tokens⟩

theorem Answered.result (hs : src.Reliable) (h : Answered src req i) :
    (interpret src req).result = .ok i := by
  rw [hs.result_interpret]
  cases h with
  | empty ht =>
    rw [ht]
    simp only [Sources.words, List.filterMap_nil, answer, ht, if_true]
    rfl
  | unresolved ht hw =>
    rw [hw]
    simp only [answer, if_neg ht]
    rfl
  | singleSign hw => rw [hw]; rfl
  | ruleMatch h2 hr h ht =>
    rw [answer_of_two_le h2]
    exact result_interpretWords_some hr h ht
  | joined h2 hr h =>
    rw [answer_of_two_le h2]
    exact result_interpretWords_none hr h

/-- One of the cases applies. -/
theorem Sources.Reliable.exists_answered (hs : src.Reliable) (req : Request) :
    ∃ i, Answered src req i := by
  by_cases ht : req.tokens = []
  · exact ⟨_, .empty ht⟩
  · rcases hw : src.words req.tokens with _ | ⟨w, _ | ⟨w', ws⟩⟩
    · exact ⟨_, .unresolved ht hw⟩
    · exact ⟨_, .singleSign hw⟩
    · have h2 : 2 ≤ (src.words req.tokens).length := by rw [hw]; simp
      obtain ⟨rules, hr⟩ := hs.exists_rules req.locale
      cases h : selectRule? rules ((src.words req.tokens).map fun w => w.sense.tag) with
      | none => exact ⟨_, .joined h2 hr h⟩
      | some r =>
        obtain ⟨text, htext⟩ := hs.exists_result
          (follows_render (src.words req.tokens) (Template.parse r.template))
        exact ⟨_, .ruleMatch h2 hr h htext⟩

/-- **An interpretation is answered by the case that applies.** -/
theorem Sources.Reliable.result_interpret_iff (hs : src.Reliable) :
    (interpret src req).result = .ok i ↔ Answered src req i := by
  constructor
  · intro h
    obtain ⟨j, hj⟩ := hs.exists_answered req
    rw [hj.result hs] at h
    rwa [← Except.ok.inj h]
  · exact Answered.result hs

theorem Answered.words_eq (h : Answered src req i) : i.words = src.words req.tokens := by
  cases h with
  | empty ht => rw [ht]; rfl
  | unresolved ht hw => exact hw.symm
  | singleSign hw => exact hw.symm
  | ruleMatch | joined => rfl

theorem Answered.alternatives_eq (h : Answered src req i) : i.response.alternatives = [] := by
  cases h <;> rfl

/-! ## Times and confidences -/

/-- The first sense of a sign. -/
def Sources.firstSense? (src : Sources) (sign : String) : Option Sense :=
  match src.senses sign with
  | .ok senses => senses.head?
  | .error _ => none

theorem map_sense_words (ts : List Token) :
    (src.words ts).map Word.sense = (ts.map Token.sign).filterMap src.firstSense? := by
  rw [Sources.words, List.map_filterMap, List.filterMap_map]
  refine List.filterMap_congr fun t _ => ?_
  rw [Function.comp_apply, Sources.firstSense?]
  cases src.senses t.sign with
  | error e => rfl
  | ok senses => cases senses <;> rfl

/-- A rendered template depends on the senses of the words only. -/
theorem render_congr {form : Morphology} {ws us : List Word}
    (h : ws.map Word.sense = us.map Word.sense) (t : Template) :
    render form ws t = render form us t := by
  have hsenses : List.Forall₂ (fun w u : Word => w.sense = u.sense) ws us := by
    rwa [← List.forall₂_eq_eq_eq, List.forall₂_map_left_iff, List.forall₂_map_right_iff] at h
  have htags := hsenses.imp fun w u hwu =>
    (⟨congrArg Sense.tag hwu, congrArg Sense.gloss hwu⟩ : w.tag = u.tag ∧ w.gloss = u.gloss)
  exact render_eq_of_alike fun p _ => alike_of_forall₂ htags p.tag

/-- A request for the same signs in the same locale has the same text and outcome. -/
theorem Answered.of_same_signs {req' : Request} (h : Answered src req i)
    (hl : req.locale = req'.locale) (hsigns : req.tokens.map Token.sign = req'.tokens.map Token.sign) :
    ∃ j, Answered src req' j ∧ j.response.text = i.response.text ∧ j.outcome = i.outcome := by
  have hsenses : (src.words req.tokens).map Word.sense = (src.words req'.tokens).map Word.sense := by
    rw [map_sense_words, map_sense_words, hsigns]
  have hlength : (src.words req.tokens).length = (src.words req'.tokens).length := by
    simpa using congrArg List.length hsenses
  have htags : ((src.words req.tokens).map fun w => w.sense.tag) =
      (src.words req'.tokens).map fun w => w.sense.tag := by
    simpa [Function.comp_def] using congrArg (List.map Sense.tag) hsenses
  cases h with
  | empty ht =>
    rw [ht, List.map_nil] at hsigns
    exact ⟨_, .empty (List.map_eq_nil_iff.1 hsigns.symm), rfl, rfl⟩
  | unresolved ht hw =>
    rw [hw, List.map_nil] at hsenses
    refine ⟨_, .unresolved (fun ht' => ht ?_) (List.map_eq_nil_iff.1 hsenses.symm), ?_, rfl⟩
    · rw [ht', List.map_nil] at hsigns
      exact List.map_eq_nil_iff.1 hsigns
    · rw [hsigns]
  | @singleSign w hw =>
    rw [hw] at hsenses hlength
    obtain ⟨u, hu⟩ := List.length_eq_one_iff.1 hlength.symm
    rw [hu] at hsenses
    have hsense : w.sense = u.sense := (List.cons.inj hsenses).1
    exact ⟨_, .singleSign hu, by rw [hsense], rfl⟩
  | ruleMatch h2 hr h ht =>
    rw [hlength] at h2
    rw [hl] at hr
    rw [htags] at h
    rw [render_congr hsenses] at ht
    exact ⟨_, .ruleMatch h2 hr h ht, rfl, rfl⟩
  | joined h2 hr h =>
    rw [hlength] at h2
    rw [hl] at hr
    rw [htags] at h
    refine ⟨_, .joined h2 hr h, ?_, rfl⟩
    have hplain := congrArg (List.map fun s => plainForm s.gloss) hsenses
    simp only [List.map_map, Function.comp_def] at hplain
    rw [hplain]

/-! ## Tokens without senses -/

/-- The second list is the first without some tokens that have no sense. -/
inductive Thinned (src : Sources) : List Token → List Token → Prop
  | nil : Thinned src [] []
  | keep {ts us : List Token} (t : Token) : Thinned src ts us → Thinned src (t :: ts) (t :: us)
  | drop {t : Token} {ts us : List Token} : src.senses t.sign = .ok [] → Thinned src ts us →
      Thinned src (t :: ts) us

theorem Thinned.words_eq {ts us : List Token} (h : Thinned src ts us) :
    src.words ts = src.words us := by
  induction h with
  | nil => rfl
  | keep t _ ih =>
    unfold Sources.words at ih ⊢
    rw [List.filterMap_cons, List.filterMap_cons, ih]
  | @drop t ts us ht _ ih =>
    rw [← ih, Sources.words, List.filterMap_cons, ht]
    rfl

/-- As long as there is a word, tokens without senses do not matter. -/
theorem Answered.of_thinned {us : List Token} (h : Answered src req i)
    (ht : Thinned src req.tokens us) (hne : src.words req.tokens ≠ []) :
    Answered src { req with tokens := us } i := by
  have hw := ht.words_eq
  cases h with
  | empty h => exact absurd (by rw [h]; rfl) hne
  | unresolved _ h => exact absurd h hne
  | singleSign h => exact .singleSign (hw ▸ h)
  | ruleMatch h2 hr h htext =>
    rw [hw] at h2 h htext ⊢
    exact .ruleMatch h2 hr h htext
  | joined h2 hr h =>
    rw [hw] at h2 h ⊢
    exact .joined h2 hr h

/-! ## The confidence of an answer -/

theorem exists_token_of_mem_words {w : Word} {ts : List Token} (h : w ∈ src.words ts) :
    ∃ t ∈ ts, t.confidence = w.confidence := by
  obtain ⟨t, ht, hw⟩ := List.mem_filterMap.1 h
  refine ⟨t, ht, ?_⟩
  cases hs : src.senses t.sign with
  | error e =>
    simp only [hs] at hw
    cases hw
  | ok senses =>
    simp only [hs] at hw
    obtain ⟨s, -, rfl⟩ := Option.map_eq_some_iff.1 hw
    rfl

/-- The confidence of an answer is between 0 and 1 where those of the tokens are. -/
theorem Answered.inUnit (h : Answered src req i) (hc : req.check = .ok ()) :
    i.response.confidence.inUnit = true := by
  have hempty : (Binary.ofRatio false 7 10 : Single).inUnit = true := by decide +kernel
  have hnone : (Binary.ofRatio false 0 1 : Single).inUnit = true := by decide +kernel
  have hrule : (Binary.ofRatio false 8 10 : Single).inUnit = true := by decide +kernel
  have hjoined : (Binary.ofRatio false 5 10 : Single).inUnit = true := by decide +kernel
  cases h with
  | empty => exact hempty
  | unresolved => exact hnone
  | ruleMatch => exact hrule
  | joined => exact hjoined
  | @singleSign w hw =>
    have hmem : w ∈ src.words req.tokens := by rw [hw]; exact List.mem_singleton_self w
    obtain ⟨t, ht, hconf⟩ := exists_token_of_mem_words hmem
    rw [← hconf]
    exact (Request.check_eq_ok_iff.1 hc t ht).2

/-! ## All together -/

/-- **The five outcomes.**  From reliable sources each request has an answer, made of
    the words of its tokens and without alternatives, by the case that applies.  Text
    and outcome depend on the signs and the locale only; tokens without senses do not
    matter as long as there is a word; and the confidence of the answer to a request
    that passes the check is a number between 0 and 1. -/
theorem interpret_cases (hs : src.Reliable) :
    (∀ req, ∃ i, (interpret src req).result = .ok i ∧ i.words = src.words req.tokens ∧
      i.response.alternatives = []) ∧
    (∀ req i, (interpret src req).result = .ok i ↔ Answered src req i) ∧
    (∀ req req' i i', req.locale = req'.locale →
      req.tokens.map Token.sign = req'.tokens.map Token.sign →
      (interpret src req).result = .ok i → (interpret src req').result = .ok i' →
      i.response.text = i'.response.text ∧ i.outcome = i'.outcome) ∧
    (∀ req us, Thinned src req.tokens us → src.words req.tokens ≠ [] →
      (interpret src { req with tokens := us }).result = (interpret src req).result) ∧
    ∀ req i, req.check = .ok () → (interpret src req).result = .ok i →
      i.response.confidence.isFinite = true ∧ 0 ≤ i.response.confidence.value ∧
        i.response.confidence.value ≤ 1 := by
  refine ⟨fun req => ?_, fun req i => hs.result_interpret_iff, fun req req' i i' hl ht hi hi' => ?_,
    fun req us hus hne => ?_, fun req i hc hi => ?_⟩
  · obtain ⟨i, hi⟩ := hs.exists_answered req
    exact ⟨i, hi.result hs, hi.words_eq, hi.alternatives_eq⟩
  · obtain ⟨j, hj, htext, hout⟩ := (hs.result_interpret_iff.1 hi).of_same_signs hl ht
    obtain rfl : j = i' := Except.ok.inj ((hj.result hs).symm.trans hi')
    exact ⟨htext.symm, hout.symm⟩
  · obtain ⟨i, hi⟩ := hs.exists_answered req
    rw [hi.result hs, (hi.of_thinned hus hne).result hs]
  · exact Binary.inUnit_iff.1 ((hs.result_interpret_iff.1 hi).inUnit hc)

/-- A sign without a sense between two others: it is left out, and with it goes none
    of the answer; and the text is that for other times and confidences. -/
theorem interpret_cases_dropped :
    let rule : Rule := { id := 5, pattern := "[PRON] [VERB]", template := "{PRON} {VERB:conj=pres}" }
    let src : Sources := {
      senses := fun s => .ok (if s = "YO" then [⟨"YO", ⟨"PRON"⟩, none⟩]
        else if s = "AMAR" then [⟨"AMAR", .verb, none⟩] else [])
      rules := fun _ => .ok [rule]
      form := fun _ code _ => .ok (if code = "pres" then some "amo" else none) }
    let req : Request :=
      { tokens := [{ sign := "YO", start := 0, stop := 9, confidence := .ofRatio false 1 4 },
          { sign := "EH" }, { sign := "AMAR" }] }
    src.Reliable ∧ req.check = .ok () ∧ ∃ i i',
      (interpret src req).result = .ok i ∧ i.outcome = .ruleMatch 5 ∧ i.response.text = "yo amo" ∧
        i.response.confidence.value ≤ 1 ∧
        (interpret src { req with tokens := [req.tokens[0], req.tokens[2]] }).result = .ok i ∧
        (interpret src (.ofSigns ["YO", "EH", "AMAR"] "es-MX")).result = .ok i' ∧
        i'.response.text = "yo amo" := by
  intro rule src req
  have hs : src.Reliable := fun q => by cases q <;> rfl
  have hc : req.check = .ok () := by decide +kernel
  have hanswered : Answered src req
      ⟨{ text := "yo amo", confidence := .ofRatio false 8 10 }, .ruleMatch 5, src.words req.tokens⟩ :=
    .ruleMatch (r := rule) (by decide) rfl (by decide +kernel) (by decide +kernel)
  have hthinned : Thinned src req.tokens [req.tokens[0], req.tokens[2]] :=
    .keep _ (.drop rfl (.keep _ .nil))
  obtain ⟨hall, hcase, hsame, hthin, hunit⟩ := interpret_cases hs
  have hi := (hcase _ _).2 hanswered
  obtain ⟨i', hi', -, -⟩ := hall (.ofSigns ["YO", "EH", "AMAR"] "es-MX")
  obtain ⟨htext, -⟩ := hsame req (.ofSigns ["YO", "EH", "AMAR"] "es-MX") _ i' rfl rfl hi hi'
  refine ⟨hs, hc, _, i', hi, rfl, rfl, (hunit req _ hc hi).2.2, ?_, hi', htext.symm⟩
  rw [hthin req _ hthinned (by decide), hi]

end SignGloss
