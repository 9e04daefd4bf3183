/-
  What an interpretation asks its sources.

  The queries of an interpretation are known beforehand, as far as they depend on
  the answers only (`Sources.plan`): the senses of each sign, then, for at least
  two words, the rules of the locale, and then a form for each verb that the
  template of the chosen rule refers to, each of the first verb among the words.

  Main statement: an interpretation makes these queries in order until one fails,
  and it fails iff the last one did (`interpret_follows_plan`).
-/
import Mathlib.Data.List.Basic
import SignGloss.Interpretation
import SignGloss.Proofs.Plan

namespace SignGloss

/-- The word of a token, if there is a sense for it. -/
def Token.word? (t : Token) (senses : List Sense) : Option Word :=
  senses.head?.map fun s => ⟨t.sign, s, t.confidence⟩

/-- The words of tokens as the lexicon answers.  A token without senses, or with
    a failure for an answer, has no word. -/
def Sources.words (src : Sources) (ts : List Token) : List Word :=
  ts.filterMap fun t =>
    match src.senses t.sign with
    | .ok senses => t.word? senses
    | .error _ => none

/-- The forms that a template needs of words. -/
def formPlan (ws : List Word) (t : Template) : List Query :=
  match ws.find? (·.tag = .verb) with
  | none => []
  | some w => (t.placeholders.filter (·.tag = .verb)).map fun p => .form w.gloss p.code p.person

/-- The queries for at least two words. -/
def Sources.rulePlan (src : Sources) (locale : String) (ws : List Word) : List Query :=
  .rules locale ::
    match src.rules locale with
    | .error _ => []
    | .ok rules =>
      match selectRule? rules (ws.map Word.tag) with
      | none => []
      | some r => formPlan ws (Template.parse r.template)

/-- The queries for a request. -/
def Sources.plan (src : Sources) (req : Request) : List Query :=
  (req.tokens.map fun t => .senses t.sign) ++
    if 2 ≤ (src.words req.tokens).length then src.rulePlan req.locale (src.words req.tokens) else []

variable {src : Sources}

/-! ## Words -/

theorem resolve_cons (t : Token) (ts : List Token) : resolve src (t :: ts) = (do
    let senses ← .ask (.senses t.sign) (src.senses t.sign)
    let ws ← resolve src ts
    pure ((t.word? senses).toList ++ ws)) := by
  rw [resolve]
  congr 1
  funext senses
  cases senses <;> rfl

theorem follows_resolve (ts : List Token) :
    (resolve src ts).Follows src (ts.map fun t => .senses t.sign) := by
  induction ts with
  | nil => exact .pure []
  | cons t ts ih =>
    rw [resolve_cons]
    refine .bind (.ask rfl) fun senses _ => ?_
    simpa using ih.bind fun ws _ => .pure ((t.word? senses).toList ++ ws)

/-- The words are those that the lexicon answers. -/
theorem result_resolve {ts : List Token} {ws : List Word} (h : (resolve src ts).result = .ok ws) :
    ws = src.words ts := by
  induction ts generalizing ws with
  | nil => exact (Except.ok.inj h).symm
  | cons t ts ih =>
    rw [resolve_cons] at h
    cases hs : src.senses t.sign with
    | error e =>
      rw [Consultation.result_bind_error (e := e) (by simpa [Consultation.ask] using hs)] at h
      cases h
    | ok senses =>
      rw [Consultation.result_bind_ok (a := senses) (by simpa [Consultation.ask] using hs)] at h
      cases hr : (resolve src ts).result with
      | error e =>
        rw [Consultation.result_bind_error hr] at h
        cases h
      | ok rest =>
        rw [Consultation.result_bind_ok hr] at h
        obtain rfl := Except.ok.inj h
        obtain rfl := ih hr
        simp only [Sources.words, List.filterMap_cons, hs]
        cases t.word? senses <;> rfl

/-! ## Forms -/

/-- A placeholder asks for a form iff it refers to the verb and there is one. -/
def fillPlan (ws : List Word) (p : Placeholder) : List Query :=
  match ws.find? (·.tag = .verb) with
  | none => []
  | some w => if p.tag = .verb then [.form w.gloss p.code p.person] else []

theorem follows_fill (ws : List Word) (p : Placeholder) :
    (fill src.form ws p).Follows src (fillPlan ws p) := by
  unfold fill wordFor? fillPlan
  by_cases hv : p.tag = .verb
  · simp only [hv, if_true]
    cases ws.find? (·.tag = .verb) with
    | none => exact .pure ""
    | some w => exact .bind (.ask rfl) fun known _ => .pure (known.getD w.plain)
  · simp only [hv, if_false]
    cases ws.find? (·.tag = .verb) <;> cases ws.find? (·.tag = p.tag) <;> exact .pure _

theorem formPlan_eq_flatMap (ws : List Word) (t : Template) :
    formPlan ws t = t.placeholders.flatMap (fillPlan ws) := by
  unfold formPlan fillPlan
  cases ws.find? (·.tag = .verb) with
  | none => simp
  | some w =>
    induction t.placeholders with
    | nil => rfl
    | cons p ps ih => by_cases hv : p.tag = .verb <;> simp_all

theorem formPlan_cons (ws : List Word) (seg : Segment) (segs : List Segment) :
    formPlan ws ⟨seg :: segs⟩ =
      (match seg with
        | .placeholder p => fillPlan ws p
        | _ => []) ++ formPlan ws ⟨segs⟩ := by
  rw [formPlan_eq_flatMap, formPlan_eq_flatMap]
  cases seg <;> simp [Template.placeholders, Template.placeholder?, List.filterMap_cons]

theorem follows_renderRaw (ws : List Word) (segs : List Segment) :
    (renderRaw src.form ws segs).Follows src (formPlan ws ⟨segs⟩) := by
  induction segs with
  | nil =>
    rw [formPlan_eq_flatMap]
    exact .pure ""
  | cons seg segs ih =>
    rw [formPlan_cons, renderRaw]
    refine .bind ?_ fun t _ => by simpa using ih.bind fun ts _ => .pure (t ++ ts)
    cases seg with
    | literal t => exact .pure t
    | stray c => exact .pure (String.singleton c)
    | placeholder p => exact follows_fill ws p

theorem follows_render (ws : List Word) (t : Template) :
    (render src.form ws t).Follows src (formPlan ws t) := by
  simpa [render] using (follows_renderRaw ws t.segments).bind fun raw _ => .pure (Text.oneSpaced raw)

/-! ## Requests -/

theorem follows_interpretWords (locale : String) (ws : List Word) :
    (interpretWords src locale ws).Follows src (src.rulePlan locale ws) := by
  unfold interpretWords Sources.rulePlan
  refine .bind (p := [_]) (.ask rfl) fun rules hr => ?_
  have hr : src.rules locale = .ok rules := hr
  simp only [hr]
  cases selectRule? rules (ws.map Word.tag) with
  | none => exact .pure _
  | some r => simpa using (follows_render ws (Template.parse r.template)).bind fun text _ => .pure _

/-- The answer to a request whose words are known. -/
def answer (src : Sources) (req : Request) : List Word → Consultation Interpretation
  | [] =>
    if req.tokens = [] then pure ⟨{ text := "", confidence := defaultConfidence }, .empty, []⟩
    else
      pure ⟨{ text := " ".intercalate (req.tokens.map Token.sign), confidence := unresolvedConfidence },
        .unresolved, []⟩
  | [w] => pure ⟨{ text := w.plain, confidence := w.confidence }, .singleSign, [w]⟩
  | w :: w' :: ws => interpretWords src req.locale (w :: w' :: ws)

/-- Words are looked up first, and then the request is answered. -/
theorem interpret_eq (req : Request) :
    interpret src req = (resolve src req.tokens >>= answer src req) := by
  unfold interpret
  split
  · rename_i h
    simp [h, resolve, answer, Consultation.bind_def, Consultation.bind]
  · rename_i tokens h
    congr 1
    funext ws
    rcases ws with _ | ⟨w, _ | ⟨w', ws⟩⟩
    · exact (if_neg (show req.tokens ≠ [] from h)).symm
    · rfl
    · rfl

theorem answer_of_two_le {req : Request} {ws : List Word} (h : 2 ≤ ws.length) :
    answer src req ws = interpretWords src req.locale ws := by
  match ws with
  | w :: w' :: ws => rfl

theorem follows_answer (req : Request) (ws : List Word) :
    (answer src req ws).Follows src (if 2 ≤ ws.length then src.rulePlan req.locale ws else []) := by
  match ws with
  | [] =>
    by_cases h : req.tokens = [] <;> simp only [answer, h] <;> exact .pure _
  | [w] => exact .pure _
  | w :: w' :: ws =>
    rw [if_pos (by simp), answer_of_two_le (by simp)]
    exact follows_interpretWords req.locale _

theorem follows_interpret (src : Sources) (req : Request) :
    (interpret src req).Follows src (src.plan req) := by
  rw [interpret_eq]
  refine .bind (follows_resolve _) fun ws hws => ?_
  obtain rfl := result_resolve hws
  exact follows_answer req _

/-- **The protocol of an interpretation.**  The queries of the plan are made in
    order until one fails, none before the last has failed, and the answer is an
    error iff the last one did, with its failure. -/
theorem interpret_follows_plan (src : Sources) (req : Request) :
    (interpret src req).queries = src.made (src.plan req) ∧
      (∀ e, (interpret src req).result = .error e ↔
        ∃ q, (interpret src req).queries.getLast? = some q ∧ src.failure? q = some e) ∧
      ∀ q ∈ (interpret src req).queries.dropLast, src.failure? q = none := by
  have h := follows_interpret src req
  refine ⟨h.queries, fun e => ?_, fun q hq => ?_⟩
  · rw [← failureOf?_eq_some, h.failure, h.queries, Sources.failure_iff_getLast?_made]
  · rw [h.queries] at hq
    exact Sources.failure?_of_mem_dropLast_made hq

/-- A sign without senses, and a morphology that knows the present tense only: the
    second form that the template needs fails, and the third is not looked up. -/
theorem interpret_follows_plan_failing :
    let pronoun : Sense := ⟨"YO", ⟨"PRON"⟩, none⟩
    let verb : Sense := ⟨"QUERER", .verb, none⟩
    let rule : Rule :=
      { id := 1, pattern := "[PRON] [VERB]", template := "{VERB:conj=pres} {PRON} {VERB} {VERB}" }
    let src : Sources := {
      senses := fun s => .ok (if s = "YO" then [pronoun] else if s = "QUERER" then [verb] else [])
      rules := fun _ => .ok [rule]
      form := fun gloss code _ =>
        if code = "pres" then .ok (some "quiero") else .error (.morphology gloss "no table") }
    let req := Request.ofSigns ["YO", "EH", "QUERER"] "es-MX"
    (interpret src req).queries = [.senses "YO", .senses "EH", .senses "QUERER", .rules "es-MX",
        .form "QUERER" "pres" none, .form "QUERER" "infinitive" none] ∧
      (interpret src req).result = .error (.morphology "QUERER" "no table") ∧
      src.failure? (.form "QUERER" "pres" none) = none := by
  intro pronoun verb rule src req
  obtain ⟨hq, hr, hl⟩ := interpret_follows_plan src req
  have hm : src.made (src.plan req) = [.senses "YO", .senses "EH", .senses "QUERER",
      .rules "es-MX", .form "QUERER" "pres" none, .form "QUERER" "infinitive" none] := by
    decide +kernel
  refine ⟨hq.trans hm, (hr _).2 ⟨.form "QUERER" "infinitive" none, ?_, rfl⟩, hl _ ?_⟩
  · rw [hq, hm]
    rfl
  · rw [hq, hm]
    decide

end SignGloss
