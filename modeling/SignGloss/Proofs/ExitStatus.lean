/-
  The status with which a command ends.

  * a check `FindsFault` where a rule cannot be used, or where it is strict and
    there is any finding;
  * `Invocation.Ends sur i n`: the ways in which a command ends with the status
    `n`.  It fails before its work, a check finds a fault, or all is well;
  * nothing else decides on the status: each command ends in one of these ways
    (`Invocation.exists_ends`), and its status tells which (`Invocation.Ends.status_run`).

  Main statement: what the status of a command line is, that a failure leaves the
  output empty, and that arguments which concern the report only do not change
  the status (`status_run_of_read`).
-/
import SignGloss.Proofs.CommandLine
import SignGloss.Proofs.CommandStages
import SignGloss.Proofs.RuleFindings

namespace SignGloss

/-! ## Errors among the findings -/

section
variable {r : Rule} {rules : List Rule}

theorem any_isError_lintRule : (lintRule r).any Finding.isError = true ↔
    ∃ e, Pattern.parse r.pattern = .error e := by
  have hstray : (if (Template.parse r.template).hasStray then [Finding.strayBrace r.id]
      else []).any Finding.isError = false := by
    split <;> rfl
  cases hp : Pattern.parse r.pattern with
  | error e => simp [lintRule, hp, Finding.isError]
  | ok p =>
    have htags : ((Template.parse r.template).tags.filterMap (tagFinding? r.id p)).any
        Finding.isError = false := by
      refine List.any_eq_false.2 fun f hf => ?_
      obtain ⟨t, -, ht⟩ := List.mem_filterMap.1 hf
      rcases tagFinding?_cases r.id p t with ⟨-, _, h⟩ | ⟨-, h⟩ | ⟨-, h⟩
      · obtain rfl := Option.some.inj (h.symm.trans ht)
        exact Bool.false_ne_true
      · cases h.symm.trans ht
      · obtain rfl := Option.some.inj (h.symm.trans ht)
        exact Bool.false_ne_true
    rw [lintRule_of_ok hp, List.any_append, hstray, htags]
    simp

/-- A rule that is never chosen can be used for all that. -/
theorem isError_of_mem_shadowedAfter {earlier cs : List (Rule × Pattern)} {f : Finding}
    (h : f ∈ shadowedAfter earlier cs) : f.isError = false := by
  induction cs generalizing earlier with
  | nil => cases h
  | cons c cs ih =>
    rw [shadowedAfter, List.mem_append, Option.mem_toList] at h
    rcases h with h | h
    · obtain ⟨e, -, rfl⟩ := Option.mem_map.1 h
      rfl
    · exact ih h

/-- There is an error among the findings iff the pattern of a rule cannot be read. -/
theorem any_isError_lint : (lint rules).any Finding.isError = true ↔
    ∃ r ∈ rules, ∃ e, Pattern.parse r.pattern = .error e := by
  have hshadowed : (shadowed rules).any Finding.isError = false :=
    List.any_eq_false.2 fun f hf => by simp [isError_of_mem_shadowedAfter hf]
  rw [lint, List.any_append, hshadowed, Bool.or_false, List.any_flatMap, List.any_eq_true]
  simp only [any_isError_lintRule]

end

namespace Command

variable {sur : Surroundings} {i : Invocation} {c : Catalog} {n : Nat} {args : List String}

/-! ## The work -/

/-- A check finds a fault in a catalog. -/
def FindsFault (strict : Bool) (c : Catalog) : Prop :=
  (∃ r ∈ c.rules, ∃ e, Pattern.parse r.pattern = .error e) ∨ strict = true ∧ lint c.rules ≠ []

theorem status_checkReport (json strict : Bool) (c : Catalog) :
    (FindsFault strict c ∧ (checkReport json strict c).status = Status.badData) ∨
      (¬ FindsFault strict c ∧ (checkReport json strict c).status = Status.done) := by
  have hfault : FindsFault strict c ↔
      ((lint c.rules).any Finding.isError || (strict && !(lint c.rules).isEmpty)) = true := by
    rw [FindsFault, ← any_isError_lint]
    simp
  have hstatus : (checkReport json strict c).status =
      if (lint c.rules).any Finding.isError || (strict && !(lint c.rules).isEmpty)
      then Status.badData else Status.done := by
    unfold checkReport
    cases json <;> rfl
  rw [hfault, hstatus]
  split
  · rename_i h
    exact Or.inl ⟨h, rfl⟩
  · rename_i h
    exact Or.inr ⟨h, rfl⟩

theorem status_interpretReport {src : Sources} {req : Request} {x : Interpretation}
    (verbose json : Bool) (h : (interpret src req).result = .ok x) :
    (interpretReport verbose json src req).status = Status.done := by
  rw [interpretReport, h]
  cases json <;> rfl

theorem status_lookupReport {src : Sources} {signs : List String}
    {found : List (String × List Sense)} (json : Bool) (h : lookUp src signs = .ok found) :
    (lookupReport json src signs).status = Status.done := by
  rw [lookupReport, h]
  cases json <;> rfl

theorem status_rulesReport {src : Sources} {locale : String} {rs : List Rule} (json : Bool)
    (h : src.rules locale = .ok rs) : (rulesReport locale json src).status = Status.done := by
  rw [rulesReport, h]

/-- Signs are looked up where none of them fails. -/
theorem exists_lookUp {src : Sources} {signs : List String}
    (h : ∀ sign ∈ signs, ∃ ss, src.senses sign = .ok ss) :
    ∃ found, lookUp src signs = .ok found := by
  induction signs with
  | nil => exact ⟨[], rfl⟩
  | cons sign signs ih =>
    obtain ⟨⟨ss, hss⟩, hrest⟩ := List.forall_mem_cons.1 h
    obtain ⟨found, hfound⟩ := ih hrest
    refine ⟨(sign, ss) :: found, ?_⟩
    rw [lookUp] at hfound ⊢
    rw [List.mapM_cons, hss, hfound]
    rfl

/-! ## The ways to end -/

/-- Whether a check is strict. -/
def Task.strict? : Task → Option Bool
  | check _ strict => some strict
  | interpret .. | lookup .. | rules .. => none

/-- The command ends with a status. -/
inductive Invocation.Ends (sur : Surroundings) (i : Invocation) : Nat → Prop
  | failed {n : Nat} : i.Fails sur n → Ends sur i n
  | faulty {c : Catalog} {strict : Bool} : i.task.strict? = some strict →
      GivesCatalog sur.files i.settings.catalog c → FindsFault strict c → Ends sur i Status.badData
  | done {c : Catalog} : i.HasRequest sur → GivesCatalog sur.files i.settings.catalog c →
      (∀ strict, i.task.strict? = some strict → ¬ FindsFault strict c) →
      Ends sur i Status.done

theorem Invocation.exists_ends (sur : Surroundings) (i : Invocation) : ∃ n, i.Ends sur n := by
  rcases i.gives_or_fails sur with ⟨hreq, c, hc⟩ | ⟨n, hn⟩
  · by_cases h : ∃ strict, i.task.strict? = some strict ∧ FindsFault strict c
    · obtain ⟨strict, htask, hfault⟩ := h
      exact ⟨_, .faulty htask hc hfault⟩
    · simp only [not_exists, not_and] at h
      exact ⟨_, .done hreq hc h⟩
  · exact ⟨n, .failed hn⟩

/-- A command that comes to its work does it, unless a check finds a fault. -/
theorem perform_of_gives (hreq : i.HasRequest sur) (hc : GivesCatalog sur.files i.settings.catalog c)
    (hfault : ∀ strict, i.task.strict? = some strict → ¬ FindsFault strict c) :
    ∃ r, perform sur i = .ok r ∧ r.status = Status.done := by
  obtain ⟨s, task⟩ := i
  cases task with
  | interpret o json =>
    obtain ⟨req, hreq⟩ := hreq o rfl
    obtain ⟨x, hx⟩ := c.reliable_sources.exists_answered req
    refine ⟨_, ?_, status_interpretReport s.verbose json (hx.result c.reliable_sources)⟩
    simp [perform, hreq.requestOf, hc.catalogOf, bind, Except.bind, pure, Except.pure]
  | lookup signs json =>
    obtain ⟨found, hfound⟩ := @exists_lookUp c.sources signs fun sign _ => ⟨c.senses sign, rfl⟩
    refine ⟨_, ?_, status_lookupReport json hfound⟩
    simp [perform, hc.catalogOf, bind, Except.bind, pure, Except.pure]
  | rules json =>
    have hrules : c.sources.rules s.locale = .ok (c.activeRules s.locale) := rfl
    refine ⟨_, ?_, status_rulesReport json hrules⟩
    simp [perform, hc.catalogOf, bind, Except.bind, pure, Except.pure]
  | check json strict =>
    rcases status_checkReport json strict c with ⟨hf, -⟩ | ⟨-, hstatus⟩
    · exact absurd hf (hfault strict rfl)
    · refine ⟨_, ?_, hstatus⟩
      simp [perform, hc.catalogOf, bind, Except.bind, pure, Except.pure]

/-- The report of a command line that is taken. -/
theorem run_of_read (h : Invocation.read sur.vars args = .ok i) {r : Report}
    (hr : perform sur i = .ok r ∨ perform sur i = .error r) : run sur args = r := by
  unfold run
  rw [h]
  rcases hr with hr | hr <;> simp only [hr]

theorem Invocation.Ends.status_run (h : i.Ends sur n)
    (hread : Invocation.read sur.vars args = .ok i) : (run sur args).status = n := by
  cases h with
  | failed h =>
    obtain ⟨r, hr, hn, -⟩ := h.perform
    rw [run_of_read hread (Or.inr hr), hn]
  | @faulty c strict htask hc hfault =>
    obtain ⟨s, task⟩ := i
    obtain ⟨json, rfl⟩ : ∃ json, task = .check json strict := by
      cases task with
      | check json strict' => exact ⟨json, by rw [Option.some.inj htask]⟩
      | interpret | lookup | rules => cases htask
    have hr : perform sur ⟨s, .check json strict⟩ = .ok (checkReport json strict c) := by
      simp [perform, hc.catalogOf, bind, Except.bind, pure, Except.pure]
    rw [run_of_read hread (Or.inl hr)]
    rcases status_checkReport json strict c with ⟨-, hstatus⟩ | ⟨hnot, -⟩
    · exact hstatus
    · exact absurd hfault hnot
  | done hreq hc hfault =>
    obtain ⟨r, hr, hstatus⟩ := perform_of_gives hreq hc hfault
    rw [run_of_read hread (Or.inl hr), hstatus]

theorem Invocation.status_run_iff_ends (hread : Invocation.read sur.vars args = .ok i) :
    (run sur args).status = n ↔ i.Ends sur n := by
  constructor
  · rintro rfl
    obtain ⟨n, hn⟩ := i.exists_ends sur
    rwa [hn.status_run hread]
  · exact fun h => h.status_run hread

/-! ## Arguments that concern the report only -/

theorem Task.origin?_bare (t : Task) : t.bare.origin? = t.origin? := by cases t <;> rfl

theorem Task.strict?_bare (t : Task) : t.bare.strict? = t.strict? := by cases t <;> rfl

/-- How a command ends is decided without them. -/
theorem Invocation.Ends.congr {i' : Invocation} (hbare : i.bare = i'.bare) (h : i.Ends sur n) :
    i'.Ends sur n := by
  have hcatalog : i.settings.catalog = i'.settings.catalog :=
    congrArg (fun j => j.settings.catalog) hbare
  have hlocale : i.settings.locale = i'.settings.locale :=
    congrArg (fun j => j.settings.locale) hbare
  have horigin : i.task.origin? = i'.task.origin? := by
    rw [← i.task.origin?_bare, ← i'.task.origin?_bare]
    exact congrArg (fun j => j.task.origin?) hbare
  have hstrict : i.task.strict? = i'.task.strict? := by
    rw [← i.task.strict?_bare, ← i'.task.strict?_bare]
    exact congrArg (fun j => j.task.strict?) hbare
  have hrequest : i.HasRequest sur → i'.HasRequest sur := fun hreq o ho => by
    rw [← hlocale]
    exact hreq o (horigin.trans ho)
  cases h with
  | failed h =>
    cases h with
    | request ho h => exact .failed (.request (horigin.symm.trans ho) h)
    | catalog hreq h => exact .failed (.catalog (hrequest hreq) (hcatalog ▸ h))
  | faulty htask hc hfault => exact .faulty (hstrict.symm.trans htask) (hcatalog ▸ hc) hfault
  | done hreq hc hfault =>
    exact .done (hrequest hreq) (hcatalog ▸ hc) fun strict hs => hfault strict (hstrict.trans hs)

/-- **The status of a command.**  It ends as `Invocation.Ends` says, in one way only:
    a request that is not got comes first, then a catalog that is not got, then
    the faults that a check finds.  Failures leave the output empty, and a file is
    not read where there is none or its bytes are no UTF-8.  Two command lines that
    are the same but for arguments which concern the report only have one status. -/
theorem status_run_of_read (h : Invocation.read sur.vars args = .ok i) :
    (∀ n, (run sur args).status = n ↔ i.Ends sur n) ∧
    (∀ n, i.Fails sur n → (run sur args).output = []) ∧
    (∀ f : Folder, sur.files = f.text → ∀ path, (∃ e, sur.files path = .error e) ↔
      ∀ bytes, f.follow path = .ok (.file bytes) → ¬ bytes.IsValidUTF8) ∧
    ∀ args' i', Invocation.read sur.vars args' = .ok i' → bare args' = bare args →
      (run sur args').status = (run sur args).status := by
  refine ⟨fun n => Invocation.status_run_iff_ends h, fun n hn => ?_, fun f hf path => ?_,
    fun args' i' h' hsame => ?_⟩
  · obtain ⟨r, hr, -, hout⟩ := hn.perform
    rw [run_of_read h (Or.inr hr), hout]
  · rw [hf]
    exact exists_error_text_iff f path
  · have hbare : i'.bare = i.bare := by
      have hread := Invocation.read_bare h'
      rw [hsame, Invocation.read_bare h] at hread
      exact (Except.ok.inj hread).symm
    have hends := (Invocation.status_run_iff_ends h).1 rfl
    exact (Invocation.status_run_iff_ends h').2 (hends.congr hbare.symm)

/-- A request that is no text, asked for with and without what concerns the report. -/
theorem status_run_of_read_not_text :
    let folder : Folder := .ofFiles [("request.json", ⟨#[0x7b, 0xff]⟩)]
    let sur : Surroundings := ⟨{}, .ok "", folder.text⟩
    let args := ["interpret", "--catalog", "c.json", "--request", "request.json"]
    let args' := ["--color=never", "-v", "interpret", "--json", "--catalog", "c.json",
      "--request", "request.json", "--color", "always"]
    let s : Settings := ⟨some "c.json", "es-MX", false⟩
    Invocation.read sur.vars args = .ok ⟨s, .interpret (.file "request.json") false⟩ ∧
      Invocation.read sur.vars args' =
        .ok ⟨{ s with verbose := true }, .interpret (.file "request.json") true⟩ ∧
      bare args' = bare args ∧
      (run sur args).status = Status.noInput ∧ (run sur args).output = [] ∧
      (run sur args').status = Status.noInput := by
  intro folder sur args args' s
  have h : Invocation.read sur.vars args = .ok ⟨s, .interpret (.file "request.json") false⟩ := by
    decide +kernel
  have h' : Invocation.read sur.vars args' =
      .ok ⟨{ s with verbose := true }, .interpret (.file "request.json") true⟩ := by
    decide +kernel
  have hsame : bare args' = bare args := by decide +kernel
  have hfails : Invocation.Fails sur ⟨s, .interpret (.file "request.json") false⟩
      Status.noInput := .request rfl (.unreadable (e := .notText) (by decide +kernel))
  obtain ⟨hends, hout, -, heq⟩ := status_run_of_read h
  have hstatus := (hends _).2 (.failed hfails)
  exact ⟨h, h', hsame, hstatus, hout _ hfails, (heq args' _ h' hsame).trans hstatus⟩

end Command

end SignGloss
