/-
  The two ways to give a request.

  Signs may be named on the command line, with a locale, or in the text of a request,
  which has a locale of its own.

  * `Invocation.inLocale l i`: the same command with another locale;
  * `Omission.locale`: `--locale` with its value, to leave out of a command line;
  * `requestText d signs locale`: the text of the request for signs in a locale;
  * `interpretLine` with `signsArguments` or `requestArguments`: command lines for all
    settings.

  Main statement: both ways give the same report, and where a request is given by its
  text, no locale of the command line or of the environment matters
  (`request_origins_agree`).
-/
import SignGloss.Proofs.CommandLine
import SignGloss.Proofs.CommandStages
import SignGloss.Proofs.RequestExchange
import SignGloss.Proofs.Runs

namespace SignGloss.Command

open Json

variable {sur : Surroundings} {vars vars' : Variables} {args : List String} {i : Invocation}
  {o : Origin} {s : Settings} {json verbose : Bool} {text path : String}

/-! ## Locales of the command line -/

/-- The same command with another locale. -/
def Invocation.inLocale (locale : String) (i : Invocation) : Invocation where
  settings := { i.settings with locale }
  task := i.task

/-- A locale to leave out. -/
def Omission.locale : Omission := ⟨[], [.locale], by decide⟩

/-- Without `--locale` a command line asks for the same, in another locale. -/
theorem Invocation.read_without_locale (h : Invocation.read vars args = .ok i) :
    Invocation.read vars (Omission.locale.arguments args) =
      .ok (i.inLocale (vars.locale.getD defaultLocale)) := by
  have hsettings : Omission.locale.settings vars i.settings =
      { i.settings with locale := vars.locale.getD defaultLocale } := by
    simp [Omission.settings, Omission.locale]
  have htask : Omission.locale.task i.task = i.task := by
    cases i.task <;> simp [Omission.task, Omission.locale]
  rw [read_omit (by decide) (by decide) h, hsettings, htask, inLocale]

/-- The variable for the locale matters to the locale only. -/
theorem Invocation.map_read (hvars : vars'.catalog = vars.catalog) (args : List String) :
    (Invocation.read vars' args).map (inLocale "") = (Invocation.read vars args).map (inLocale "") := by
  have hcoherent : Given.coherent vars' = Given.coherent vars := by
    funext g
    rw [Given.coherent, Given.coherent, hvars]
  have hsettings : ∀ g g' task, inLocale "" ⟨.of vars' g g', task⟩ =
      inLocale "" ⟨.of vars g g', task⟩ := fun g g' task => by
    simp only [inLocale, Settings.of, hvars]
  unfold Invocation.read
  rw [hcoherent]
  cases outer.read (helpName :: Verb.all.map Verb.name) {} args with
  | error e => rfl
  | ok p =>
    obtain ⟨g, _ | ⟨name, rest⟩⟩ := p
    · rfl
    · cases hverb : Verb.all.find? fun v => v.name = name with
      | none => simp only [bind, Except.bind, hverb, Except.map]
      | some verb =>
        simp only [bind, Except.bind, hverb]
        cases (inner verb).read [] {} rest with
        | error e => rfl
        | ok p =>
          obtain ⟨g', _⟩ := p
          simp only
          cases g'.task verb with
          | error e => rfl
          | ok task =>
            simp only
            split
            · simp only [Except.map, hsettings]
            · rfl

/-- The command interprets a request that is given by its text. -/
def Invocation.ByText (i : Invocation) : Prop :=
  ∃ o json, i.task = .interpret o json ∧ ∀ signs, o ≠ .signs signs

/-- Such a command does not depend on its locale, nor on the variables. -/
theorem Invocation.ByText.perform_eq {i' : Invocation} (h : i.ByText)
    (hi : i'.inLocale "" = i.inLocale "") :
    perform { sur with vars := vars' } i' = perform sur i := by
  obtain ⟨⟨catalog, locale, verbose⟩, task⟩ := i
  obtain ⟨⟨catalog', locale', verbose'⟩, task'⟩ := i'
  obtain ⟨o, json, rfl, ho⟩ := h
  cases hi
  cases o with
  | signs signs => exact absurd rfl (ho signs)
  | file | input => rfl

/-- The report of a command line is that of another one which asks for the same in some
    locale, where the request is given by its text. -/
theorem run_eq_of_byText {args' : List String}
    (h : (Invocation.read vars' args').map (Invocation.inLocale "") =
      (Invocation.read sur.vars args).map (Invocation.inLocale ""))
    (htext : ∀ i, Invocation.read sur.vars args = .ok i → i.ByText) :
    run { sur with vars := vars' } args' = run sur args := by
  rw [run, run]
  cases hread : Invocation.read sur.vars args with
  | error e =>
    cases hread' : Invocation.read vars' args' with
    | error e' =>
      rw [hread, hread'] at h
      rw [Except.error.inj h]
    | ok i' =>
      rw [hread, hread'] at h
      cases h
  | ok i =>
    cases hread' : Invocation.read vars' args' with
    | error e' =>
      rw [hread, hread'] at h
      cases h
    | ok i' =>
      rw [hread, hread'] at h
      simp only [(htext i hread).perform_eq (Except.ok.inj h)]

/-- Command lines that are the same but for `--locale` give the same report, whatever
    the variable says, where the request is given by its text. -/
theorem run_without_locale {args' : List String} {i' : Invocation}
    (h : Invocation.read sur.vars args = .ok i) (htext : i.ByText)
    (hvars : vars'.catalog = sur.vars.catalog) (h' : Invocation.read vars' args' = .ok i')
    (hsame : Omission.locale.arguments args' = Omission.locale.arguments args) :
    run { sur with vars := vars' } args' = run sur args := by
  refine run_eq_of_byText ?_ fun j hj => Except.ok.inj (h.symm.trans hj) ▸ htext
  have hdrop : ∀ {vars args i}, Invocation.read vars args = .ok i →
      (Invocation.read vars args).map (Invocation.inLocale "") =
        (Invocation.read vars (Omission.locale.arguments args)).map (Invocation.inLocale "") := by
    intro vars args i h
    rw [h, Invocation.read_without_locale h]
    rfl
  rw [hdrop h', hsame, Invocation.map_read hvars, hdrop h]

/-! ## Signs and texts -/

/-- The text of a request for signs, on one line or over several. -/
def requestText (d : Spread) (signs : List String) (locale : String) : String :=
  String.ofList ((Request.codec.value (.ofSigns signs locale)).write d)

theorem decode_requestText (d : Spread) (signs : List String) (locale : String) :
    Request.codec.decode (requestText d signs locale) = .ok (.ofSigns signs locale) :=
  (Request.restores_ofSigns signs locale).decode_write d

theorem decode_tokensText_ofSigns (d : Spread) (signs : List String) :
    Request.codec.decode (Request.tokensText d (Request.ofSigns signs defaultLocale).tokens) =
      .ok (.ofSigns signs defaultLocale) := by
  refine Request.decode_tokensText (fun t ht => ?_) d
  obtain ⟨sign, -, rfl⟩ := List.mem_map.1 ht
  exact Codec.restores_defaultConfidence

/-- **Signs and the text of a request for them give the same report.** -/
theorem run_of_decode {args' : List String} {s' : Settings} {signs : List String}
    (h : Invocation.read sur.vars args = .ok ⟨s, .interpret (.signs signs) json⟩)
    (h' : Invocation.read sur.vars args' = .ok ⟨s', .interpret o json⟩)
    (hcatalog : s'.catalog = s.catalog) (hverbose : s'.verbose = s.verbose)
    (ho : o.Reads sur text) (hdecode : Request.codec.decode text = .ok (.ofSigns signs s.locale)) :
    run sur args' = run sur args := by
  have hcatalog : catalogOf sur.files s' = catalogOf sur.files s := by rw [catalogOf, hcatalog]; rfl
  have htext : o.Gives sur s'.locale (.ofSigns signs s.locale) :=
    .text ho ⟨hdecode, check_ofSigns signs s.locale⟩
  have hsigns : Origin.Gives sur s.locale (.signs signs) (.ofSigns signs s.locale) := .signs signs
  have hperform : perform sur ⟨s', .interpret o json⟩ =
      perform sur ⟨s, .interpret (.signs signs) json⟩ := by
    simp only [perform, htext.requestOf, hsigns.requestOf, hcatalog, hverbose]
  rw [run, run, h, h']
  simp only [hperform]

/-! ## Command lines for all settings -/

/-- A parameter with its value as one argument. -/
def Parameter.argument (p : Parameter) (v : String) : String := "--" ++ p.name ++ "=" ++ v

/-- The command that interprets, with a catalog, its flags and what else is given. -/
def interpretLine (catalog : String) (verbose json : Bool) (rest : List String) : List String :=
  Parameter.catalog.argument catalog :: (if verbose then ["--verbose"] else [])
    ++ "interpret" :: (if json then ["--json"] else []) ++ rest

/-- Signs and a locale. -/
def signsArguments (locale : String) (signs : List String) : List String :=
  Parameter.locale.argument locale :: "--" :: signs

/-- A file with the text of a request, or `-` for the standard input, and perhaps a
    locale. -/
def requestArguments (path : String) (locale? : Option String) : List String :=
  Parameter.request.argument path :: (locale?.map Parameter.locale.argument).toList

/-- Where the text of a request is. -/
def Origin.ofPath (path : String) : Origin := if path = "-" then .input else .file path

theorem shape_argument (p : Parameter) (v : String) :
    shape (p.argument v) = .long p.name (some v) := by
  have hall : p.name.toList.all (decide <| · ≠ '=') = true := by cases p <;> decide
  have hname : ∀ c ∈ p.name.toList, decide (c ≠ '=') = true := List.all_eq_true.1 hall
  have hlist : (p.argument v).toList = '-' :: '-' :: (p.name.toList ++ '=' :: v.toList) := by
    simp [Parameter.argument, String.toList_append]
  obtain ⟨htake, hdrop⟩ := Text.run_eq (m := '=' :: v.toList) hname (by simp)
  unfold shape
  rw [hlist]
  split
  · rename_i h
    simp at h
  · rename_i t _ h
    obtain rfl : p.name.toList ++ '=' :: v.toList = t := by simpa using h
    rw [htake, hdrop]
    simp
  · rename_i h
    simp at h
  · rename_i hno _ h
    exact (hno _ (List.cons.inj h).2.symm).elim
  · rename_i hno
    exact (hno _ rfl).elim

theorem shape_flag (f : Flag) : shape ("--" ++ f.name) = .long f.name none := by
  cases f <;> rfl

/-- What stands before the name of the command. -/
def Given.before (catalog : String) (verbose : Bool) : Given where
  flags := if verbose then [.verbose] else []
  values := [(.catalog, catalog)]

/-- Such a command line is taken unless the variable for the catalog is empty. -/
theorem read_interpretLine {catalog : String} {rest : List String} {g : Given} {task : Task}
    (hpath : catalog ≠ "")
    (hrest : (inner .interpret).Reads [] { flags := if json then [.json] else [] } rest g none)
    (hg : g.coherent vars = decide (vars.catalog ≠ some "")) (htask : g.task .interpret = .ok task) :
    Invocation.read vars (interpretLine catalog verbose json rest) =
      if vars.catalog ≠ some "" then .ok ⟨.of vars (.before catalog verbose) g, task⟩
      else .error .misuse := by
  have hcatalog : Given.value {} .catalog catalog = .ok { values := [(.catalog, catalog)] } :=
    Given.value_eq_ok_iff.2 ⟨by simp, by simp [Parameter.accepts, hpath], rfl⟩
  have hcommand : ∀ g as, outer.Reads (helpName :: Verb.all.map Verb.name) g ("interpret" :: as) g
      (some ("interpret", as)) := fun g as => .command rfl (by decide)
  have hinner : (inner .interpret).Reads [] {} ((if json then ["--json"] else []) ++ rest) g none := by
    cases json with
    | false => exact hrest
    | true => exact .flag (f := .json) (shape_flag .json) rfl rfl hrest
  have houter : outer.Reads (helpName :: Verb.all.map Verb.name) {}
      (interpretLine catalog verbose json rest) (.before catalog verbose)
      (some ("interpret", (if json then ["--json"] else []) ++ rest)) := by
    refine .joined (shape_argument .catalog catalog) rfl rfl hcatalog ?_
    cases verbose with
    | false => exact hcommand _ _
    | true => exact .flag (f := .verbose) (shape_flag .verbose) rfl rfl (hcommand _ _)
  have hbefore : (Given.before catalog verbose).coherent vars = true := by
    cases verbose <;> simp [Given.coherent, Given.before, Given.has, Given.value?]
  have hverb : (Verb.all.find? fun v => v.name = "interpret") = some .interpret := by decide
  simp [Invocation.read, houter.read_eq, hverb, hinner.read_eq, htask, hbefore, hg, bind, Except.bind]

theorem read_signsArguments (vars : Variables) {catalog : String} (hpath : catalog ≠ "")
    (locale : String) (signs : List String) (verbose json : Bool) :
    Invocation.read vars (interpretLine catalog verbose json (signsArguments locale signs)) =
      if vars.catalog ≠ some "" then
        .ok ⟨⟨some catalog, locale, verbose⟩, .interpret (.signs signs) json⟩
      else .error .misuse := by
  let g : Given := ⟨if json then [.json] else [], [(.locale, locale)], signs.reverse⟩
  have hrest : (inner .interpret).Reads [] { flags := if json then [.json] else [] }
      (signsArguments locale signs) g none := by
    refine .joined (shape_argument .locale locale) rfl rfl
      (Given.value_eq_ok_iff.2 ⟨by simp, rfl, rfl⟩) (.dashes rfl ?_)
    simp [g, Level.names, inner]
  have hg : g.coherent vars = decide (vars.catalog ≠ some "") := by
    cases json <;> simp [g, Given.coherent, Given.has, Given.value?]
  have htask : g.task .interpret = .ok (.interpret (.signs signs) json) := by
    cases json <;> simp [g, Given.task, Given.origin, Given.value?, Given.has, Except.map]
  have hsettings : Settings.of vars (.before catalog verbose) g = ⟨some catalog, locale, verbose⟩ := by
    cases verbose <;> cases json <;> simp [g, Settings.of, Given.before, Given.value?, Given.has]
  rw [read_interpretLine hpath hrest hg htask, hsettings]

theorem read_requestArguments (vars : Variables) {catalog : String} (hpath : catalog ≠ "")
    {path : String} (hrequest : path ≠ "") (locale? : Option String) (verbose json : Bool) :
    Invocation.read vars (interpretLine catalog verbose json (requestArguments path locale?)) =
      if vars.catalog ≠ some "" then
        .ok ⟨⟨some catalog, (locale?.or vars.locale).getD defaultLocale, verbose⟩,
          .interpret (.ofPath path) json⟩
      else .error .misuse := by
  let g : Given :=
    ⟨if json then [.json] else [], (locale?.map fun l => (.locale, l)).toList ++ [(.request, path)], []⟩
  have hrest : (inner .interpret).Reads [] { flags := if json then [.json] else [] }
      (requestArguments path locale?) g none := by
    refine .joined (shape_argument .request path) rfl rfl
      (Given.value_eq_ok_iff.2 ⟨by simp, by simp [Parameter.accepts, hrequest], rfl⟩) ?_
    cases locale? with
    | none => exact .nil _
    | some l =>
      exact .joined (shape_argument .locale l) rfl rfl
        (Given.value_eq_ok_iff.2 ⟨by simp, rfl, rfl⟩) (.nil _)
  have hg : g.coherent vars = decide (vars.catalog ≠ some "") := by
    cases json <;> cases locale? <;> simp [g, Given.coherent, Given.has, Given.value?]
  have htask : g.task .interpret = .ok (.interpret (.ofPath path) json) := by
    have horigin : g.origin = .ok (.ofPath path) := by
      have hvalue : g.value? .request = some path := by
        cases locale? <;> simp [g, Given.value?]
      simp only [Given.origin, hvalue, Origin.ofPath]
      by_cases hinput : path = "-" <;> simp [g, hinput]
    rw [Given.task, horigin]
    cases json <;> simp [g, Given.has, Except.map]
  have hsettings : Settings.of vars (.before catalog verbose) g =
      ⟨some catalog, (locale?.or vars.locale).getD defaultLocale, verbose⟩ := by
    cases verbose <;> cases json <;> cases locale? <;>
      simp [g, Settings.of, Given.before, Given.value?, Given.has]
  rw [read_interpretLine hpath hrest hg htask, hsettings]

/-- Signs behind `--` and the text of a request for them give the same report. -/
theorem run_interpretLine {catalog : String} (hpath : catalog ≠ "") (hrequest : path ≠ "")
    {d : Spread} {locale : String} {signs : List String} (locale? : Option String)
    (ho : (Origin.ofPath path).Reads sur (requestText d signs locale)) (verbose json : Bool) :
    run sur (interpretLine catalog verbose json (requestArguments path locale?)) =
      run sur (interpretLine catalog verbose json (signsArguments locale signs)) := by
  have hsigns := read_signsArguments sur.vars hpath locale signs verbose json
  have htext := read_requestArguments sur.vars hpath hrequest locale? verbose json
  by_cases hvars : sur.vars.catalog ≠ some ""
  · rw [if_pos hvars] at hsigns htext
    exact run_of_decode hsigns htext rfl rfl ho (decode_requestText d signs locale)
  · rw [if_neg hvars] at hsigns htext
    rw [run, run, hsigns, htext]

/-- **The two ways to give a request.**  A command line that names signs and a locale,
    and one that names the text of the request for these signs in this locale, give the
    same report, for all signs and locales, as text and as JSON, with details and
    without; so do any two lines that are taken, and any text that is read as this
    request.  Where the request is given by its text, no locale of the command line or
    of the variables makes a difference: command lines that are taken and are the same
    but for `--locale` give one report.  A text that does not say its locale stands for
    `es-MX`. -/
theorem request_origins_agree (sur : Surroundings) :
    (∀ catalog path locale locale? signs verbose json d, catalog ≠ "" → path ≠ "" →
      (Origin.ofPath path).Reads sur (requestText d signs locale) →
      run sur (interpretLine catalog verbose json (requestArguments path locale?)) =
        run sur (interpretLine catalog verbose json (signsArguments locale signs))) ∧
    (∀ args args' s s' o signs json text,
      Invocation.read sur.vars args = .ok ⟨s, .interpret (.signs signs) json⟩ →
      Invocation.read sur.vars args' = .ok ⟨s', .interpret o json⟩ →
      s'.catalog = s.catalog → s'.verbose = s.verbose → o.Reads sur text →
      Request.codec.decode text = .ok (.ofSigns signs s.locale) → run sur args' = run sur args) ∧
    (∀ vars' args args' i i', vars'.catalog = sur.vars.catalog →
      Invocation.read sur.vars args = .ok i → i.ByText → Invocation.read vars' args' = .ok i' →
      Omission.locale.arguments args' = Omission.locale.arguments args →
      run { sur with vars := vars' } args' = run sur args) ∧
    (∀ vars' args, vars'.catalog = sur.vars.catalog →
      (∀ i, Invocation.read sur.vars args = .ok i → i.ByText) →
      run { sur with vars := vars' } args = run sur args) ∧
    (∀ d signs locale,
      Request.codec.decode (requestText d signs locale) = .ok (.ofSigns signs locale)) ∧
    (∀ d signs, Request.codec.decode (Request.tokensText d (Request.ofSigns signs "es-MX").tokens) =
      .ok (.ofSigns signs "es-MX")) ∧
    ∀ text req, Request.codec.decode text = .ok req → Request.Unlocated text →
      req.locale = "es-MX" := by
  refine ⟨fun _ _ _ locale? _ verbose json _ hpath hrequest ho =>
      run_interpretLine hpath hrequest locale? ho verbose json,
    fun _ _ _ _ _ _ _ _ h h' hcatalog hverbose ho hdecode =>
      run_of_decode h h' hcatalog hverbose ho hdecode,
    fun _ _ _ _ _ hvars h htext h' hsame => run_without_locale h htext hvars h' hsame,
    fun _ args hvars htext => run_eq_of_byText (Invocation.map_read hvars args) htext,
    decode_requestText, decode_tokensText_ofSigns,
    fun _ _ h hu => Request.locale_of_unlocated h hu⟩

/-- One request in two ways, and a text of it with another locale around it. -/
theorem request_origins_agree_file :
    let folder : Folder := .ofFiles [("r.json", (requestText none ["YO", "-a"] "es-ES").toUTF8)]
    let sur : Surroundings := ⟨{}, .ok (requestText (some 0) ["YO", "-a"] "es-ES"), folder.text⟩
    let args := ["--catalog", "c.json", "interpret", "--locale", "es-ES", "--", "YO", "-a"]
    let args' := ["interpret", "--request", "r.json", "--catalog=c.json"]
    let args₁ := ["--locale=fr", "interpret", "--request", "r.json", "--catalog=c.json"]
    let s : Settings := ⟨some "c.json", "es-ES", false⟩
    let i' : Invocation := ⟨{ s with locale := "es-MX" }, .interpret (.file "r.json") false⟩
    let vars₁ : Variables := { locale := some "en" }
    run sur (interpretLine "c.json" true true (requestArguments "-" (some "fr"))) =
        run sur (interpretLine "c.json" true true (signsArguments "es-ES" ["YO", "-a"])) ∧
      Invocation.read sur.vars args = .ok ⟨s, .interpret (.signs ["YO", "-a"]) false⟩ ∧
      Invocation.read sur.vars args' = .ok i' ∧ run sur args' = run sur args ∧
      Invocation.read vars₁ args₁ = .ok ⟨{ s with locale := "fr" }, i'.task⟩ ∧
      run { sur with vars := vars₁ } args₁ = run sur args' ∧
      run { sur with vars := vars₁ } args' = run sur args' ∧
      ∃ req, Request.codec.decode (Request.tokensText none []) = .ok req ∧ req.locale = "es-MX" := by
  intro folder sur args args' args₁ s i' vars₁
  obtain ⟨hlines, htaken, hlocale, hvariable, hdecode, htokens, hleft⟩ := request_origins_agree sur
  have hfile : Origin.Reads sur (.file "r.json") (requestText none ["YO", "-a"] "es-ES") :=
    .file (by decide +kernel)
  have h : Invocation.read sur.vars args = .ok ⟨s, .interpret (.signs ["YO", "-a"]) false⟩ := by
    decide +kernel
  have h' : Invocation.read sur.vars args' = .ok i' := by decide +kernel
  have h₁ : Invocation.read vars₁ args₁ = .ok ⟨{ s with locale := "fr" }, i'.task⟩ := by
    decide +kernel
  have htext : i'.ByText := ⟨.file "r.json", false, rfl, fun _ h => by cases h⟩
  have hempty : Request.codec.decode (Request.tokensText none []) = .ok (.ofSigns [] "es-MX") :=
    htokens none []
  have hunlocated : Request.Unlocated (Request.tokensText none []) :=
    Request.unlocated_tokensText (by simp) none
  refine ⟨hlines _ _ _ _ _ true true (some 0) (by decide) (by decide) (.input rfl), h, h',
    htaken args args' s _ _ _ _ _ h h' rfl rfl hfile (hdecode none _ _), h₁,
    hlocale vars₁ args' args₁ i' _ rfl h' htext h₁ (by decide +kernel),
    hvariable vars₁ args' rfl (fun i hi => Except.ok.inj (h'.symm.trans hi) ▸ htext),
    _, hempty, hleft _ _ hempty hunlocated⟩

end SignGloss.Command
