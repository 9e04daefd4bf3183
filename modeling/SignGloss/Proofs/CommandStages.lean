/-
  The stages of a command.

  A command gets its request, if it takes one, then its catalog, and then it does
  its work.  The first stage that fails gives the report.

  * a file has no text if it is not there or is not in UTF-8
    (`exists_error_text_iff`);
  * `Origin.Reads`: the text that a request is read from;
  * `Origin.Gives` and `GivesCatalog`: what a stage gets where it succeeds;
  * `Origin.Fails` and `FailsCatalog`: the ways in which a stage fails, with the
    status of each;
  * `Invocation.Fails`: the ways in which a command fails before its work;
  * `Report.Failure`: a report with a status and nothing for the output.

  Main statements: each stage succeeds or fails (`Origin.gives_or_fails`,
  `givesCatalog_or_fails`), and a failure is all that is reported
  (`Invocation.Fails.perform`).
-/
import SignGloss.Command.Run
import SignGloss.Proofs.CatalogAnswer

namespace SignGloss.Command

variable {sur : Surroundings} {files : Files} {s : Settings} {i : Invocation} {o : Origin}
  {locale text path : String} {n : Nat}

/-- The report of a failure. -/
def Report.Failure (r : Report) (status : Nat) : Prop := r.status = status ∧ r.output = []

/-! ## Files -/

/-- A file of a folder has no text iff it is not there or its bytes are no UTF-8. -/
theorem exists_error_text_iff (f : Folder) (path : String) : (∃ e, f.text path = .error e) ↔
    ∀ bytes, f.follow path = .ok (.file bytes) → ¬ bytes.IsValidUTF8 := by
  unfold Folder.text
  cases f.follow path with
  | error e => simp
  | ok place =>
    cases place with
    | directory | above => simp
    | file bytes => by_cases h : bytes.IsValidUTF8 <;> simp [textOfBytes, String.fromUTF8?, h]

/-! ## The request -/

/-- The text of a request. -/
inductive Origin.Reads (sur : Surroundings) : Origin → String → Prop
  | file {path text : String} : sur.files path = .ok text → Reads sur (.file path) text
  | input {text : String} : sur.input = .ok text → Reads sur .input text

/-- The text is that of a request that makes sense. -/
def Requests (text : String) (req : Request) : Prop :=
  Request.codec.decode text = .ok req ∧ req.check = .ok ()

/-- The request is got. -/
inductive Origin.Gives (sur : Surroundings) (locale : String) : Origin → Request → Prop
  | signs (signs : List String) : Gives sur locale (.signs signs) (.ofSigns signs locale)
  | text {o : Origin} {text : String} {req : Request} :
      o.Reads sur text → Requests text req → Gives sur locale o req

/-- The request is not got. -/
inductive Origin.Fails (sur : Surroundings) : Origin → Nat → Prop
  | unreadable {path : String} {e : ReadFailure} :
      sur.files path = .error e → Fails sur (.file path) Status.noInput
  | noStream {e : ReadFailure} : sur.input = .error e → Fails sur .input Status.noStream
  | noRequest {o : Origin} {text : String} :
      o.Reads sur text → (∀ req, ¬ Requests text req) → Fails sur o Status.badData

theorem Origin.gives_or_fails (sur : Surroundings) (locale : String) (o : Origin) :
    (∃ req, o.Gives sur locale req) ∨ ∃ n, o.Fails sur n := by
  have hread : ∀ text, o.Reads sur text →
      (∃ req, o.Gives sur locale req) ∨ ∃ n, o.Fails sur n := fun text hr => by
    by_cases h : ∃ req, Requests text req
    · obtain ⟨req, hreq⟩ := h
      exact Or.inl ⟨req, .text hr hreq⟩
    · exact Or.inr ⟨_, .noRequest hr (not_exists.1 h)⟩
  cases o with
  | signs signs => exact Or.inl ⟨_, .signs signs⟩
  | file path =>
    cases h : sur.files path with
    | error e => exact Or.inr ⟨_, .unreadable h⟩
    | ok text => exact hread text (.file h)
  | input =>
    cases h : sur.input with
    | error e => exact Or.inr ⟨_, .noStream h⟩
    | ok text => exact hread text (.input h)

/-- Signs without times and confidences pass the check. -/
theorem check_ofSigns (signs : List String) (locale : String) :
    (Request.ofSigns signs locale).check = .ok () := by
  have hunit : defaultConfidence.inUnit = true := by decide +kernel
  refine Request.check_eq_ok_iff.2 fun t ht => ?_
  obtain ⟨sign, -, rfl⟩ := List.mem_map.1 ht
  exact ⟨Int64.lt_irrefl, hunit⟩

theorem rawRequestOf_of_reads (h : o.Reads sur text) :
    rawRequestOf sur locale o = decodeRequest text := by
  cases h with
  | file h => simp only [rawRequestOf, h]
  | input h => simp only [rawRequestOf, h]

theorem Origin.Gives.requestOf {req : Request} (h : o.Gives sur locale req) :
    requestOf sur locale o = .ok req := by
  cases h with
  | signs signs => simp [Command.requestOf, rawRequestOf, bind, Except.bind, check_ofSigns]
  | text hr hreq =>
    simp [Command.requestOf, rawRequestOf_of_reads hr, decodeRequest, hreq.1, hreq.2,
      Except.mapError, bind, Except.bind]

theorem Origin.Fails.requestOf (h : o.Fails sur n) (locale : String) :
    ∃ r, requestOf sur locale o = .error r ∧ r.Failure n := by
  cases h with
  | unreadable h =>
    rw [Command.requestOf, rawRequestOf, h]
    exact ⟨_, rfl, rfl, rfl⟩
  | noStream h =>
    rw [Command.requestOf, rawRequestOf, h]
    exact ⟨_, rfl, rfl, rfl⟩
  | @noRequest o text hr hn =>
    rw [Command.requestOf, rawRequestOf_of_reads hr, decodeRequest]
    cases hd : Request.codec.decode text with
    | error fault => exact ⟨_, rfl, rfl, rfl⟩
    | ok req =>
      cases hc : req.check with
      | error e => exact ⟨_, by simp [Except.mapError, bind, Except.bind, hc]; rfl, rfl, rfl⟩
      | ok u => exact absurd ⟨hd, hc⟩ (hn req)

/-! ## The catalog -/

/-- The text is that of a document which has the catalog. -/
def Describes (text : String) (c : Catalog) : Prop :=
  ∃ d, Document.codec.decode text = .ok d ∧ Catalog.ofDocument d = .ok c

/-- The catalog is got from a path, where one is given. -/
inductive GivesCatalog (files : Files) : Option String → Catalog → Prop
  | file {path text : String} {c : Catalog} : files path = .ok text → Describes text c →
      GivesCatalog files (some path) c

/-- The catalog is not got. -/
inductive FailsCatalog (files : Files) : Option String → Nat → Prop
  | noPath : FailsCatalog files none Status.incomplete
  | unreadable {path : String} {e : ReadFailure} :
      files path = .error e → FailsCatalog files (some path) Status.noInput
  | noCatalog {path text : String} : files path = .ok text → (∀ c, ¬ Describes text c) →
      FailsCatalog files (some path) Status.badData

theorem givesCatalog_or_fails (files : Files) (path? : Option String) :
    (∃ c, GivesCatalog files path? c) ∨ ∃ n, FailsCatalog files path? n := by
  cases path? with
  | none => exact Or.inr ⟨_, .noPath⟩
  | some path =>
    cases hf : files path with
    | error e => exact Or.inr ⟨_, .unreadable hf⟩
    | ok text =>
      by_cases h : ∃ c, Describes text c
      · obtain ⟨c, hc⟩ := h
        exact Or.inl ⟨c, .file hf hc⟩
      · exact Or.inr ⟨_, .noCatalog hf (not_exists.1 h)⟩

theorem GivesCatalog.catalogOf {c : Catalog} (h : GivesCatalog files s.catalog c) :
    catalogOf files s = .ok c := by
  rw [Command.catalogOf]
  generalize s.catalog = path? at h
  cases h with
  | file hf hc =>
    obtain ⟨d, hd, hc⟩ := hc
    simp [Catalog.load, hf, Catalog.ofText, hd, hc, Except.mapError]

theorem FailsCatalog.catalogOf (h : FailsCatalog files s.catalog n) :
    ∃ r, catalogOf files s = .error r ∧ r.Failure n := by
  rw [Command.catalogOf]
  generalize s.catalog = path? at h
  cases h with
  | noPath => exact ⟨_, rfl, rfl, rfl⟩
  | unreadable hf =>
    simp only [Catalog.load, hf]
    exact ⟨_, rfl, rfl, rfl⟩
  | @noCatalog path text hf hn =>
    simp only [Catalog.load, hf, Catalog.ofText]
    cases hd : Document.codec.decode text with
    | error fault =>
      simp only [Except.mapError, loadReport, hf]
      exact ⟨_, rfl, rfl, rfl⟩
    | ok d =>
      cases hc : Catalog.ofDocument d with
      | error p =>
        simp only [hc, Except.mapError]
        exact ⟨_, rfl, rfl, rfl⟩
      | ok c => exact absurd ⟨d, hd, hc⟩ (hn c)

/-! ## Both -/

/-- Where the request of a task comes from, if it takes one. -/
def Task.origin? : Task → Option Origin
  | interpret o _ => some o
  | lookup .. | rules .. | check .. => none

/-- The command has the request that it takes, if any. -/
def Invocation.HasRequest (sur : Surroundings) (i : Invocation) : Prop :=
  ∀ o, i.task.origin? = some o → ∃ req, o.Gives sur i.settings.locale req

/-- The command does not come to its work. -/
inductive Invocation.Fails (sur : Surroundings) (i : Invocation) : Nat → Prop
  | request {o : Origin} {n : Nat} :
      i.task.origin? = some o → o.Fails sur n → Fails sur i n
  | catalog {n : Nat} :
      i.HasRequest sur → FailsCatalog sur.files i.settings.catalog n → Fails sur i n

theorem Invocation.gives_or_fails (sur : Surroundings) (i : Invocation) :
    (i.HasRequest sur ∧ ∃ c, GivesCatalog sur.files i.settings.catalog c) ∨
      ∃ n, i.Fails sur n := by
  by_cases hreq : i.HasRequest sur
  · rcases givesCatalog_or_fails sur.files i.settings.catalog with hc | ⟨n, hn⟩
    · exact Or.inl ⟨hreq, hc⟩
    · exact Or.inr ⟨n, .catalog hreq hn⟩
  · simp only [HasRequest, not_forall] at hreq
    obtain ⟨o, ho, hnone⟩ := hreq
    rcases o.gives_or_fails sur i.settings.locale with hreq | ⟨n, hn⟩
    · exact absurd hreq hnone
    · exact Or.inr ⟨n, .request ho hn⟩

/-- **The first stage that fails gives the report**, and nothing for the output. -/
theorem Invocation.Fails.perform (h : i.Fails sur n) :
    ∃ r, perform sur i = .error r ∧ r.Failure n := by
  obtain ⟨s, task⟩ := i
  cases h with
  | @request o n ho h =>
    cases task with
    | lookup | rules | check => cases ho
    | interpret o' json =>
      obtain rfl : o' = o := Option.some.inj ho
      obtain ⟨r, hr, hn⟩ := h.requestOf s.locale
      exact ⟨r, by simp [Command.perform, hr, bind, Except.bind], hn⟩
  | catalog hreq h =>
    obtain ⟨r, hr, hn⟩ := h.catalogOf
    refine ⟨r, ?_, hn⟩
    cases task with
    | interpret o json =>
      obtain ⟨req, hreq⟩ := hreq o rfl
      simp [Command.perform, hreq.requestOf, hr, bind, Except.bind]
    | lookup | rules | check => simp [Command.perform, hr, bind, Except.bind]

end SignGloss.Command
