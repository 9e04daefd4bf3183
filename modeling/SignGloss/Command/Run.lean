/-
  Running commands.

  * `Surroundings` are what a command can see besides its arguments, and a
    `Report` is all that it leaves behind;
  * a request is looked at before the catalog: `requestOf` and `catalogOf` give
    what is needed or the report of a failure;
  * `perform` does a task, and `run` a whole command line.
-/
import SignGloss.Command.Diagnostic
import SignGloss.Command.Invocation
import SignGloss.Command.Paint
import SignGloss.Command.RuledTable
import SignGloss.Lint
import SignGloss.Loading

namespace SignGloss.Command

open Json

/-! ## Reports -/

/-- The status, and the lines for readers of the output and of errors. -/
structure Report where
  status : Nat
  output : List String := []
  errors : List String := []
deriving Repr, DecidableEq

/-- Lines with their ends. -/
def closedLines (ls : List String) : String := String.join (ls.map (· ++ "\n"))

namespace Status

/-- The command has done its work. -/
def done : Nat := 0

/-- The command line is no good. -/
def misuse : Nat := 2

/-- Something is missing from the command line. -/
def incomplete : Nat := 64

/-- The data are no good. -/
def badData : Nat := 65

/-- A file cannot be read. -/
def noInput : Nat := 66

/-- A source has failed. -/
def unavailable : Nat := 69

/-- The standard input cannot be read. -/
def noStream : Nat := 70

end Status

/-- The report of a failure in one line. -/
def failure (status : Nat) (message : String) : Report :=
  { status, errors := ["error: " ++ message] }

/-- What a command can see. -/
structure Surroundings where
  vars : Variables
  /-- The standard input. -/
  input : Except ReadFailure String
  files : Files

/-! ## Loading -/

/-- The report of a catalog that cannot be loaded.  A text that is no document is
    shown at the place of the fault. -/
def loadReport (files : Files) (f : LoadFailure) : Report :=
  match f with
  | .unreadable .. => failure Status.noInput f.message
  | .malformed path fault =>
    match files path with
    | .ok content =>
      { status := Status.badData
        errors :=
          Diagnostic.lines ⟨path, content, fault.line, fault.column, fault.message, none⟩ }
    | .error _ => failure Status.badData f.message
  | .inconsistent .. => failure Status.badData f.message

/-- The catalog that the settings name. -/
def catalogOf (files : Files) (s : Settings) : Except Report Catalog :=
  match s.catalog with
  | none =>
    .error (failure Status.incomplete "no catalog given; pass --catalog or set SIGNTERP_CATALOG")
  | some path => (Catalog.load files path).mapError (loadReport files)

/-- The request that a text describes. -/
def decodeRequest (content : String) : Except Report Request :=
  (Request.codec.decode content).mapError fun fault =>
    failure Status.badData ("invalid request JSON: " ++ fault.message)

/-- The request from its origin, as it stands there. -/
def rawRequestOf (sur : Surroundings) (locale : String) : Origin → Except Report Request
  | .signs signs => .ok (.ofSigns signs locale)
  | .input =>
    match sur.input with
    | .error e =>
      .error
        { status := Status.noStream
          errors := ["  × Failed to read request from stdin: " ++ e.message] }
    | .ok content => decodeRequest content
  | .file path =>
    match sur.files path with
    | .error e =>
      .error (failure Status.noInput ("cannot read request file " ++ path ++ ": " ++ e.message))
    | .ok content => decodeRequest content

/-- The request from its origin, if it makes sense. -/
def requestOf (sur : Surroundings) (locale : String) (o : Origin) : Except Report Request := do
  let r ← rawRequestOf sur locale o
  match r.check with
  | .error e => .error (failure Status.badData ("invalid request: " ++ e.message))
  | .ok () => .ok r

/-! ## Interpreting -/

/-- The case that has answered, in words. -/
def describeOutcome : Outcome → String
  | .empty => "empty request"
  | .unresolved => "no sign resolved"
  | .singleSign => "single sign"
  | .ruleMatch rule => "rule " ++ toString rule
  | .joined => "no rule matched"

/-- The confidence of an answer and the case that gave it. -/
def confidenceLine (i : Interpretation) : String :=
  Paint.dim.apply "confidence" ++ " " ++ String.ofList (i.response.confidence.fixed 2) ++ " ("
    ++ describeOutcome i.outcome ++ ")"

/-- The report of an answer. -/
def interpretReport (verbose json : Bool) (src : Sources) (r : Request) : Report :=
  match (interpret src r).result with
  | .error e => failure Status.unavailable e.message
  | .ok i =>
    if json then { status := Status.done, output := [(Response.codec.value i.response).indented] }
    else
      { status := Status.done
        output := [i.response.text]
        errors := if verbose then [confidenceLine i] else [] }

/-! ## Looking up -/

/-- Signs with their senses, unless a look-up fails. -/
def lookUp (src : Sources) (signs : List String) : Except LookupFailure (List (String × List Sense)) :=
  signs.mapM fun sign => (src.senses sign).map fun senses => (sign, senses)

/-- A sign with its senses. -/
def lookupValue (found : String × List Sense) : Value :=
  .record
    [("sign_id", .text found.1), ("candidates", .list (found.2.map Sense.codec.value))]

/-- A sense with its rank, counted from 0. -/
def senseLine (rank : Nat) (s : Sense) : String :=
  "  " ++ toString (rank + 1) ++ ". " ++ s.gloss ++ " " ++ Paint.cyan.apply ("[" ++ s.tag.name ++ "]")
    ++ match s.surface with
      | none => ""
      | some t => " \"" ++ t ++ "\""

/-- The lines about a sign. -/
def lookupLines (found : String × List Sense) : List String :=
  Paint.bold.apply found.1 :: found.2.mapIdx senseLine

/-- The report of a look-up. -/
def lookupReport (json : Bool) (src : Sources) (signs : List String) : Report :=
  match lookUp src signs with
  | .error e => failure Status.unavailable e.message
  | .ok found =>
    if json then
      { status := Status.done, output := [(Value.list (found.map lookupValue)).indented] }
    else { status := Status.done, output := found.flatMap lookupLines }

/-! ## Listing rules -/

/-- The cells of a rule. -/
def ruleCells (r : Rule) : List String :=
  [toString r.id, toString r.weight.toInt, r.locale.getD "*", r.pattern, r.template]

/-- The rules as a table. -/
def ruleTable (rs : List Rule) : String :=
  ruledTable ["Id", "Weight", "Locale", "Pattern", "Template"] (rs.map ruleCells)

/-- The report of the active rules. -/
def rulesReport (locale : String) (json : Bool) (src : Sources) : Report :=
  match src.rules locale with
  | .error e => failure Status.unavailable e.message
  | .ok rs =>
    let text :=
      if json then (Value.list (rs.map Rule.codec.value)).indented
      else if rs.isEmpty then "No active rules for " ++ locale
      else ruleTable rs
    { status := Status.done, output := [text] }

/-! ## Checking -/

/-- How bad a finding is. -/
def severity (f : Finding) : String := if f.isError then "error" else "warning"

/-- A finding as a value. -/
def findingValue (f : Finding) : Value :=
  .record
    [("rule_id", .integer f.rule.toNat), ("severity", .text (severity f)),
      ("message", .text f.message)]

/-- What is shown of a pattern that cannot be read. -/
def patternDiagnostic (rule : UInt32) (pattern : String) (e : PatternError) : Diagnostic :=
  let source := "rule " ++ toString rule ++ " pattern"
  match e with
  | .blank => ⟨source, pattern, 1, 1, e.message, some "a pattern needs at least one [TAG]"⟩
  | .noTag line column found =>
    ⟨source, pattern, line, column, PatternError.detail found,
      some "patterns are bracketed tags, e.g. [PRON] [VERB]"⟩

/-- The lines about a finding. -/
def findingLines : Finding → List String
  | .invalidPattern rule pattern e => (patternDiagnostic rule pattern e).lines
  | f => [Paint.bold.apply (Paint.yellow.apply "warning:") ++ " " ++ f.message]

/-- The number of rules and of findings. -/
def summaryLine (c : Catalog) (fs : List Finding) : String :=
  let bad := fs.countP Finding.isError
  let line := toString c.rules.length ++ " rules, " ++ toString bad ++ " errors, "
    ++ toString (fs.length - bad) ++ " warnings"
  if fs.isEmpty then Paint.green.apply line else line

/-- The report of a check.  With `strict` any finding is bad. -/
def checkReport (json strict : Bool) (c : Catalog) : Report :=
  let fs := lint c.rules
  let status :=
    if fs.any Finding.isError || (strict && !fs.isEmpty) then Status.badData else Status.done
  if json then { status, output := [(Value.list (fs.map findingValue)).indented] }
  else { status, output := [summaryLine c fs], errors := fs.flatMap findingLines }

/-! ## Whole commands -/

/-- Do a task. -/
def perform (sur : Surroundings) (i : Invocation) : Except Report Report :=
  let s := i.settings
  match i.task with
  | .interpret origin json => do
    let r ← requestOf sur s.locale origin
    let c ← catalogOf sur.files s
    return interpretReport s.verbose json c.sources r
  | .lookup signs json => return lookupReport json (← catalogOf sur.files s).sources signs
  | .rules json => return rulesReport s.locale json (← catalogOf sur.files s).sources
  | .check json strict => return checkReport json strict (← catalogOf sur.files s)

/-- The name and the version of the program. -/
def versionLine : String := "signterp 0.1.0"

/-- How the program is used. -/
def usageLines : List String :=
  ["Usage: signterp [OPTIONS] <COMMAND>",
    "",
    "Commands:",
    "  interpret [--request FILE | SIGN...] [--json]",
    "  lookup SIGN... [--json]",
    "  rules [--json]",
    "  check [--json] [--strict]",
    "",
    "Options:",
    "  --catalog FILE, --locale LOCALE, --color WHEN, -v, -q, -h, -V"]

/-- The report of a command line that asks for no task. -/
def stopReport : Stop → Report
  | .version => { status := Status.done, output := [versionLine] }
  | .help => { status := Status.done, output := usageLines }
  | .misuse => { status := Status.misuse, errors := usageLines }

/-- Run a command line. -/
def run (sur : Surroundings) (args : List String) : Report :=
  match Invocation.read sur.vars args with
  | .error e => stopReport e
  | .ok i =>
    match perform sur i with
    | .ok r => r
    | .error r => r

end SignGloss.Command
