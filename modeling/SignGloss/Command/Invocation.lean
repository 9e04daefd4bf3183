/-
  What a command line asks for.

  * an `Invocation` is a task with the settings that all commands share;
  * `Invocation.read` reads both levels of a command line.  An option that is
    shared by all commands may be given at either level; the one behind the name
    of the command wins, and any of them wins over the `Variables` of the
    environment.
-/
import SignGloss.Command.Arguments
import SignGloss.Request

namespace SignGloss.Command

/-! ## Tasks -/

/-- What all commands share. -/
structure Settings where
  catalog : Option String
  locale : String
  verbose : Bool
deriving Repr, DecidableEq

/-- Where a request comes from. -/
inductive Origin where
  | signs (signs : List String)
  | file (path : String)
  /-- the standard input -/
  | input
deriving Repr, DecidableEq

/-- What is to be done. -/
inductive Task where
  | interpret (origin : Origin) (json : Bool)
  | lookup (signs : List String) (json : Bool)
  | rules (json : Bool)
  | check (json strict : Bool)
deriving Repr, DecidableEq

/-- A command line that asks for a task. -/
structure Invocation where
  settings : Settings
  task : Task
deriving Repr, DecidableEq

/-- The variables that stand for options. -/
structure Variables where
  catalog : Option String := none
  locale : Option String := none
deriving Repr, DecidableEq

/-! ## Levels -/

/-- The first level. -/
def outer : Level := ⟨[.verbose, .quiet, .help, .version], [.color, .catalog, .locale], false⟩

/-- The level behind the name of a command. -/
def inner : Verb → Level
  | .interpret =>
    ⟨[.verbose, .quiet, .help, .json], [.color, .catalog, .locale, .request], true⟩
  | .lookup => ⟨[.verbose, .quiet, .help, .json], [.color, .catalog, .locale], true⟩
  | .rules => ⟨[.verbose, .quiet, .help, .json], [.color, .catalog, .locale], false⟩
  | .check => ⟨[.verbose, .quiet, .help, .json, .strict], [.color, .catalog, .locale], false⟩

/-! ## Reading -/

/-- What was given at a level goes together.  A variable counts at each level
    that does not have its option. -/
def Given.coherent (vars : Variables) (g : Given) : Bool :=
  !(g.has .verbose && g.has .quiet) &&
    ((g.value? .catalog).isSome || vars.catalog ≠ some "")

/-- Where the request comes from. -/
def Given.origin (g : Given) : Except Stop Origin :=
  match g.value? .request with
  | none => .ok (.signs g.names.reverse)
  | some path =>
    if !g.names.isEmpty then .error .misuse
    else if path = "-" then .ok .input
    else .ok (.file path)

/-- The task that a command with its arguments stands for. -/
def Given.task (g : Given) : Verb → Except Stop Task
  | .interpret => g.origin.map fun o => .interpret o (g.has .json)
  | .lookup =>
    if g.names.isEmpty then .error .misuse else .ok (.lookup g.names.reverse (g.has .json))
  | .rules => .ok (.rules (g.has .json))
  | .check => .ok (.check (g.has .json) (g.has .strict))

/-- The settings from both levels and the variables. -/
def Settings.of (vars : Variables) (g g' : Given) : Settings where
  catalog := ((g'.value? .catalog).or (g.value? .catalog)).or vars.catalog
  locale :=
    (((g'.value? .locale).or (g.value? .locale)).or vars.locale).getD defaultLocale
  verbose := g'.has .verbose || g.has .verbose

/-- The command that asks for help. -/
def helpName : String := "help"

/-- Help is asked for everything or for one command. -/
def helpFor (args : List String) : Stop :=
  match args with
  | [] => .help
  | [a] => if a = helpName ∨ a ∈ Verb.all.map Verb.name then .help else .misuse
  | _ => .misuse

/-- Read a command line. -/
def Invocation.read (vars : Variables) (args : List String) : Except Stop Invocation := do
  match ← outer.read (helpName :: Verb.all.map Verb.name) {} args with
  | (_, none) => .error .misuse
  | (g, some (name, rest)) =>
    match Verb.all.find? fun v => v.name = name with
    | none => .error (helpFor rest)
    | some v =>
      let (g', _) ← (inner v).read [] {} rest
      let task ← g'.task v
      if g.coherent vars && g'.coherent vars then .ok ⟨.of vars g g', task⟩
      else .error .misuse

end SignGloss.Command
