/-
  Command lines.

  * a command line has two levels: what stands before the name of the command,
    and what stands behind it.  A `Level` says which flags, options and names a
    level may have, and `Given` is what a level has had;
  * flags and options may be given once at each level.  Behind `--` there are
    names only, and the value of an option does not start with a dash;
  * `Level.read` reads the arguments of a level, up to the name of a command;
  * a `Stop` is a reason not to run a command: help or the version is asked for,
    or the command line is no good.
-/
namespace SignGloss.Command

/-! ## Names -/

/-- A switch. -/
inductive Flag where
  | verbose
  | quiet
  | json
  | strict
  | help
  | version
deriving Repr, DecidableEq

/-- An argument with a value. -/
inductive Parameter where
  | color
  | catalog
  | locale
  | request
deriving Repr, DecidableEq

/-- A command. -/
inductive Verb where
  | interpret
  | lookup
  | rules
  | check
deriving Repr, DecidableEq

/-- The name behind two dashes. -/
def Flag.name : Flag → String
  | verbose => "verbose"
  | quiet => "quiet"
  | json => "json"
  | strict => "strict"
  | help => "help"
  | version => "version"

/-- The letter behind one dash. -/
def Flag.letter? : Flag → Option Char
  | verbose => some 'v'
  | quiet => some 'q'
  | help => some 'h'
  | version => some 'V'
  | json | strict => none

/-- The name behind two dashes. -/
def Parameter.name : Parameter → String
  | color => "color"
  | catalog => "catalog"
  | locale => "locale"
  | request => "request"

/-- A value that the parameter may have.  Paths are not empty. -/
def Parameter.accepts (p : Parameter) (v : String) : Bool :=
  match p with
  | color => v = "auto" ∨ v = "always" ∨ v = "never"
  | catalog | request => v ≠ ""
  | locale => true

/-- The name of the command. -/
def Verb.name : Verb → String
  | interpret => "interpret"
  | lookup => "lookup"
  | rules => "rules"
  | check => "check"

/-- All commands. -/
def Verb.all : List Verb := [interpret, lookup, rules, check]

/-! ## Levels -/

/-- Why no command is run. -/
inductive Stop where
  | help
  | version
  | misuse
deriving Repr, DecidableEq

/-- What may be given at a level. -/
structure Level where
  flags : List Flag
  parameters : List Parameter
  /-- Names may be given. -/
  takesNames : Bool

/-- What has been given at a level, the latest first. -/
structure Given where
  flags : List Flag := []
  values : List (Parameter × String) := []
  names : List String := []
deriving Repr, DecidableEq

namespace Given

/-- One more flag. -/
def flag (g : Given) (f : Flag) : Except Stop Given :=
  match f with
  | .help => .error .help
  | .version => .error .version
  | f => if f ∈ g.flags then .error .misuse else .ok { g with flags := f :: g.flags }

/-- One more value. -/
def value (g : Given) (p : Parameter) (v : String) : Except Stop Given :=
  if p ∈ g.values.map Prod.fst ∨ p.accepts v = false then .error .misuse
  else .ok { g with values := (p, v) :: g.values }

/-- The value of a parameter. -/
def value? (g : Given) (p : Parameter) : Option String :=
  (g.values.find? fun q => q.1 = p).map Prod.snd

/-- The flag has been given. -/
def has (g : Given) (f : Flag) : Bool := f ∈ g.flags

end Given

namespace Level

/-- The flag with a letter. -/
def byLetter? (l : Level) (c : Char) : Option Flag := l.flags.find? fun f => f.letter? = some c

/-- More flags, by their letters. -/
def letters (l : Level) (g : Given) : List Char → Except Stop Given
  | [] => .ok g
  | c :: cs =>
    match l.byLetter? c with
    | none => .error .misuse
    | some f =>
      match g.flag f with
      | .error e => .error e
      | .ok g' => letters l g' cs

/-- More names. -/
def names (l : Level) (g : Given) (ns : List String) : Except Stop Given :=
  if ns.isEmpty ∨ l.takesNames then .ok { g with names := ns.reverse ++ g.names }
  else .error .misuse

/-- The flag with a name. -/
def flag? (l : Level) (name : String) : Option Flag := l.flags.find? fun f => f.name = name

/-- The parameter with a name. -/
def parameter? (l : Level) (name : String) : Option Parameter :=
  l.parameters.find? fun p => p.name = name

end Level

/-! ## Reading a level -/

/-- What an argument is, by its form. -/
inductive Shape where
  /-- nothing but names follow -/
  | dashes
  /-- a name behind two dashes, and perhaps a value -/
  | long (name : String) (value : Option String)
  /-- letters behind one dash -/
  | short (letters : List Char)
  /-- a name, or a value -/
  | plain

/-- The form of an argument. -/
def shape (a : String) : Shape :=
  match a.toList with
  | ['-', '-'] => .dashes
  | '-' :: '-' :: s =>
    let name := String.ofList (s.takeWhile (· ≠ '='))
    match s.dropWhile (· ≠ '=') with
    | [] => .long name none
    | _ :: v => .long name (some (String.ofList v))
  | ['-'] => .plain
  | '-' :: s => .short s
  | _ => .plain

/-- The argument is a name, or a value. -/
def isPlain (a : String) : Bool :=
  match shape a with
  | .plain => true
  | _ => false

/-- Read the arguments of a level up to the name of a command: what was given,
    that name, and the arguments behind it.  Only the first level has commands. -/
def Level.read (l : Level) (commands : List String) (g : Given) :
    List String → Except Stop (Given × Option (String × List String))
  | [] => .ok (g, none)
  | a :: as =>
    match shape a with
    | .dashes => (l.names g as).map fun g' => (g', none)
    | .short cs =>
      match l.letters g cs with
      | .error e => .error e
      | .ok g' => l.read commands g' as
    | .long name v =>
      match l.flag? name, l.parameter? name, v with
      | some f, _, none =>
        match g.flag f with
        | .error e => .error e
        | .ok g' => l.read commands g' as
      | none, some p, some v =>
        match g.value p v with
        | .error e => .error e
        | .ok g' => l.read commands g' as
      | none, some p, none =>
        match as with
        | [] => .error .misuse
        | v :: as' =>
          if isPlain v then
            match g.value p v with
            | .error e => .error e
            | .ok g' => l.read commands g' as'
          else .error .misuse
      | _, _, _ => .error .misuse
    | .plain =>
      if a ∈ commands then .ok (g, some (a, as))
      else
        match l.names g [a] with
        | .error e => .error e
        | .ok g' => l.read commands g' as

end SignGloss.Command
