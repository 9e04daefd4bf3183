/-
  Command lines, and what they say about the report only.

  * `Level.Reads`: the arguments that a level takes, one constructor for each form
    of an argument, with what is given and what is left for a command
    (`Level.read_eq_ok_iff`);
  * an `Omission` names flags and parameters to leave out of the arguments, wherever
    they stand, and out of what is given (`Omission.arguments`, `Omission.given`).
    A level takes the other arguments by themselves (`Level.Reads.omit`);
  * `bare args`: the arguments without `--json`, `--verbose`, `--quiet` and
    `--color`;
  * `Invocation.bare`: the same task, not verbose and not as JSON.

  Main statement: a command line without these arguments asks for the same,
  reported otherwise (`Invocation.read_bare`).
-/
import SignGloss.Command.Invocation

namespace SignGloss.Command

variable {l : Level} {commands args : List String} {g g' : Given} {name v : String} {f : Flag}
  {p : Parameter} {r : Option (String × List String)}

/-! ## The arguments of a level -/

/-- The level takes the arguments. -/
inductive Level.Reads (l : Level) (commands : List String) :
    Given → List String → Given → Option (String × List String) → Prop
  | nil (g : Given) : Reads l commands g [] g none
  | dashes {g g' : Given} {a : String} {as : List String} :
      shape a = .dashes → l.names g as = .ok g' → Reads l commands g (a :: as) g' none
  | letters {g g₁ g' : Given} {a : String} {as : List String} {cs : List Char}
      {r : Option (String × List String)} :
      shape a = .short cs → l.letters g cs = .ok g₁ → Reads l commands g₁ as g' r →
      Reads l commands g (a :: as) g' r
  | flag {g g₁ g' : Given} {a name : String} {as : List String} {f : Flag}
      {r : Option (String × List String)} :
      shape a = .long name none → l.flag? name = some f → g.flag f = .ok g₁ →
      Reads l commands g₁ as g' r → Reads l commands g (a :: as) g' r
  | joined {g g₁ g' : Given} {a name v : String} {as : List String} {p : Parameter}
      {r : Option (String × List String)} :
      shape a = .long name (some v) → l.flag? name = none → l.parameter? name = some p →
      g.value p v = .ok g₁ → Reads l commands g₁ as g' r → Reads l commands g (a :: as) g' r
  | spaced {g g₁ g' : Given} {a name v : String} {as : List String} {p : Parameter}
      {r : Option (String × List String)} :
      shape a = .long name none → l.flag? name = none → l.parameter? name = some p →
      isPlain v = true → g.value p v = .ok g₁ → Reads l commands g₁ as g' r →
      Reads l commands g (a :: v :: as) g' r
  | command {g : Given} {a : String} {as : List String} :
      shape a = .plain → a ∈ commands → Reads l commands g (a :: as) g (some (a, as))
  | name {g g₁ g' : Given} {a : String} {as : List String} {r : Option (String × List String)} :
      shape a = .plain → a ∉ commands → l.names g [a] = .ok g₁ → Reads l commands g₁ as g' r →
      Reads l commands g (a :: as) g' r

theorem Level.Reads.read_eq (h : l.Reads commands g args g' r) :
    l.read commands g args = .ok (g', r) := by
  induction h with
  | nil g => rfl
  | dashes ha hn => simp [Level.read, ha, hn, Except.map]
  | letters ha hl _ ih => simp [Level.read, ha, hl, ih]
  | flag ha hf hg _ ih => simp [Level.read, ha, hf, hg, ih]
  | joined ha hf hp hv _ ih => simp [Level.read, ha, hf, hp, hv, ih]
  | spaced ha hf hp hplain hv _ ih => simp [Level.read, ha, hf, hp, hplain, hv, ih]
  | command ha hc => simp [Level.read, ha, hc]
  | name ha hc hn _ ih => simp [Level.read, ha, hc, hn, ih]

theorem Level.reads_of_read (h : l.read commands g args = .ok (g', r)) :
    l.Reads commands g args g' r := by
  fun_induction Level.read l commands g args with
  | case1 =>
    cases h
    exact .nil g'
  | case2 g a as ha =>
    cases hn : l.names g as with
    | error e =>
      rw [hn] at h
      cases h
    | ok g₁ =>
      rw [hn] at h
      cases h
      exact .dashes ha hn
  | case3 | case5 | case7 | case9 | case10 | case12 | case13 | case15 => cases h
  | case4 g a as cs ha g₁ hl ih => exact .letters ha hl (ih h)
  | case6 g a as name f hf g₁ hg ha ih => exact .flag ha hf hg (ih h)
  | case8 g a as name p v hp hf g₁ hv ha ih => exact .joined ha hf hp hv (ih h)
  | case11 g a name p hp hf v as hplain g₁ hv ha ih => exact .spaced ha hf hp hplain hv (ih h)
  | case14 g a as ha hc =>
    cases h
    exact .command ha hc
  | case16 g a as ha hc g₁ hn ih => exact .name ha hc hn (ih h)

theorem Level.read_eq_ok_iff :
    l.read commands g args = .ok (g', r) ↔ l.Reads commands g args g' r :=
  ⟨reads_of_read, Reads.read_eq⟩

/-! ## Leaving arguments out -/

/-- Flags and parameters to leave out.  Those flags that have letters go together, so
    that the letters behind a dash need not be taken apart. -/
structure Omission where
  flags : List Flag
  parameters : List Parameter
  together : .verbose ∈ flags ↔ .quiet ∈ flags

namespace Omission

/-- The name is that of a flag to leave out. -/
def hasFlag (o : Omission) (name : String) : Bool := o.flags.any fun f => f.name = name

/-- The name is that of a parameter to leave out. -/
def hasParameter (o : Omission) (name : String) : Bool := o.parameters.any fun p => p.name = name

/-- The letter is that of a flag to leave out. -/
def hasLetter (o : Omission) (c : Char) : Bool := o.flags.any fun f => f.letter? = some c

/-- The letters are those of flags to leave out. -/
def hasLetters (o : Omission) (cs : List Char) : Bool := cs.all o.hasLetter

/-- The other arguments, from the start of an argument or from a value to leave out.
    What follows `--` stays as it is. -/
def argumentsFrom (o : Omission) (atValue : Bool) : List String → List String
  | [] => []
  | a :: as =>
    if atValue then o.argumentsFrom false as
    else match shape a with
      | .dashes => a :: as
      | .short cs =>
        if o.hasLetters cs then o.argumentsFrom false as else a :: o.argumentsFrom false as
      | .long name none =>
        if o.hasFlag name then o.argumentsFrom false as
        else if o.hasParameter name then o.argumentsFrom true as
        else a :: o.argumentsFrom false as
      | .long name (some _) =>
        if o.hasParameter name then o.argumentsFrom false as else a :: o.argumentsFrom false as
      | .plain => a :: o.argumentsFrom false as

/-- The other arguments. -/
def arguments (o : Omission) (args : List String) : List String := o.argumentsFrom false args

/-- What else is given. -/
def given (o : Omission) (g : Given) : Given where
  flags := g.flags.filter (· ∉ o.flags)
  values := g.values.filter (·.1 ∉ o.parameters)
  names := g.names

end Omission

section
variable {o : Omission} {vars : Variables} {verb : Verb} {g₁ : Given} {cs : List Char}

theorem Flag.name_injective {f f' : Flag} (h : f.name = f'.name) : f = f' := by
  cases f <;> cases f' <;> first | rfl | exact absurd h (by decide)

theorem Parameter.name_injective {p p' : Parameter} (h : p.name = p'.name) : p = p' := by
  cases p <;> cases p' <;> first | rfl | exact absurd h (by decide)

/-- No parameter has the name of a flag. -/
theorem Parameter.name_ne (p : Parameter) (f : Flag) : f.name ≠ p.name := by
  cases p <;> cases f <;> decide

theorem Level.name_of_flag? (h : l.flag? name = some f) : f.name = name := by
  simpa using List.find?_some h

theorem Level.name_of_parameter? (h : l.parameter? name = some p) : p.name = name := by
  simpa using List.find?_some h

namespace Omission

theorem hasFlag_name : o.hasFlag f.name = decide (f ∈ o.flags) := by
  rw [Bool.eq_iff_iff, hasFlag, List.any_eq_true, decide_eq_true_iff]
  constructor
  · rintro ⟨f', hf', hname⟩
    rwa [← Flag.name_injective (of_decide_eq_true hname)]
  · exact fun hf => ⟨f, hf, decide_eq_true rfl⟩

theorem hasParameter_name : o.hasParameter p.name = decide (p ∈ o.parameters) := by
  rw [Bool.eq_iff_iff, hasParameter, List.any_eq_true, decide_eq_true_iff]
  constructor
  · rintro ⟨p', hp', hname⟩
    rwa [← Parameter.name_injective (of_decide_eq_true hname)]
  · exact fun hp => ⟨p, hp, decide_eq_true rfl⟩

theorem hasFlag_parameter (o : Omission) (p : Parameter) : o.hasFlag p.name = false := by
  rw [hasFlag, List.any_eq_false]
  exact fun f _ hf => p.name_ne f (of_decide_eq_true hf)

theorem hasParameter_flag (o : Omission) (f : Flag) : o.hasParameter f.name = false := by
  rw [hasParameter, List.any_eq_false]
  exact fun p _ hp => p.name_ne f (of_decide_eq_true hp).symm

theorem has_given (f : Flag) : (o.given g).has f = (g.has f && f ∉ o.flags) := by
  simp [Given.has, given]

theorem names_given : (o.given g).names = g.names := rfl

theorem value?_given (h : p ∉ o.parameters) : (o.given g).value? p = g.value? p := by
  unfold Given.value? given
  rw [List.find?_filter]
  congr 2
  funext q
  by_cases hq : q.1 = p
  · simp [hq, h]
  · simp [hq]

theorem value?_given_eq_none (h : p ∈ o.parameters) : (o.given g).value? p = none := by
  rw [Given.value?, Option.map_eq_none_iff, List.find?_eq_none]
  intro q hq hqp
  rw [← of_decide_eq_true hqp] at h
  exact of_decide_eq_true (List.mem_filter.1 hq).2 h

end Omission

namespace Given

/-! ### One more argument -/

theorem flag_eq_ok_iff : g.flag f = .ok g₁ ↔
    f ≠ .help ∧ f ≠ .version ∧ f ∉ g.flags ∧ g₁ = { g with flags := f :: g.flags } := by
  cases f with
  | help | version => simp [flag]
  | verbose | quiet | json | strict =>
    simp only [flag]
    split <;> simp [*, eq_comm]

theorem value_eq_ok_iff : g.value p v = .ok g₁ ↔
    p ∉ g.values.map Prod.fst ∧ p.accepts v = true ∧
      g₁ = { g with values := (p, v) :: g.values } := by
  unfold value
  split
  · rename_i hbad
    simp only [reduceCtorEq, false_iff]
    rintro ⟨hnew, haccepts, -⟩
    rcases hbad with hold | hno
    · exact hnew hold
    · rw [haccepts] at hno
      cases hno
  · rename_i hgood
    rw [not_or, Bool.not_eq_false] at hgood
    simp only [hgood, not_false_eq_true, true_and, Except.ok.injEq]
    exact eq_comm

end Given

namespace Omission

/-- A flag stays, or it leaves no trace. -/
theorem flag_given (h : g.flag f = .ok g₁) :
    (f ∈ o.flags ∧ o.given g₁ = o.given g) ∨
      (f ∉ o.flags ∧ (o.given g).flag f = .ok (o.given g₁)) := by
  obtain ⟨hhelp, hversion, hnew, rfl⟩ := Given.flag_eq_ok_iff.1 h
  by_cases hf : f ∈ o.flags
  · exact Or.inl ⟨hf, by simp [given, hf]⟩
  · refine Or.inr ⟨hf, Given.flag_eq_ok_iff.2 ⟨hhelp, hversion, ?_, by simp [given, hf]⟩⟩
    exact fun hmem => hnew (List.mem_filter.1 hmem).1

/-- A value stays, or it leaves no trace. -/
theorem value_given (h : g.value p v = .ok g₁) :
    (p ∈ o.parameters ∧ o.given g₁ = o.given g) ∨
      (p ∉ o.parameters ∧ (o.given g).value p v = .ok (o.given g₁)) := by
  obtain ⟨hnew, haccepts, rfl⟩ := Given.value_eq_ok_iff.1 h
  by_cases hp : p ∈ o.parameters
  · exact Or.inl ⟨hp, by simp [given, hp]⟩
  · refine Or.inr ⟨hp, Given.value_eq_ok_iff.2 ⟨fun hmem => hnew ?_, haccepts, by simp [given, hp]⟩⟩
    obtain ⟨q, hq, rfl⟩ := List.mem_map.1 hmem
    exact List.mem_map_of_mem (List.mem_filter.1 hq).1

theorem names_eq_ok {ns : List String} (h : l.names g ns = .ok g₁) :
    l.names (o.given g) ns = .ok (o.given g₁) := by
  unfold Level.names at h ⊢
  split at h
  · rename_i hns
    cases h
    rw [if_pos hns]
    rfl
  · cases h

/-- A letter that stops nothing belongs to one of the flags that go together. -/
theorem of_letter {c : Char} (hf : l.byLetter? c = some f) (hg : g.flag f = .ok g₁) :
    (f ∈ o.flags ↔ .verbose ∈ o.flags) ∧ o.hasLetter c = decide (.verbose ∈ o.flags) := by
  have hletter : f.letter? = some c := by simpa using List.find?_some hf
  obtain ⟨hhelp, hversion, -, -⟩ := Given.flag_eq_ok_iff.1 hg
  have hunique : (∀ f' : Flag, f'.letter? = some c → f' = f) ∧
      (f ∈ o.flags ↔ .verbose ∈ o.flags) := by
    cases f with
    | help => exact absurd rfl hhelp
    | version => exact absurd rfl hversion
    | json | strict => cases hletter
    | verbose =>
      cases hletter
      exact ⟨fun f' => by cases f' <;> decide, Iff.rfl⟩
    | quiet =>
      cases hletter
      exact ⟨fun f' => by cases f' <;> decide, o.together.symm⟩
  refine ⟨hunique.2, ?_⟩
  rw [Bool.eq_iff_iff, hasLetter, List.any_eq_true, decide_eq_true_iff, ← hunique.2]
  constructor
  · rintro ⟨f', hf', hc⟩
    rwa [← hunique.1 f' (of_decide_eq_true hc)]
  · exact fun hf => ⟨f, hf, decide_eq_true hletter⟩

/-- Letters that stop nothing leave no trace where their flags are left out. -/
theorem letters_omitted (hv : .verbose ∈ o.flags) (h : l.letters g cs = .ok g₁) :
    o.hasLetters cs = true ∧ o.given g₁ = o.given g := by
  fun_induction Level.letters l g cs with
  | case1 =>
    cases h
    exact ⟨rfl, rfl⟩
  | case2 | case3 => cases h
  | case4 g c cs f hf g' hg ih =>
    obtain ⟨hall, heq⟩ := ih h
    obtain ⟨hflag, hletter⟩ := of_letter (o := o) hf hg
    rcases flag_given (o := o) hg with ⟨-, hgiven⟩ | ⟨hno, -⟩
    · exact ⟨by rw [hasLetters, List.all_cons, hletter, decide_eq_true hv]; exact hall,
        heq.trans hgiven⟩
    · exact absurd (hflag.2 hv) hno

/-- Letters that stop nothing stay where their flags do. -/
theorem letters_kept (hv : .verbose ∉ o.flags) (h : l.letters g cs = .ok g₁) :
    (cs ≠ [] → o.hasLetters cs = false) ∧ l.letters (o.given g) cs = .ok (o.given g₁) := by
  fun_induction Level.letters l g cs with
  | case1 =>
    cases h
    exact ⟨fun hne => absurd rfl hne, rfl⟩
  | case2 | case3 => cases h
  | case4 g c cs f hf g' hg ih =>
    obtain ⟨hflag, hletter⟩ := of_letter (o := o) hf hg
    rcases flag_given (o := o) hg with ⟨hyes, -⟩ | ⟨-, hgiven⟩
    · exact absurd (hflag.1 hyes) hv
    · refine ⟨fun _ => ?_, ?_⟩
      · rw [hasLetters, List.all_cons, hletter, decide_eq_false hv, Bool.false_and]
      · simp only [Level.letters, hf, hgiven]
        exact (ih h).2

/-- Letters that stop nothing are all left out, or all of them stay. -/
theorem letters_given (h : l.letters g cs = .ok g₁) :
    (o.hasLetters cs = true ∧ o.given g₁ = o.given g) ∨
      (o.hasLetters cs = false ∧ l.letters (o.given g) cs = .ok (o.given g₁)) := by
  by_cases hv : .verbose ∈ o.flags
  · exact Or.inl (letters_omitted hv h)
  · cases cs with
    | nil =>
      cases h
      exact Or.inl ⟨rfl, rfl⟩
    | cons c cs =>
      obtain ⟨hno, hkept⟩ := letters_kept hv h
      exact Or.inr ⟨hno (List.cons_ne_nil c cs), hkept⟩

end Omission

/-! ### All arguments -/

/-- A level takes the other arguments by themselves. -/
theorem Level.Reads.omit (o : Omission) (h : l.Reads commands g args g' r) :
    l.Reads commands (o.given g) (o.arguments args) (o.given g')
      (r.map fun command => (command.1, o.arguments command.2)) := by
  induction h with
  | nil g => exact .nil _
  | dashes ha hn =>
    simp only [Omission.arguments, Omission.argumentsFrom, Bool.false_eq_true, if_false, ha]
    exact .dashes ha (Omission.names_eq_ok hn)
  | letters ha hl _ ih =>
    simp only [Omission.arguments, Omission.argumentsFrom, Bool.false_eq_true, if_false, ha]
    rcases Omission.letters_given (o := o) hl with ⟨hcs, heq⟩ | ⟨hcs, hl⟩
    · rw [if_pos hcs]
      rwa [heq] at ih
    · rw [if_neg (by simp [hcs])]
      exact .letters ha hl ih
  | @flag _ _ _ _ name _ f _ ha hf hg _ ih =>
    have hname := name_of_flag? hf
    subst hname
    simp only [Omission.arguments, Omission.argumentsFrom, Bool.false_eq_true, if_false, ha,
      Omission.hasFlag_name, Omission.hasParameter_flag, decide_eq_true_iff]
    rcases Omission.flag_given (o := o) hg with ⟨hc, heq⟩ | ⟨hc, hg⟩
    · rw [if_pos hc]
      rwa [heq] at ih
    · rw [if_neg hc]
      exact .flag ha hf hg ih
  | @joined _ _ _ _ name _ _ p _ ha hf hp hv _ ih =>
    have hname := name_of_parameter? hp
    subst hname
    simp only [Omission.arguments, Omission.argumentsFrom, Bool.false_eq_true, if_false, ha,
      Omission.hasParameter_name, decide_eq_true_iff]
    rcases Omission.value_given (o := o) hv with ⟨hc, heq⟩ | ⟨hc, hv⟩
    · rw [if_pos hc]
      rwa [heq] at ih
    · rw [if_neg hc]
      exact .joined ha hf hp hv ih
  | @spaced _ _ _ _ name v as p _ ha hf hp hplain hv _ ih =>
    have hname := name_of_parameter? hp
    subst hname
    simp only [Omission.arguments, Omission.argumentsFrom, Bool.false_eq_true, if_false, ha,
      Omission.hasFlag_parameter, Omission.hasParameter_name, decide_eq_true_iff]
    rcases Omission.value_given (o := o) hv with ⟨hc, heq⟩ | ⟨hc, hv⟩
    · rw [if_pos hc]
      simp only [if_true]
      rwa [heq] at ih
    · have hshape : shape v = .plain := by
        unfold isPlain at hplain
        split at hplain
        · assumption
        · cases hplain
      rw [if_neg hc]
      simp only [hshape]
      exact .spaced ha hf hp hplain hv ih
  | command ha hc =>
    simp only [Omission.arguments, Omission.argumentsFrom, Bool.false_eq_true, if_false, ha]
    exact .command ha hc
  | name ha hc hn _ ih =>
    simp only [Omission.arguments, Omission.argumentsFrom, Bool.false_eq_true, if_false, ha]
    exact .name ha hc (Omission.names_eq_ok hn) ih

/-! ## Whole command lines -/

theorem exists_of_bind_eq_ok {ε α β : Type} {x : Except ε α} {f : α → Except ε β} {b : β}
    (h : x >>= f = .ok b) : ∃ a, x = .ok a ∧ f a = .ok b := by
  cases x with
  | error e => cases h
  | ok a => exact ⟨a, rfl, h⟩

/-- What a command line that is taken says. -/
theorem Invocation.read_eq_ok_iff {i : Invocation} : Invocation.read vars args = .ok i ↔
    ∃ g verb rest g' r task,
      outer.Reads (helpName :: Verb.all.map Verb.name) {} args g (some (verb.name, rest)) ∧
      (inner verb).Reads [] {} rest g' r ∧ g'.task verb = .ok task ∧
      g.coherent vars = true ∧ g'.coherent vars = true ∧ i = ⟨.of vars g g', task⟩ := by
  constructor
  · intro h
    obtain ⟨⟨g, command⟩, hout, h⟩ := exists_of_bind_eq_ok h
    rcases command with _ | ⟨name, rest⟩
    · cases h
    · cases hverb : Verb.all.find? fun v => v.name = name with
      | none =>
        simp only [hverb] at h
        cases h
      | some verb =>
        simp only [hverb] at h
        obtain rfl : verb.name = name := by simpa using List.find?_some hverb
        obtain ⟨⟨g', r⟩, hin, h⟩ := exists_of_bind_eq_ok h
        obtain ⟨task, htask, h⟩ := exists_of_bind_eq_ok h
        split at h
        · rename_i hg
          rw [Bool.and_eq_true] at hg
          cases h
          exact ⟨g, verb, rest, g', r, task, Level.reads_of_read hout, Level.reads_of_read hin,
            htask, hg.1, hg.2, rfl⟩
        · cases h
  · rintro ⟨g, verb, rest, g', r, task, hout, hin, htask, hg, hg', rfl⟩
    have hverb : (Verb.all.find? fun v => v.name = verb.name) = some verb := by
      cases verb <;> decide
    simp [Invocation.read, hout.read_eq, hverb, hin.read_eq, htask, hg, hg', bind, Except.bind]

namespace Omission

/-- The task without the flags to leave out. -/
def task (o : Omission) : Task → Task
  | .interpret origin json => .interpret origin (json && .json ∉ o.flags)
  | .lookup signs json => .lookup signs (json && .json ∉ o.flags)
  | .rules json => .rules (json && .json ∉ o.flags)
  | .check json strict => .check (json && .json ∉ o.flags) (strict && .strict ∉ o.flags)

/-- The settings without what is to leave out.  The variable stands for a locale that
    is left out. -/
def settings (o : Omission) (vars : Variables) (s : Settings) : Settings where
  catalog := s.catalog
  locale := if .locale ∈ o.parameters then vars.locale.getD defaultLocale else s.locale
  verbose := s.verbose && .verbose ∉ o.flags

theorem coherent_given (hc : .catalog ∉ o.parameters) (h : g.coherent vars = true) :
    (o.given g).coherent vars = true := by
  rw [Given.coherent, Bool.and_eq_true] at h ⊢
  rw [value?_given hc]
  refine ⟨?_, h.2⟩
  cases hv : g.has .verbose with
  | false => simp [has_given, hv]
  | true =>
    have hq : g.has .quiet = false := by simpa [hv] using h.1
    simp [has_given, hq]

theorem settings_given (hc : .catalog ∉ o.parameters) :
    Settings.of vars (o.given g) (o.given g') = o.settings vars (.of vars g g') := by
  rw [Settings.of, settings, Settings.mk.injEq]
  refine ⟨?_, ?_, ?_⟩
  · simp [Settings.of, value?_given hc]
  · by_cases hl : .locale ∈ o.parameters
    · simp [hl, value?_given_eq_none]
    · simp [Settings.of, hl, value?_given]
  · simp [Settings.of, has_given, Bool.and_or_distrib_right]

theorem task_given {task : Task} (hr : .request ∉ o.parameters) (h : g.task verb = .ok task) :
    (o.given g).task verb = .ok (o.task task) := by
  have horigin : (o.given g).origin = g.origin := by
    rw [Given.origin, Given.origin, value?_given hr]
    rfl
  cases verb with
  | interpret =>
    rw [Given.task] at h ⊢
    rw [horigin]
    cases ho : g.origin with
    | error e =>
      rw [ho] at h
      cases h
    | ok origin =>
      rw [ho] at h
      cases h
      simp only [Except.map, task, has_given]
  | lookup =>
    rw [Given.task] at h ⊢
    rw [names_given]
    split at h
    · cases h
    · rename_i hnames
      cases h
      rw [if_neg hnames]
      simp only [task, has_given]
  | rules | check =>
    cases h
    simp only [Given.task, task, has_given]

end Omission

/-- **Without some arguments** a command line asks for the same, but for what they
    say. -/
theorem Invocation.read_omit {i : Invocation} (hc : .catalog ∉ o.parameters)
    (hr : .request ∉ o.parameters) (h : Invocation.read vars args = .ok i) :
    Invocation.read vars (o.arguments args) = .ok ⟨o.settings vars i.settings, o.task i.task⟩ := by
  obtain ⟨g, verb, rest, g', r, task, hout, hin, htask, hg, hg', rfl⟩ := read_eq_ok_iff.1 h
  refine read_eq_ok_iff.2 ⟨o.given g, verb, _, o.given g', _, _, hout.omit o, hin.omit o,
    o.task_given hr htask, o.coherent_given hc hg, o.coherent_given hc hg', ?_⟩
  rw [o.settings_given hc]

end

/-! ## Arguments that concern the report only -/

/-- The letter is that of a flag that concerns the report only. -/
def isCosmeticLetter (c : Char) : Bool := c = 'v' ∨ c = 'q'

/-- The name is that of a flag that concerns the report only. -/
def isCosmeticName (name : String) : Bool := name = "verbose" ∨ name = "quiet" ∨ name = "json"

/-- The arguments without those that concern the report only, from the start of an
    argument or from the value of `--color`.  What follows `--` stays as it is. -/
def bareFrom (atValue : Bool) : List String → List String
  | [] => []
  | a :: as =>
    if atValue then bareFrom false as
    else match shape a with
      | .dashes => a :: as
      | .short cs => if cs.all isCosmeticLetter then bareFrom false as else a :: bareFrom false as
      | .long name none =>
        if isCosmeticName name then bareFrom false as
        else if name = Parameter.color.name then bareFrom true as
        else a :: bareFrom false as
      | .long name (some _) =>
        if name = Parameter.color.name then bareFrom false as else a :: bareFrom false as
      | .plain => a :: bareFrom false as

/-- The arguments without those that concern the report only. -/
def bare (args : List String) : List String := bareFrom false args

/-- The flags and parameters that concern the report only. -/
def Omission.cosmetic : Omission := ⟨[.verbose, .quiet, .json], [.color], by decide⟩

theorem bareFrom_eq (atValue : Bool) (args : List String) :
    bareFrom atValue args = Omission.cosmetic.argumentsFrom atValue args := by
  have hletters : ∀ cs : List Char, cs.all isCosmeticLetter = Omission.cosmetic.hasLetters cs := by
    intro cs
    rw [Omission.hasLetters]
    congr 1
    funext c
    simp [isCosmeticLetter, Omission.hasLetter, Omission.cosmetic, Flag.letter?, eq_comm]
  have hflag : ∀ name, isCosmeticName name = Omission.cosmetic.hasFlag name := fun name => by
    simp [isCosmeticName, Omission.hasFlag, Omission.cosmetic, Flag.name, eq_comm]
  have hparameter : ∀ name, decide (name = Parameter.color.name) =
      Omission.cosmetic.hasParameter name := fun name => by
    simp [Omission.hasParameter, Omission.cosmetic, eq_comm]
  induction args generalizing atValue with
  | nil => rfl
  | cons a as ih =>
    rw [bareFrom, Omission.argumentsFrom]
    simp only [ih, hletters, hflag, ← hparameter, decide_eq_true_iff]

/-- The task, reported as text. -/
def Task.bare : Task → Task
  | interpret o _ => interpret o false
  | lookup signs _ => lookup signs false
  | rules _ => rules false
  | check _ strict => check false strict

/-- The same command, reported as text and without details. -/
def Invocation.bare (i : Invocation) : Invocation where
  settings := { i.settings with verbose := false }
  task := i.task.bare

/-- **Without the arguments that concern the report only**, a command line asks for
    the same. -/
theorem Invocation.read_bare {vars : Variables} {i : Invocation}
    (h : Invocation.read vars args = .ok i) :
    Invocation.read vars (Command.bare args) = .ok i.bare := by
  have hsettings : Omission.cosmetic.settings vars i.settings = i.bare.settings := by
    simp [Omission.settings, Omission.cosmetic, bare]
  have htask : Omission.cosmetic.task i.task = i.bare.task := by
    cases hi : i.task <;> simp [Omission.task, Omission.cosmetic, bare, Task.bare, hi]
  rw [Command.bare, bareFrom_eq]
  rw [← Omission.arguments, read_omit (by decide) (by decide) h, hsettings, htask]

end SignGloss.Command
