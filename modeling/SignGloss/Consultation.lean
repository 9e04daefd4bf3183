/-
  Consulting a lexicon, a rule book and a morphology.

  * `Sources` are the three services that an interpretation needs.  Each may
    fail, with a `LookupFailure`;
  * a `Consultation` is a computation that has asked the sources: it keeps the
    queries it has made, in order, and ends with a value or with the failure of
    its last query.  `ask` makes one query, and `>>=` goes on unless a query has
    failed.

  Main statements: `queries_bind_ok` and `queries_bind_error` say which queries a
  sequence makes.
-/
import SignGloss.Lexicon
import SignGloss.Rule

namespace SignGloss

/-- A query that was not answered, with the reason given. -/
inductive LookupFailure where
  | lexicon (sign reason : String)
  | rules (locale reason : String)
  | morphology (gloss reason : String)
deriving Repr, DecidableEq

/-- The failure as told to a user. -/
def LookupFailure.message : LookupFailure → String
  | lexicon sign reason => "lexicon lookup failed for sign '" ++ sign ++ "': " ++ reason
  | rules locale reason => "rule lookup failed for locale '" ++ locale ++ "': " ++ reason
  | morphology gloss reason => "morphology lookup failed for '" ++ gloss ++ "': " ++ reason

/-- A question to one of the sources. -/
inductive Query where
  /-- the senses of a sign -/
  | senses (sign : String)
  /-- the rules for a locale -/
  | rules (locale : String)
  /-- the form of a gloss for a conjugation code and a person -/
  | form (gloss code : String) (person : Option UInt8)
deriving Repr, DecidableEq

/-- A morphology knows some forms of some glosses. -/
abbrev Morphology := String → String → Option UInt8 → Except LookupFailure (Option String)

/-- What an interpretation consults. -/
structure Sources where
  /-- The senses of a sign, the most likely first. -/
  senses : String → Except LookupFailure (List Sense)
  /-- The rules for a locale, in the order in which they are tried. -/
  rules : String → Except LookupFailure (List Rule)
  /-- The inflected forms. -/
  form : Morphology

/-- The queries made so far, and the value or failure reached. -/
structure Consultation (α : Type) where
  queries : List Query
  result : Except LookupFailure α

namespace Consultation

variable {α β : Type}

/-- A value that needs no query. -/
def pure (a : α) : Consultation α := ⟨[], .ok a⟩

/-- Go on with the value, if there is one. -/
def bind (x : Consultation α) (f : α → Consultation β) : Consultation β :=
  match x.result with
  | .error e => ⟨x.queries, .error e⟩
  | .ok a => ⟨x.queries ++ (f a).queries, (f a).result⟩

instance : Monad Consultation where
  pure := Consultation.pure
  bind := Consultation.bind

/-- Make one query. -/
def ask (q : Query) (answer : Except LookupFailure α) : Consultation α := ⟨[q], answer⟩

@[simp] theorem pure_def (a : α) : (Pure.pure a : Consultation α) = ⟨[], .ok a⟩ := rfl

theorem bind_def (x : Consultation α) (f : α → Consultation β) : x >>= f = x.bind f := rfl

theorem queries_bind_ok {x : Consultation α} {f : α → Consultation β} {a : α}
    (h : x.result = .ok a) : (x >>= f).queries = x.queries ++ (f a).queries := by
  simp [bind_def, bind, h]

theorem result_bind_ok {x : Consultation α} {f : α → Consultation β} {a : α}
    (h : x.result = .ok a) : (x >>= f).result = (f a).result := by
  simp [bind_def, bind, h]

theorem queries_bind_error {x : Consultation α} {f : α → Consultation β} {e : LookupFailure}
    (h : x.result = .error e) : (x >>= f).queries = x.queries := by
  simp [bind_def, bind, h]

theorem result_bind_error {x : Consultation α} {f : α → Consultation β} {e : LookupFailure}
    (h : x.result = .error e) : (x >>= f).result = .error e := by
  simp [bind_def, bind, h]

end Consultation

end SignGloss
