/-
  Catalogs.

  * a `Catalog` holds lexemes by their identifiers, the links of each sign, rules
    and inflected forms;
  * an `Edit` adds one item.  It is refused, with a `Problem`, if it would give
    two lexemes or two rules one identifier or link a sign to no lexeme;
  * `Catalog.senses`, `activeRules` and the forms answer the queries of an
    interpretation (`Catalog.sources`): senses and rules in order of priority,
    and for a sign without links the fallback sense;
  * a `Document` lists the contents of a catalog.  It stands for the sequence of
    edits that adds all lexemes, then all links, rules and forms, to the catalog
    with nothing but the Spanish forms.
-/
import SignGloss.Conjugation
import SignGloss.Interpretation

namespace SignGloss

/-- The tables that interpretations are made from. -/
structure Catalog where
  lexemes : Table UInt32 Lexeme
  links : Table String (List Link)
  rules : List Rule
  forms : Conjugation

/-- Why an item cannot be added. -/
inductive Problem where
  | duplicateLexeme (id : UInt32)
  | duplicateRule (id : UInt32)
  | unknownLexeme (sign : String) (id : UInt32)
deriving Repr, DecidableEq

/-- The problem as told to the author of a catalog. -/
def Problem.message : Problem → String
  | duplicateLexeme id => "duplicate lexeme id " ++ toString id
  | duplicateRule id => "duplicate rule id " ++ toString id
  | unknownLexeme sign id => "sign '" ++ sign ++ "' links to unknown lexeme " ++ toString id

/-- An item to add. -/
inductive Edit where
  | lexeme (l : Lexeme)
  | link (l : Link)
  | rule (r : Rule)
  | form (f : Form)
deriving Repr, DecidableEq

namespace Catalog

/-- The catalog with nothing in it. -/
def empty : Catalog := ⟨.empty, .empty, [], .empty⟩

/-! ## Edits -/

/-- The links of a sign, in the order in which they were added. -/
def linksOf (c : Catalog) (sign : String) : List Link := (c.links.get? sign).getD []

/-- Put an item into the catalog.  An edit changes the catalog in place, so that a
    refused one might leave something behind. -/
def edit : Edit → EStateM Problem Catalog Unit
  | .lexeme l => do
    match (← get).lexemes.get? l.id with
    | some _ => throw (.duplicateLexeme l.id)
    | none => modify fun c => { c with lexemes := c.lexemes.put l.id l }
  | .link l => do
    match (← get).lexemes.get? l.lexeme with
    | none => throw (.unknownLexeme l.sign l.lexeme)
    | some _ => modify fun c => { c with links := c.links.put l.sign (c.linksOf l.sign ++ [l]) }
  | .rule r => do
    if (← get).rules.any (·.id == r.id) then throw (.duplicateRule r.id)
    else modify fun c => { c with rules := c.rules ++ [r] }
  | .form f => modify fun c => { c with forms := c.forms.add f }

/-- The catalog with one more item. -/
def add (c : Catalog) (e : Edit) : Except Problem Catalog :=
  match (edit e).run c with
  | .ok _ c' => .ok c'
  | .error p _ => .error p

/-- The catalog with more items, in order, unless one is refused. -/
def addAll (c : Catalog) (es : List Edit) : Except Problem Catalog := es.foldlM add c

/-- What an attempt to add an item leaves, whether the item is refused or not. -/
def attempt (c : Catalog) (e : Edit) : Catalog :=
  match (edit e).run c with
  | .ok _ c' => c'
  | .error _ c' => c'

/-! ## Queries -/

/-- The senses of a sign, the most likely first; there is always one. -/
def senses (c : Catalog) (sign : String) : List Sense :=
  let linked := (sortByPriority Link.priority (c.linksOf sign)).filterMap fun l =>
    (c.lexemes.get? l.lexeme).map Lexeme.sense
  if linked.isEmpty then [.fallback sign] else linked

/-- The active rules for a locale in order of priority. -/
def activeRules (c : Catalog) (locale : String) : List Rule :=
  SignGloss.activeRules c.rules locale

/-- The catalog as a source for interpretations.  It never fails. -/
def sources (c : Catalog) : Sources where
  senses sign := .ok (c.senses sign)
  rules locale := .ok (c.activeRules locale)
  form gloss code person := .ok (c.forms.find? gloss code person)

/-- The answer to a request from a catalog. -/
def interpret (c : Catalog) (req : Request) : Except LookupFailure Interpretation :=
  (SignGloss.interpret c.sources req).result

end Catalog

/-! ## Documents -/

/-- The contents of a catalog. -/
structure Document where
  lexemes : List Lexeme := []
  links : List Link := []
  rules : List Rule := []
  forms : List Form := []
deriving Repr, DecidableEq

/-- The edits that a document stands for. -/
def Document.edits (d : Document) : List Edit :=
  d.lexemes.map .lexeme ++ d.links.map .link ++ d.rules.map .rule ++ d.forms.map .form

/-- The catalog with nothing but the Spanish forms. -/
def Catalog.spanish : Catalog := { Catalog.empty with forms := .spanish }

/-- The catalog of a document. -/
def Catalog.ofDocument (d : Document) : Except Problem Catalog := spanish.addAll d.edits

end SignGloss
