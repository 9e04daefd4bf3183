/-
  Interpreting requests.

  The tokens are turned into words by the first sense of each sign, where signs
  without a sense are left out.  Then the first case that applies answers
  (`Outcome`):

  * no tokens: the empty text;
  * no words: the names of the signs;
  * one word: its plain form, with the confidence of its token;
  * a rule whose pattern is the sequence of parts of speech: its template,
    rendered;
  * otherwise: the plain forms of the words.

  Only a source that fails makes an interpretation fail.
-/
import SignGloss.Choice
import SignGloss.Render
import SignGloss.Request

namespace SignGloss

/-- The confidence in a text made by a rule. -/
def ruleConfidence : Single := .ofRatio false 8 10

/-- The confidence in words put together without a rule. -/
def joinedConfidence : Single := .ofRatio false 5 10

/-- The confidence in the names of signs. -/
def unresolvedConfidence : Single := .ofRatio false 0 1

/-- Which case has answered. -/
inductive Outcome where
  | empty
  | unresolved
  | singleSign
  | ruleMatch (rule : UInt32)
  | joined
deriving Repr, DecidableEq

/-- A response, the case that gave it, and the words it was made of. -/
structure Interpretation where
  response : Response
  outcome : Outcome
  words : List Word
deriving Repr, DecidableEq

/-! ## Interpretation -/

variable (src : Sources)

/-- The words of tokens. -/
def resolve : List Token → Consultation (List Word)
  | [] => pure []
  | t :: ts => do
    let senses ← .ask (.senses t.sign) (src.senses t.sign)
    let ws ← resolve ts
    match senses with
    | [] => pure ws
    | s :: _ => pure (⟨t.sign, s, t.confidence⟩ :: ws)

/-- The plain forms of words with spaces between them. -/
def joinedText (ws : List Word) : String := " ".intercalate (ws.map Word.plain)

/-- The answer for at least two words. -/
def interpretWords (locale : String) (ws : List Word) : Consultation Interpretation := do
  let rules ← .ask (.rules locale) (src.rules locale)
  match selectRule? rules (ws.map Word.tag) with
  | some r => do
    let text ← render src.form ws (Template.parse r.template)
    pure ⟨{ text, confidence := ruleConfidence }, .ruleMatch r.id, ws⟩
  | none => pure ⟨{ text := joinedText ws, confidence := joinedConfidence }, .joined, ws⟩

/-- The answer to a request. -/
def interpret (req : Request) : Consultation Interpretation :=
  match req.tokens with
  | [] => pure ⟨{ text := "", confidence := defaultConfidence }, .empty, []⟩
  | tokens => do
    let ws ← resolve src tokens
    match ws with
    | [] =>
      let names := " ".intercalate (tokens.map Token.sign)
      pure ⟨{ text := names, confidence := unresolvedConfidence }, .unresolved, []⟩
    | [w] => pure ⟨{ text := w.plain, confidence := w.confidence }, .singleSign, [w]⟩
    | ws => interpretWords src req.locale ws

end SignGloss
