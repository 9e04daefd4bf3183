/-
  Requests, responses and catalogs as JSON.

  Each type has a codec of its own, by which its fields have the names that
  recognizers, readers and authors of catalogs use.  Members that may be left out
  stand for the defaults of the types, and the titles of records occur in
  messages only.
-/
import SignGloss.Catalog
import SignGloss.Json.Record

namespace SignGloss

open Json

/-! ## Requests and responses -/

/-- Tokens. -/
def Token.codec : Codec Token :=
  .record "Token"
    (.required "signId" .text <| .required "tStart" .integer64 <| .required "tEnd" .integer64 <|
      .defaulted "conf" .single defaultConfidence .nil)
    Token.mk
    fun t => (t.sign, t.start, t.stop, t.confidence, ())

/-- Requests. -/
def Request.codec : Codec Request :=
  .record "InterpretRequest"
    (.required "tokens" (.list Token.codec) <| .defaulted "locale" .text defaultLocale .nil)
    Request.mk
    fun r => (r.tokens, r.locale, ())

/-- Responses. -/
def Response.codec : Codec Response :=
  .record "InterpretResponse"
    (.required "text" .text <| .defaulted "alt" (.list .text) [] <|
      .defaulted "confidence" .single defaultConfidence .nil)
    Response.mk
    fun r => (r.text, r.alternatives, r.confidence, ())

/-! ## Catalogs -/

/-- Parts of speech, by their names. -/
def Tag.codec : Codec Tag := Codec.text.map Tag.mk Tag.name

/-- Senses.  A spelling that is not there is not written. -/
def Sense.codec : Codec Sense :=
  .record "LexicalCandidate"
    (.required "gloss" .text <| .required "pos" Tag.codec <| .absent "surface" .text .nil)
    Sense.mk
    fun s => (s.gloss, s.tag, s.surface, ())

/-- Lexemes. -/
def Lexeme.codec : Codec Lexeme :=
  .record "Lexeme"
    (.required "id" .natural32 <| .required "gloss" .text <| .required "pos" Tag.codec <|
      .defaulted "surface" (.optional .text) none .nil)
    Lexeme.mk
    fun l => (l.id, l.gloss, l.tag, l.surface, ())

/-- Links of signs. -/
def Link.codec : Codec Link :=
  .record "SignLink"
    (.required "sign_id" .text <| .required "lexeme_id" .natural32 <|
      .defaulted "weight" .integer32 0 .nil)
    Link.mk
    fun l => (l.sign, l.lexeme, l.weight, ())

/-- Rules. -/
def Rule.codec : Codec Rule :=
  .record "GrammarRule"
    (.required "id" .natural32 <| .required "pattern" .text <| .required "template" .text <|
      .defaulted "locale" (.optional .text) none <| .defaulted "active" .boolean true <|
      .defaulted "weight" .integer32 0 .nil)
    Rule.mk
    fun r => (r.id, r.pattern, r.template, r.locale, r.active, r.weight, ())

/-- Rows of conjugation tables. -/
def Form.codec : Codec Form :=
  .record "ConjugationEntry"
    (.required "gloss" .text <| .required "conj" .text <|
      .defaulted "person" (.optional .natural8) none <| .required "surface" .text .nil)
    Form.mk
    fun f => (f.gloss, f.code, f.person, f.surface, ())

/-- Documents. -/
def Document.codec : Codec Document :=
  .record "CatalogDocument"
    (.defaulted "lexemes" (.list Lexeme.codec) [] <| .defaulted "signs" (.list Link.codec) [] <|
      .defaulted "rules" (.list Rule.codec) [] <|
      .defaulted "conjugations" (.list Form.codec) [] .nil)
    Document.mk
    fun d => (d.lexemes, d.links, d.rules, d.forms, ())

end SignGloss
