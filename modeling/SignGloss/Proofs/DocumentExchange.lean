/-
  Documents are read as they were written.

  The codecs of documents and of what is in them restore every value: the fields of
  each record have different names, and each of them is restored.  A document that
  is written and read again therefore gives the same catalog, or the same problem
  behind a path.

  Main statement: `documents_survive`.
-/
import SignGloss.Loading
import SignGloss.Proofs.WrittenRecords

namespace SignGloss

open Json Fields

/-! ## Codecs of catalogs -/

theorem Tag.restores (t : Tag) : Tag.codec.Restores t := (Codec.restores_text t.name).map rfl

theorem Sense.restores (s : Sense) : Sense.codec.Restores s :=
  restores_record (by decide)
    (restores_required (Codec.restores_text _) <| restores_required s.tag.restores <|
      restores_absent (Codec.restores_optional_text _) restores_nil)
    rfl

theorem Lexeme.restores (l : Lexeme) : Lexeme.codec.Restores l :=
  restores_record (by decide)
    (restores_required (Codec.restores_natural32 _) <|
      restores_required (Codec.restores_text _) <| restores_required l.tag.restores <|
      restores_defaulted (Codec.restores_optional_text _) restores_nil)
    rfl

theorem Link.restores (l : Link) : Link.codec.Restores l :=
  restores_record (by decide)
    (restores_required (Codec.restores_text _) <|
      restores_required (Codec.restores_natural32 _) <|
      restores_defaulted (Codec.restores_integer32 _) restores_nil)
    rfl

theorem Rule.restores (r : Rule) : Rule.codec.Restores r :=
  restores_record (by decide)
    (restores_required (Codec.restores_natural32 _) <|
      restores_required (Codec.restores_text _) <| restores_required (Codec.restores_text _) <|
      restores_defaulted (Codec.restores_optional_text _) <|
      restores_defaulted (Codec.restores_boolean _) <|
      restores_defaulted (Codec.restores_integer32 _) restores_nil)
    rfl

theorem Form.restores (f : Form) : Form.codec.Restores f :=
  restores_record (by decide)
    (restores_required (Codec.restores_text _) <| restores_required (Codec.restores_text _) <|
      restores_defaulted (Codec.restores_optional_natural8 _) <|
      restores_required (Codec.restores_text _) restores_nil)
    rfl

theorem Document.restores (d : Document) : Document.codec.Restores d :=
  restores_record (by decide)
    (restores_defaulted (Codec.restores_list fun l _ => l.restores) <|
      restores_defaulted (Codec.restores_list fun l _ => l.restores) <|
      restores_defaulted (Codec.restores_list fun r _ => r.restores) <|
      restores_defaulted (Codec.restores_list fun f _ => f.restores) restores_nil)
    rfl

/-! ## Loading what was written -/

/-- The text of a document is loaded as the document. -/
theorem Catalog.ofText_encode (path : String) (d : Document) :
    ofText path (Document.codec.encode d) = (ofDocument d).mapError (.inconsistent path) := by
  rw [ofText, (Codec.lossless_of_restores Document.restores d).1]

/-- **Documents survive.**  A document is read as it was written, and so are rules,
    lexemes, links, conjugated forms and senses, on one line or over several.  Its
    text gives the catalog of the document, or its problem behind the path or what
    stands for it.  A spelling that a sense does not have is not written. -/
theorem documents_survive :
    Document.codec.Lossless ∧ Rule.codec.Lossless ∧ Lexeme.codec.Lossless ∧
      Link.codec.Lossless ∧ Form.codec.Lossless ∧ Sense.codec.Lossless ∧
    (∀ d, Catalog.ofString (Document.codec.encode d) =
      (Catalog.ofDocument d).mapError (.inconsistent Catalog.noPath)) ∧
    (∀ path d, Catalog.ofText path (Document.codec.encode d) =
      (Catalog.ofDocument d).mapError (.inconsistent path)) ∧
    (∀ path p, (LoadFailure.inconsistent path p).message = path ++ ": " ++ p.message) ∧
    ∀ s : Sense, Sense.codec.value s = .record ([("gloss", .text s.gloss), ("pos", .text s.tag.name)]
      ++ (s.surface.map fun t => ("surface", Value.text t)).toList) := by
  refine ⟨Codec.lossless_of_restores Document.restores, Codec.lossless_of_restores Rule.restores,
    Codec.lossless_of_restores Lexeme.restores, Codec.lossless_of_restores Link.restores,
    Codec.lossless_of_restores Form.restores, Codec.lossless_of_restores Sense.restores,
    Catalog.ofText_encode Catalog.noPath, Catalog.ofText_encode, fun _ _ => rfl, fun s => ?_⟩
  obtain ⟨gloss, tag, surface⟩ := s
  cases surface <;> rfl

/-- A quotation mark, a backslash and the end of a line, in a sense without a spelling. -/
example : Sense.codec.encode ⟨"\"\\\n", ⟨"N"⟩, none⟩ =
    "\x7b\"gloss\":\"\\\"\\\\\\n\",\"pos\":\"N\"\x7d" := by decide +kernel

end SignGloss
