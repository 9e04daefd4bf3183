/-
  Locale tags, such as `es-MX` or `zh-Hant-TW-u-co-stroke`.

  * a `LanguageTag` is a language with an optional script and region and with
    variants; an `Extension` is introduced by a single letter or digit; a
    `Locale` is a language tag with extensions, in canonical form: case by kind
    of subtag, variants, attributes, keys and extensions in order;
  * `Locale.parse?` reads a tag in any case and order, and `Locale.text` writes
    the canonical one;
  * `canonical` is the canonical form of a tag, and a text that is no tag is
    left as it is but for blanks around it.  Locales are compared by that form.
-/
import SignGloss.Distinct
import SignGloss.Locale.Subtag
import SignGloss.Text.Blank

namespace SignGloss

/-- A language with its script, region and variants. -/
structure LanguageTag where
  language : Subtag
  script : Option Subtag
  region : Option Subtag
  variants : List Subtag
deriving Repr, DecidableEq

namespace LanguageTag

/-- The subtags in the order in which they are written. -/
def subtags (t : LanguageTag) : List Subtag :=
  [t.language] ++ t.script.toList ++ t.region.toList ++ t.variants

/-- The first subtag, if it is of a kind, and the others. -/
def takeIf (p : Subtag → Bool) : List Subtag → Option Subtag × List Subtag
  | [] => (none, [])
  | s :: ss => if p s then (some s, ss) else (none, s :: ss)

/-- Read a language tag and leave what cannot belong to it.  No variant may be
    given twice. -/
def read? : List Subtag → Option (LanguageTag × List Subtag)
  | [] => none
  | l :: s =>
    if l.isLanguage then
      let (script, s₁) := takeIf Subtag.isScript s
      let (region, s₂) := takeIf Subtag.isRegion s₁
      let variants := (s₂.takeWhile Subtag.isVariant).map Subtag.lower
      if variants.Nodup then
        some (⟨l.lower, script.map Subtag.title, region.map Subtag.upper, Subtag.sort variants⟩,
          s₂.dropWhile Subtag.isVariant)
      else none
    else none

end LanguageTag

/-! ## Extensions -/

/-- A key with the parts of its value. -/
structure Keyword where
  key : Subtag
  value : List Subtag
deriving Repr, DecidableEq

namespace Keyword

/-- Keywords whose keys satisfy `isKey`, up to the end. -/
def readAll? (isKey : Subtag → Bool) : List Subtag → Option (List Keyword)
  | [] => some []
  | k :: s =>
    have : (s.dropWhile Subtag.isValue).length ≤ s.length := (List.dropWhile_suffix _).length_le
    if isKey k then
      (readAll? isKey (s.dropWhile Subtag.isValue)).map
        (⟨k.lower, (s.takeWhile Subtag.isValue).map Subtag.lower⟩ :: ·)
    else none
termination_by s => s.length

/-- The order of keys. -/
def le (a b : Keyword) : Bool := a.key.le b.key

/-- The keyword without the parts of its value that are `true`. -/
def dropTrue (k : Keyword) : Keyword := ⟨k.key, k.value.filter (· ≠ Subtag.trueValue)⟩

/-- Keywords in canonical form: sorted, the first of each key, `true` dropped. -/
def canonical (ks : List Keyword) : List Keyword :=
  (distinctBy key (ks.map dropTrue)).mergeSort le

end Keyword

/-- An extension of a locale tag. -/
inductive Extension where
  /-- `u`: attributes and keywords -/
  | unicode (attributes : List Subtag) (keywords : List Keyword)
  /-- `t`: the language a text was transformed from, and fields -/
  | transform (source : Option LanguageTag) (fields : List Keyword)
  /-- any other letter or digit -/
  | other (singleton : Char) (parts : List Subtag)
  /-- `x` -/
  | privateUse (parts : List Subtag)
deriving Repr, DecidableEq

namespace Extension

/-- The letter or digit that introduces the extension. -/
def singleton : Extension → Char
  | unicode _ _ => 'u'
  | transform _ _ => 't'
  | other c _ => c
  | privateUse _ => 'x'

/-- A keyword of a Unicode extension as it is written. -/
def keywordSubtags (k : Keyword) : List Subtag := k.key :: k.value

/-- A field as it is written: without another value it has `true`. -/
def fieldSubtags (k : Keyword) : List Subtag :=
  k.key :: if k.value.isEmpty then [Subtag.trueValue] else k.value

/-- The subtags behind the singleton. -/
def parts : Extension → List Subtag
  | unicode attributes keywords => attributes ++ keywords.flatMap keywordSubtags
  | transform source fields =>
    (match source with
      | some t => t.subtags.map Subtag.lower
      | none => []) ++ fields.flatMap fieldSubtags
  | other _ parts => parts
  | privateUse parts => parts

/-- A Unicode extension: at least one attribute or keyword. -/
def readUnicode? (s : List Subtag) : Option Extension :=
  let attributes := (s.takeWhile Subtag.isValue).map Subtag.lower
  match Keyword.readAll? Subtag.isUnicodeKey (s.dropWhile Subtag.isValue) with
  | some keywords =>
    if s.isEmpty then none
    else some (unicode (Subtag.sort (distinct attributes)) (Keyword.canonical keywords))
  | none => none

/-- The fields of a transformed content extension; each has a value. -/
def readFields? (s : List Subtag) : Option (List Keyword) :=
  match Keyword.readAll? Subtag.isTransformKey s with
  | some fields => if fields.any (·.value.isEmpty) then none else some (Keyword.canonical fields)
  | none => none

/-- A transformed content extension: a language, fields, or both. -/
def readTransform? (s : List Subtag) : Option Extension :=
  if s.isEmpty then none
  else if s.head?.any Subtag.isLanguage then
    match LanguageTag.read? s with
    | some (t, rest) => (readFields? rest).map (transform (some t))
    | none => none
  else (readFields? s).map (transform none)

/-- A private use extension: at least one part. -/
def readPrivateUse? (s : List Subtag) : Option Extension :=
  if s.isEmpty || !s.all Subtag.isPrivatePart then none
  else some (privateUse (s.map Subtag.lower))

/-- Any other extension.  Parts are checked for their length only, and those
    with characters other than letters and digits are dropped. -/
def readOther? (c : Char) (s : List Subtag) : Option Extension :=
  let kept := (s.filter (·.all Char.isAlphanum)).map Subtag.lower
  if kept.isEmpty || !s.all Subtag.isOtherSized then none else some (other c kept)

/-- Read the extension of a lower-case singleton from the subtags behind it. -/
def read? (c : Char) (s : List Subtag) : Option Extension :=
  if c = 'u' then readUnicode? s
  else if c = 't' then readTransform? s
  else if c = 'x' then readPrivateUse? s
  else if c.isAlphanum then readOther? c s
  else none

/-- Read extensions up to the end.  Each reaches to the next singleton, but
    private use reaches to the end. -/
def readAll? : List Subtag → Option (List Extension)
  | [] => some []
  | [c] :: s =>
    have : (s.dropWhile (!·.isSingleton)).length ≤ s.length := (List.dropWhile_suffix _).length_le
    let c := c.toLower
    if c = 'x' then (read? c s).map ([·])
    else
      match read? c (s.takeWhile (!·.isSingleton)), readAll? (s.dropWhile (!·.isSingleton)) with
      | some e, some es => some (e :: es)
      | _, _ => none
  | _ => none
termination_by s => s.length

/-- The order in which extensions are written: by singleton, private use last. -/
def le (a b : Extension) : Bool :=
  b.singleton = 'x' || (a.singleton ≠ 'x' && a.singleton ≤ b.singleton)

end Extension

/-! ## Locales -/

/-- A language tag with extensions. -/
structure Locale where
  tag : LanguageTag
  extensions : List Extension
deriving Repr, DecidableEq

namespace Locale

/-- All subtags in the order in which they are written. -/
def subtags (l : Locale) : List Subtag :=
  l.tag.subtags ++ l.extensions.flatMap fun e => [e.singleton] :: e.parts

/-- The canonical text. -/
def text (l : Locale) : String := String.ofList (['-'].intercalate l.subtags)

/-- Read a locale from its subtags.  No singleton may be given twice. -/
def ofSubtags? (s : List Subtag) : Option Locale :=
  match LanguageTag.read? s with
  | none => none
  | some (tag, rest) =>
    match Extension.readAll? rest with
    | none => none
    | some es =>
      if (es.map Extension.singleton).Nodup then some ⟨tag, es.mergeSort Extension.le⟩ else none

/-- Read a locale tag. -/
def parse? (s : String) : Option Locale := ofSubtags? (Text.pieces '-' s.toList)

/-- The canonical form of a tag; what is no tag is only trimmed. -/
def canonical (s : String) : String :=
  let t := Text.trim s
  match parse? t with
  | some l => l.text
  | none => t

/-- A rule for `scope` applies in `requested`; one without a scope applies
    everywhere. -/
def matchesScope (scope : Option String) (requested : String) : Bool :=
  match scope with
  | none => true
  | some s => canonical s = canonical requested

end Locale

end SignGloss
