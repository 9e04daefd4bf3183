/-
  The grammar of JSON texts.

  * `InQuotes s`: the text `s` may stand between the quotes of a string, and `Spells s t`: it
    stands for the characters `t`.  Half of a pair of escapes stands for nothing;
  * `IsNumber`, `IsScalar`: the texts of numbers, and of all values without parts;
  * a `Tree` is a text without the space between its tokens.  It keeps how keys, strings and
    numbers are written, and the order of members;
  * `Tree.tokens` are the tokens of a tree, and `Spaced toks s` says that the text `s` is made
    of the tokens `toks`, with any space around them;
  * `Tree.Writes T text`: the text is the one of the tree, for some space.

  What is said of a text by its tokens holds of it whatever the space: `Spaced.skip` drops the
  space at the start, and behind a tree goes on what its last token is followed by
  (`Spaced.ended`).
-/
import SignGloss.Proofs.WrittenIntegers

namespace SignGloss.Json

/-! ## Strings -/

/-- A text that may stand between quotes. -/
inductive InQuotes : List Char → Prop
  | nil : InQuotes []
  | plain {c : Char} {s : List Char} : c ≠ '"' → c ≠ '\\' → isControl c = false → InQuotes s →
      InQuotes (c :: s)
  | letter {c : Char} {s : List Char} : (letterEscape? c).isSome → InQuotes s →
      InQuotes ('\\' :: c :: s)
  | code {a b c d : Char} {s : List Char} : (hexValue? a b c d).isSome → InQuotes s →
      InQuotes ('\\' :: 'u' :: a :: b :: c :: d :: s)

/-- The characters that a text between quotes stands for. -/
inductive Spells : List Char → List Char → Prop
  | nil : Spells [] []
  | plain {c : Char} {s t : List Char} : c ≠ '"' → c ≠ '\\' → isControl c = false →
      Spells s t → Spells (c :: s) (c :: t)
  | letter {c e : Char} {s t : List Char} : letterEscape? c = some e → Spells s t →
      Spells ('\\' :: c :: s) (e :: t)
  | code {a b c d : Char} {n : Nat} {s t : List Char} : hexValue? a b c d = some n →
      isLeading n = false → isTrailing n = false → Spells s t →
      Spells ('\\' :: 'u' :: a :: b :: c :: d :: s) (Char.ofNat n :: t)
  | pair {a b c d a' b' c' d' : Char} {n m : Nat} {s t : List Char} :
      hexValue? a b c d = some n → isLeading n = true →
      hexValue? a' b' c' d' = some m → isTrailing m = true → Spells s t →
      Spells ('\\' :: 'u' :: a :: b :: c :: d :: '\\' :: 'u' :: a' :: b' :: c' :: d' :: s)
        (pairChar n m :: t)

/-- What stands for characters may stand between quotes. -/
theorem Spells.inQuotes {s t : List Char} (h : Spells s t) : InQuotes s := by
  induction h with
  | nil => exact .nil
  | plain hquote hslash hc _ ih => exact .plain hquote hslash hc ih
  | letter hc _ ih => exact .letter (by rw [hc]; rfl) ih
  | code hcode _ _ _ ih => exact .code (by rw [hcode]; rfl) ih
  | pair hcode _ hcode' _ _ ih =>
    exact .code (by rw [hcode]; rfl) (.code (by rw [hcode']; rfl) ih)

/-! ## Numbers -/

/-- Digits only. -/
def Digits (ds : List Char) : Prop := ∀ c ∈ ds, c.isDigit = true

/-- The digits before the point, without leading zeros. -/
inductive Whole : List Char → Prop
  | zero : Whole ['0']
  | digits {c : Char} {ds : List Char} : c.isDigit = true → c ≠ '0' → Digits ds → Whole (c :: ds)

/-- A point with digits behind it, or nothing. -/
inductive Fraction : List Char → Prop
  | none : Fraction []
  | digits {ds : List Char} : ds ≠ [] → Digits ds → Fraction ('.' :: ds)

/-- An exponent, or nothing. -/
inductive Exponent : List Char → Prop
  | none : Exponent []
  | digits {e : Char} {sign ds : List Char} : e = 'e' ∨ e = 'E' →
      sign = [] ∨ sign = ['+'] ∨ sign = ['-'] → ds ≠ [] → Digits ds →
      Exponent (e :: (sign ++ ds))

/-- A number behind its sign. -/
inductive Unsigned : List Char → Prop
  | mk {whole fraction exponent : List Char} : Whole whole → Fraction fraction →
      Exponent exponent → Unsigned (whole ++ (fraction ++ exponent))

/-- A number. -/
inductive IsNumber : List Char → Prop
  | positive {s : List Char} : Unsigned s → IsNumber s
  | negative {s : List Char} : Unsigned s → IsNumber ('-' :: s)

/-- A value without parts. -/
inductive IsScalar : List Char → Prop
  | null : IsScalar ['n', 'u', 'l', 'l']
  | yes : IsScalar ['t', 'r', 'u', 'e']
  | no : IsScalar ['f', 'a', 'l', 's', 'e']
  | text {s : List Char} : InQuotes s → IsScalar ('"' :: (s ++ ['"']))
  | number {s : List Char} : IsNumber s → IsScalar s

/-! ## Trees -/

/-- A value without parts, as it is written. -/
structure Scalar where
  text : List Char
  isScalar : IsScalar text

/-- The key of a member, as it is written between its quotes. -/
structure Key where
  body : List Char
  inQuotes : InQuotes body

/-- A value by its tokens. -/
inductive Tree where
  | scalar (k : Scalar)
  | list (ts : List Tree)
  | record (ms : List (Key × Tree))

namespace Key

/-- The key with its quotes. -/
def token (k : Key) : List Char := '"' :: (k.body ++ ['"'])

/-- The key stands for a name.  One with half of a pair of escapes stands for none. -/
def Names (k : Key) (name : String) : Prop := Spells k.body name.toList

end Key

namespace Tree

mutual

/-- The tokens of a tree. -/
def tokens : Tree → List (List Char)
  | scalar k => [k.text]
  | list [] => [['['], [']']]
  | list (t :: ts) => ['['] :: (t.tokens ++ laterItems ts)
  | record [] => [['{'], ['}']]
  | record ((k, t) :: ms) => ['{'] :: k.token :: [':'] :: (t.tokens ++ laterMembers ms)

/-- The tokens of a list behind its first element. -/
def laterItems : List Tree → List (List Char)
  | [] => [[']']]
  | t :: ts => [','] :: (t.tokens ++ laterItems ts)

/-- The tokens of a record behind its first member. -/
def laterMembers : List (Key × Tree) → List (List Char)
  | [] => [['}']]
  | (k, t) :: ms => [','] :: k.token :: [':'] :: (t.tokens ++ laterMembers ms)

end

/-- The tokens of a list from its first element on, or from a later one. -/
def items : Bool → List Tree → List (List Char)
  | true, t :: ts => t.tokens ++ laterItems ts
  | true, [] => [[']']]
  | false, ts => laterItems ts

/-- The tokens of a record from its first member on, or from a later one. -/
def members : Bool → List (Key × Tree) → List (List Char)
  | true, (k, t) :: ms => k.token :: [':'] :: (t.tokens ++ laterMembers ms)
  | true, [] => [['}']]
  | false, ms => laterMembers ms

theorem tokens_list (ts : List Tree) : (list ts).tokens = ['['] :: items true ts := by
  cases ts <;> rfl

theorem tokens_record (ms : List (Key × Tree)) :
    (record ms).tokens = ['{'] :: members true ms := by
  cases ms <;> rfl

end Tree

/-! ## Texts -/

/-- The text is made of the tokens, with any space around each. -/
inductive Spaced : List (List Char) → List Char → Prop
  | nil {w : List Char} : Blank w → Spaced [] w
  | cons {w tok s : List Char} {toks : List (List Char)} : Blank w → Spaced toks s →
      Spaced (tok :: toks) (w ++ (tok ++ s))

theorem Unsigned.head {s : List Char} (h : Unsigned s) :
    ∃ c u, s = c :: u ∧ c.isDigit = true := by
  cases h with
  | mk hwhole _ _ =>
    cases hwhole with
    | zero => exact ⟨_, _, rfl, by decide⟩
    | digits hc _ _ => exact ⟨_, _, rfl, hc⟩

/-- A value without parts starts with neither space nor a bracket. -/
theorem IsScalar.head {s : List Char} (h : IsScalar s) :
    ∃ c u, s = c :: u ∧ isSpace c = false ∧ c ≠ '[' ∧ c ≠ '{' ∧ c ≠ ']' := by
  cases h with
  | null | yes | no | text _ => exact ⟨_, _, rfl, by decide⟩
  | number h =>
    cases h with
    | positive h =>
      obtain ⟨c, u, rfl, hc⟩ := h.head
      exact ⟨c, u, rfl, isSpace_of_isDigit hc, ne_of_isDigit hc (by decide),
        ne_of_isDigit hc (by decide), ne_of_isDigit hc (by decide)⟩
    | negative _ => exact ⟨_, _, rfl, by decide⟩

/-- A tree starts with neither space nor a closing bracket. -/
theorem Tree.head (T : Tree) :
    ∃ c u toks, T.tokens = (c :: u) :: toks ∧ isSpace c = false ∧ c ≠ ']' := by
  match T with
  | .scalar k =>
    obtain ⟨c, u, hk, hspace, -, -, hc⟩ := k.isScalar.head
    exact ⟨c, u, [], by rw [tokens, hk], hspace, hc⟩
  | .list [] => exact ⟨_, _, _, by rw [tokens], by decide, by decide⟩
  | .list (t :: ts) => exact ⟨_, _, _, by rw [tokens], by decide, by decide⟩
  | .record [] => exact ⟨_, _, _, by rw [tokens], by decide, by decide⟩
  | .record ((k, t) :: ms) => exact ⟨_, _, _, by rw [tokens], by decide, by decide⟩

/-! ### Space -/

variable {T : Tree} {toks : List (List Char)} {tok s r : List Char} {c : Char}

theorem spaced_flatten (toks : List (List Char)) : Spaced toks toks.flatten := by
  induction toks with
  | nil => exact .nil blank_nil
  | cons tok toks ih => exact .cons blank_nil ih

/-- The first token is behind the space at the start. -/
theorem Spaced.skip (h : Spaced ((c :: tok) :: toks) s) (hc : isSpace c = false) :
    ∃ r, Json.skip s = c :: (tok ++ r) ∧ Spaced toks r := by
  cases h with
  | cons hw hs => exact ⟨_, skip_blank_append hw hc, hs⟩

/-- Space may be left out. -/
theorem Spaced.of_skip (h : Spaced ((c :: tok) :: toks) s) (hc : isSpace c = false) :
    Spaced ((c :: tok) :: toks) (Json.skip s) := by
  obtain ⟨r, hskip, hr⟩ := h.skip hc
  rw [hskip]
  exact .cons blank_nil hr

theorem ended_blank_append (hr : Ended r) (hs : Blank s) : Ended (s ++ r) := by
  cases s with
  | nil => exact hr
  | cons c s =>
    rintro _ ⟨⟩
    exact Or.inr (Or.inr (Or.inr (hs c List.mem_cons_self)))

/-- A text ends a number if its first token does. -/
theorem Spaced.ended (h : Spaced toks s) (htoks : Ended toks.flatten) : Ended s := by
  induction h with
  | @nil w hw =>
    rw [← List.append_nil w]
    exact ended_blank_append ended_nil hw
  | @cons w tok s toks hw _ ih =>
    refine ended_blank_append ?_ hw
    rw [List.flatten_cons] at htoks
    cases tok with
    | nil => exact ih htoks
    | cons c tok => exact htoks

/-- What is behind an element of a list ends a number. -/
theorem ended_laterItems_tokens (ts : List Tree) (toks : List (List Char)) :
    Ended (Tree.laterItems ts ++ toks).flatten := by
  cases ts with
  | nil => exact ended_closing blank_nil (Or.inl rfl)
  | cons t ts => exact ended_comma _

/-- What is behind a member of a record ends a number. -/
theorem ended_laterMembers_tokens (ms : List (Key × Tree)) (toks : List (List Char)) :
    Ended (Tree.laterMembers ms ++ toks).flatten := by
  cases ms with
  | nil => exact ended_closing blank_nil (Or.inr rfl)
  | cons m ms => exact ended_comma _

/-- The text of a tree behind the space at its start. -/
theorem Spaced.skip_tree (T : Tree) (h : Spaced (T.tokens ++ toks) s) :
    ∃ c r, Json.skip s = c :: r ∧ c ≠ ']' ∧ Spaced (T.tokens ++ toks) (c :: r) := by
  obtain ⟨c, u, rest, hT, hspace, hne⟩ := T.head
  rw [hT, List.cons_append] at h ⊢
  obtain ⟨r, hs, hr⟩ := h.skip hspace
  exact ⟨c, u ++ r, hs, hne, .cons blank_nil hr⟩

end SignGloss.Json
