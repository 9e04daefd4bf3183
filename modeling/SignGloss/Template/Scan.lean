/-
  Reading templates.

  * two equal braces stand for one in literal text;
  * `{TAG}` and `{TAG:key=value,key}` are placeholders: a tag is a non-empty run
    of characters other than blanks, `:` and braces, and there may be spaces on
    both sides of it.  Keys and values are trimmed, and a parameter without a
    key is dropped;
  * any other brace is a stray one, so every text is a template.

  A segment is read by the first of four readers that succeeds (`readSegment`),
  segments are read as long as there is one (`readSegments`), and neighbouring
  literals are made one literal (`mergeLiterals`).

  Main definition: `Template.parse`.
-/
import SignGloss.Template
import SignGloss.Text.Blank

namespace SignGloss.Template

open Text

/-! ## Placeholders -/

/-- A character that may stand in the tag of a placeholder. -/
def isTagChar (c : Char) : Bool := !isBlank c && c != ':' && c != '{' && c != '}'

/-- A character that may stand in a key. -/
def isKeyChar (c : Char) : Bool := c != '=' && c != ',' && c != '{' && c != '}'

/-- A character that may stand in a value. -/
def isValueChar (c : Char) : Bool := c != ',' && c != '{' && c != '}'

/-- Read a parameter: a key, and a value if `=` comes next. -/
def readParam (s : List Char) : Param × List Char :=
  let key := String.ofList (trimChars (s.takeWhile isKeyChar))
  match s.dropWhile isKeyChar with
  | '=' :: r => (⟨key, String.ofList (trimChars (r.takeWhile isValueChar))⟩, r.dropWhile isValueChar)
  | r => (⟨key, ""⟩, r)

theorem length_readParam (s : List Char) : (readParam s).2.length ≤ s.length := by
  have h₁ : (s.dropWhile isKeyChar).length ≤ s.length := (List.dropWhile_suffix _).length_le
  unfold readParam
  split
  · rename_i r hr
    have h₂ : (r.dropWhile isValueChar).length ≤ r.length := (List.dropWhile_suffix _).length_le
    rw [hr] at h₁
    simp only [List.length_cons] at h₁ ⊢
    omega
  · exact h₁

/-- Read parameters with commas between them. -/
def readParams (s : List Char) : List Param × List Char :=
  match h : readParam s with
  | (p, ',' :: r) =>
    have : r.length < s.length := by
      have := length_readParam s
      rw [h] at this
      simp only [List.length_cons] at this
      omega
    let (ps, r') := readParams r
    (p :: ps, r')
  | (p, r) => ([p], r)
termination_by s.length

theorem length_readParams (s : List Char) : (readParams s).2.length ≤ s.length := by
  fun_induction readParams s with
  | case1 s p r h this ps r' hr ih =>
    rw [hr] at ih
    simp only at ih ⊢
    omega
  | case2 s p r h hr =>
    have := length_readParam s
    rw [hr] at this
    simpa using this

/-- Read what may follow a tag: a colon and parameters. -/
def readParamList : List Char → List Param × List Char
  | ':' :: s => readParams s
  | s => ([], s)

theorem length_readParamList (s : List Char) : (readParamList s).2.length ≤ s.length := by
  unfold readParamList
  split
  · rename_i s'
    have := length_readParams s'
    simp only [List.length_cons]
    omega
  · exact Nat.le_refl _

/-- Read a placeholder whose opening brace has been read. -/
def readPlaceholder (s : List Char) : Option (Placeholder × List Char) :=
  let inner := s.dropWhile isSpace
  let name := inner.takeWhile isTagChar
  let (params, r) := readParamList ((inner.dropWhile isTagChar).dropWhile isSpace)
  if name.isEmpty then none
  else match r.dropWhile isSpace with
    | '}' :: rest => some (⟨⟨String.ofList name⟩, params.filter (·.key ≠ "")⟩, rest)
    | _ => none

theorem length_of_readPlaceholder {s r : List Char} {p : Placeholder}
    (h : readPlaceholder s = some (p, r)) : r.length < s.length := by
  have drop : ∀ (q : Char → Bool) (t : List Char), (t.dropWhile q).length ≤ t.length :=
    fun q t => (List.dropWhile_suffix _).length_le
  unfold readPlaceholder at h
  simp only at h
  split at h
  · cases h
  · split at h
    · rename_i rest hr
      cases h
      have h₁ := drop isSpace s
      have h₂ := drop isTagChar (s.dropWhile isSpace)
      have h₃ := drop isSpace ((s.dropWhile isSpace).dropWhile isTagChar)
      have h₄ := length_readParamList (((s.dropWhile isSpace).dropWhile isTagChar).dropWhile isSpace)
      have h₅ := drop isSpace
        (readParamList (((s.dropWhile isSpace).dropWhile isTagChar).dropWhile isSpace)).2
      rw [hr] at h₅
      simp only [List.length_cons] at h₅
      omega
    · cases h

/-! ## Segments -/

/-- A character other than a brace. -/
def isPlain (c : Char) : Bool := c != '{' && c != '}'

/-- Read two equal braces, which stand for one. -/
def readEscape : List Char → Option (Segment × List Char)
  | '{' :: '{' :: s => some (.literal "\x7b", s)
  | '}' :: '}' :: s => some (.literal "\x7d", s)
  | _ => none

/-- Read a placeholder with its opening brace. -/
def readSlot : List Char → Option (Segment × List Char)
  | '{' :: s => (readPlaceholder s).map fun (p, r) => (.placeholder p, r)
  | _ => none

/-- Read a brace. -/
def readBrace : List Char → Option (Segment × List Char)
  | c :: s => if isPlain c then none else some (.stray c, s)
  | [] => none

/-- Read text up to the next brace. -/
def readText (s : List Char) : Option (Segment × List Char) :=
  let t := s.takeWhile isPlain
  if t.isEmpty then none else some (.literal (String.ofList t), s.dropWhile isPlain)

/-- Read a segment: the first of its forms that can be read here. -/
def readSegment (s : List Char) : Option (Segment × List Char) :=
  readEscape s <|> readSlot s <|> readBrace s <|> readText s

theorem length_of_readEscape {s r : List Char} {seg : Segment}
    (h : readEscape s = some (seg, r)) : r.length < s.length := by
  unfold readEscape at h
  split at h
  · obtain ⟨-, rfl⟩ := Prod.mk.inj (Option.some.inj h)
    simp only [List.length_cons]
    omega
  · obtain ⟨-, rfl⟩ := Prod.mk.inj (Option.some.inj h)
    simp only [List.length_cons]
    omega
  · cases h

theorem length_of_readSlot {s r : List Char} {seg : Segment} (h : readSlot s = some (seg, r)) :
    r.length < s.length := by
  unfold readSlot at h
  split at h
  · rename_i s'
    obtain ⟨⟨p, r'⟩, hp, he⟩ := Option.map_eq_some_iff.1 h
    obtain ⟨-, rfl⟩ := Prod.mk.inj he
    have := length_of_readPlaceholder hp
    simp only [List.length_cons]
    omega
  · cases h

theorem length_of_readBrace {s r : List Char} {seg : Segment} (h : readBrace s = some (seg, r)) :
    r.length < s.length := by
  unfold readBrace at h
  split at h
  · split at h
    · cases h
    · obtain ⟨-, rfl⟩ := Prod.mk.inj (Option.some.inj h)
      exact Nat.lt_succ_self _
  · cases h

theorem length_of_readText {s r : List Char} {seg : Segment} (h : readText s = some (seg, r)) :
    r.length < s.length := by
  unfold readText at h
  simp only [List.isEmpty_iff] at h
  split at h
  · cases h
  · rename_i ht
    obtain ⟨-, rfl⟩ := Prod.mk.inj (Option.some.inj h)
    have hs := congrArg List.length (List.takeWhile_append_dropWhile (p := isPlain) (l := s))
    have hpos := List.length_pos_iff.2 ht
    rw [List.length_append] at hs
    omega

theorem readSegment_eq_some {s r : List Char} {seg : Segment} :
    readSegment s = some (seg, r) ↔
      readEscape s = some (seg, r) ∨ readEscape s = none ∧ (readSlot s = some (seg, r) ∨
        readSlot s = none ∧ (readBrace s = some (seg, r) ∨
          readBrace s = none ∧ readText s = some (seg, r))) := by
  simp only [readSegment, Option.orElse_eq_orElse, Option.orElse_eq_or, Option.or_eq_some_iff]

/-- A segment takes at least one character. -/
theorem length_of_readSegment {s r : List Char} {seg : Segment}
    (h : readSegment s = some (seg, r)) : r.length < s.length := by
  rcases readSegment_eq_some.1 h with h | ⟨-, h | ⟨-, h | ⟨-, h⟩⟩⟩
  · exact length_of_readEscape h
  · exact length_of_readSlot h
  · exact length_of_readBrace h
  · exact length_of_readText h

/-- Read segments as long as there is one, and give what is left. -/
def readSegments (s : List Char) : List Segment × List Char :=
  match h : readSegment s with
  | none => ([], s)
  | some (seg, r) =>
    have := length_of_readSegment h
    let (segs, left) := readSegments r
    (seg :: segs, left)
termination_by s.length

/-! ## Templates -/

/-- Neighbouring literals as one literal. -/
def mergeLiterals : List Segment → List Segment
  | [] => []
  | .literal t :: segs =>
    match mergeLiterals segs with
    | .literal u :: segs' => .literal (t ++ u) :: segs'
    | segs' => .literal t :: segs'
  | seg :: segs => seg :: mergeLiterals segs

/-- Read a template.  Text that no segment could be read from would be literal. -/
def parse (s : String) : Template :=
  let (segs, left) := readSegments s.toList
  ⟨mergeLiterals (if left.isEmpty then segs else segs ++ [.literal (String.ofList left)])⟩

end SignGloss.Template
