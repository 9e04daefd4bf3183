/-
  The parts of JSON texts below values: space, words, and strings.

  * `skip` drops space; `readWord` reads the letters of `null`, `true` and
    `false` after the first, and `readColon` what stands behind a key;
  * `readText` reads a string behind its opening quote and gives its characters;
    escapes of characters beyond 16 bits come in pairs;
  * `skipText` does the same without looking at what escapes stand for, so that
    a lone half of a pair passes.

  Each function gives back what is left of the text, and what is left is shorter
  where something must have been read (`length_of_readText` and others).
-/
import SignGloss.Json.Fault

namespace SignGloss.Json

/-- What may stand between the parts of a text. -/
def isSpace (c : Char) : Bool := c == ' ' || c == '\n' || c == '\t' || c == '\r'

/-- A text without the space at its start. -/
def skip (s : List Char) : List Char := s.dropWhile isSpace

theorem length_skip (s : List Char) : (skip s).length ≤ s.length :=
  (List.dropWhile_suffix _).length_le

theorem length_of_skip_eq {s t : List Char} (h : skip s = t) : t.length ≤ s.length :=
  h ▸ length_skip s

/-- Read the given characters. -/
def readWord : List Char → List Char → Except Fault (List Char)
  | [], s => .ok s
  | _ :: _, [] => .error (.before [] .endOfValue)
  | c :: w, d :: s => if c = d then readWord w s else .error (.within (d :: s) .expectedWord)

theorem length_of_readWord {w s r : List Char} (h : readWord w s = .ok r) :
    r.length ≤ s.length := by
  fun_induction readWord w s with
  | case1 s => cases h; exact Nat.le_refl _
  | case2 => cases h
  | case3 w d s ih => exact Nat.le_succ_of_le (ih h)
  | case4 => cases h

/-- Read the colon behind a key. -/
def readColon (s : List Char) : Except Fault (List Char) :=
  match skip s with
  | [] => .error (.before [] .endOfRecord)
  | c :: r => if c = ':' then .ok r else .error (.within (c :: r) .expectedColon)

theorem length_of_readColon {s r : List Char} (h : readColon s = .ok r) :
    r.length < s.length := by
  unfold readColon at h
  split at h
  · cases h
  · rename_i c t ht
    have := length_of_skip_eq ht
    simp only [List.length_cons] at this
    split at h
    · cases h; omega
    · cases h

/-! ## Escapes -/

/-- The value of a hexadecimal digit. -/
def hexDigit? (c : Char) : Option Nat :=
  if c.isDigit then some (c.toNat - '0'.toNat)
  else if 'a' ≤ c ∧ c ≤ 'f' then some (c.toNat - 'a'.toNat + 10)
  else if 'A' ≤ c ∧ c ≤ 'F' then some (c.toNat - 'A'.toNat + 10)
  else none

/-- The value of four hexadecimal digits. -/
def hexValue? (a b c d : Char) : Option Nat := do
  return (((← hexDigit? a) * 16 + (← hexDigit? b)) * 16 + (← hexDigit? c)) * 16 + (← hexDigit? d)

/-- Read four hexadecimal digits. -/
def readHex (s : List Char) : Except Fault (Nat × List Char) :=
  if Text.size (s.take 4) < 4 then .error (.before [] .endOfText)
  else match s with
    | a :: b :: c :: d :: r =>
      match hexValue? a b c d with
      | some n => .ok (n, r)
      | none => .error ⟨.invalidEscape, s, 4⟩
    | _ => .error ⟨.invalidEscape, s, 4⟩

theorem length_of_readHex {s r : List Char} {n : Nat} (h : readHex s = .ok (n, r)) :
    r.length < s.length := by
  unfold readHex at h
  split at h
  · cases h
  · split at h
    · split at h
      · cases h; simp only [List.length_cons]; omega
      · cases h
    · cases h

/-- The first half of a pair for a character beyond 16 bits. -/
def isLeading (n : Nat) : Bool := 0xD800 ≤ n && n ≤ 0xDBFF

/-- The second half of such a pair. -/
def isTrailing (n : Nat) : Bool := 0xDC00 ≤ n && n ≤ 0xDFFF

/-- The character of a pair. -/
def pairChar (n m : Nat) : Char := Char.ofNat ((n - 0xD800) * 0x400 + (m - 0xDC00) + 0x10000)

/-- Read the second half of a pair, behind the first half `n`. -/
def readTrailing (n : Nat) : List Char → Except Fault (Char × List Char)
  | [] => .error (.before [] .endOfText)
  | '\\' :: [] => .error (.before [] .endOfText)
  | '\\' :: 'u' :: s =>
    match readHex s with
    | .error f => .error f
    | .ok (m, r) => if isTrailing m then .ok (pairChar n m, r) else .error (.before r .loneSurrogate)
  | '\\' :: s => .error (.within s .endOfEscape)
  | s => .error (.within s .endOfEscape)

theorem length_of_readTrailing {n : Nat} {s r : List Char} {c : Char}
    (h : readTrailing n s = .ok (c, r)) : r.length < s.length := by
  unfold readTrailing at h
  split at h
  · cases h
  · cases h
  · split at h
    · cases h
    · rename_i hr
      split at h
      · obtain ⟨-, rfl⟩ := Prod.mk.inj (Except.ok.inj h)
        have := length_of_readHex hr
        simp only [List.length_cons]
        omega
      · cases h
  · cases h
  · cases h

/-- Read the digits of an escape by code. -/
def readCode (s : List Char) : Except Fault (Char × List Char) :=
  match readHex s with
  | .error f => .error f
  | .ok (n, r) =>
    if isTrailing n then .error (.before r .loneSurrogate)
    else if isLeading n then readTrailing n r
    else .ok (Char.ofNat n, r)

theorem length_of_readCode {s r : List Char} {c : Char} (h : readCode s = .ok (c, r)) :
    r.length < s.length := by
  unfold readCode at h
  split at h
  · cases h
  · rename_i hr
    have := length_of_readHex hr
    split at h
    · cases h
    · split at h
      · have := length_of_readTrailing h
        omega
      · obtain ⟨-, rfl⟩ := Prod.mk.inj (Except.ok.inj h)
        exact this

/-- The character that an escape by letter stands for. -/
def letterEscape? (c : Char) : Option Char :=
  match c with
  | '"' => some '"'
  | '\\' => some '\\'
  | '/' => some '/'
  | 'b' => some '\x08'
  | 'f' => some '\x0c'
  | 'n' => some '\n'
  | 'r' => some '\r'
  | 't' => some '\t'
  | _ => none

/-- Read an escape behind its backslash. -/
def readEscape : List Char → Except Fault (Char × List Char)
  | [] => .error (.before [] .endOfText)
  | c :: s =>
    if c = 'u' then readCode s
    else match letterEscape? c with
      | some d => .ok (d, s)
      | none => .error (.within (c :: s) .invalidEscape)

theorem length_of_readEscape {s r : List Char} {c : Char} (h : readEscape s = .ok (c, r)) :
    r.length < s.length := by
  unfold readEscape at h
  split at h
  · cases h
  · split at h
    · have := length_of_readCode h
      simp only [List.length_cons]
      omega
    · split at h
      · cases h; simp only [List.length_cons]; omega
      · cases h

/-- Skip an escape behind its backslash. -/
def skipEscape : List Char → Except Fault (List Char)
  | [] => .error (.before [] .endOfText)
  | c :: s =>
    if c = 'u' then
      match readHex s with
      | .error f => .error f
      | .ok (_, r) => .ok r
    else if (letterEscape? c).isSome then .ok s
    else .error (.within (c :: s) .invalidEscape)

theorem length_of_skipEscape {s r : List Char} (h : skipEscape s = .ok r) :
    r.length < s.length := by
  unfold skipEscape at h
  split at h
  · cases h
  · split at h
    · split at h
      · cases h
      · rename_i hr
        cases h
        have := length_of_readHex hr
        simp only [List.length_cons]
        omega
    · split at h
      · cases h; simp only [List.length_cons]; omega
      · cases h

/-! ## Strings -/

/-- A character that may not stand in a string. -/
def isControl (c : Char) : Bool := c.toNat < 0x20

/-- Read a string behind its opening quote. -/
def readText : List Char → Except Fault (List Char × List Char)
  | [] => .error (.before [] .endOfText)
  | c :: s =>
    if c = '"' then .ok ([], s)
    else if c = '\\' then
      match h : readEscape s with
      | .error f => .error f
      | .ok (d, r) =>
        have := length_of_readEscape h
        match readText r with
        | .error f => .error f
        | .ok (t, r') => .ok (d :: t, r')
    else if isControl c then .error (.within (c :: s) .controlCharacter)
    else
      match readText s with
      | .error f => .error f
      | .ok (t, r) => .ok (c :: t, r)
termination_by s => s.length

theorem length_of_readText {s r t : List Char} (h : readText s = .ok (t, r)) :
    r.length < s.length := by
  fun_induction readText s generalizing t r with
  | case1 => cases h
  | case2 s => cases h; simp only [List.length_cons]; omega
  | case3 => cases h
  | case4 => cases h
  | case5 s d r₁ hr hlt t₁ r₂ hr₂ hq ih =>
    cases h
    have := ih hr₂
    simp only [List.length_cons]
    omega
  | case6 => cases h
  | case7 => cases h
  | case8 c s hq hb hctl t₁ r₁ hr ih =>
    cases h
    have := ih hr
    simp only [List.length_cons]
    omega

/-- Skip a string behind its opening quote. -/
def skipText : List Char → Except Fault (List Char)
  | [] => .error (.before [] .endOfText)
  | c :: s =>
    if c = '"' then .ok s
    else if c = '\\' then
      match h : skipEscape s with
      | .error f => .error f
      | .ok r =>
        have := length_of_skipEscape h
        skipText r
    else if isControl c then .error (.before (c :: s) .controlCharacter)
    else skipText s
termination_by s => s.length

theorem length_of_skipText {s r : List Char} (h : skipText s = .ok r) :
    r.length < s.length := by
  fun_induction skipText s with
  | case1 => cases h
  | case2 s => cases h; simp only [List.length_cons]; omega
  | case3 => cases h
  | case4 s hc r₁ hr hlt ih =>
    have := ih h
    simp only [List.length_cons]
    omega
  | case5 => cases h
  | case6 c s hq hb hctl ih =>
    have := ih h
    simp only [List.length_cons]
    omega

end SignGloss.Json
