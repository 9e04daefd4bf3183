/-
  Readers of values.

  * a `Reader α` reads a value of the type `α` from the start of a text and
    gives back what is left.  Every reader takes at least one character
    (`progress`), so that lists may be read one element at a time;
  * `text`, `boolean`, `integer`, `single` and `optional` read values without
    parts, and `list` reads a list;
  * a value of another kind is read as what it is, for the sake of the message
    (`mismatch`);
  * `read` reads a text with nothing but space around its value.
-/
import SignGloss.Json.Skip

namespace SignGloss.Json

variable {α β : Type}

/-- A way to read a value from the start of a text. -/
structure Reader (α : Type) where
  run : List Char → Except Fault (α × List Char)
  progress : ∀ {s r : List Char} {a : α}, run s = .ok (a, r) → r.length < s.length

namespace Reader

/-- Change the value that was read. -/
def map (f : α → β) (x : Reader α) : Reader β where
  run s :=
    match x.run s with
    | .error e => .error e
    | .ok (a, r) => .ok (f a, r)
  progress := by
    intro s r b h
    split at h
    · cases h
    · rename_i hx
      cases h
      exact x.progress hx

end Reader

/-! ## Values of another kind -/

/-- The fault of a value of the wrong kind, where reading it has led to `x`. -/
def wrongEnd (expected : String) (x : Except Fault (Found × List Char)) : Fault :=
  match x with
  | .error f => f
  | .ok (found, r) => .before r (.wrongType found expected)

/-- What is found where a word has been read. -/
def foundWord (found : Found) (x : Except Fault (List Char)) : Except Fault (Found × List Char) :=
  x.map fun r => (found, r)

/-- What is found where a number has been read. -/
def foundNumber (x : Except Fault (Number × List Char)) : Except Fault (Found × List Char) :=
  x.map fun p => (p.1.found, p.2)

/-- What is found where a string has been read. -/
def foundText (x : Except Fault (List Char × List Char)) : Except Fault (Found × List Char) :=
  x.map fun p => (.text (String.ofList p.1), p.2)

/-- The fault of a text that does not start with a value of the expected kind. -/
def mismatch (expected : String) : List Char → Fault
  | [] => .before [] .endOfValue
  | 'n' :: r => wrongEnd expected (foundWord .null (readWord ['u', 'l', 'l'] r))
  | 't' :: r => wrongEnd expected (foundWord (.boolean true) (readWord ['r', 'u', 'e'] r))
  | 'f' :: r => wrongEnd expected (foundWord (.boolean false) (readWord ['a', 'l', 's', 'e'] r))
  | '-' :: r => wrongEnd expected (foundNumber (readNumber true r))
  | '"' :: r => wrongEnd expected (foundText (readText r))
  | '[' :: r => .before ('[' :: r) (.wrongType .list expected)
  | '{' :: r => .before ('{' :: r) (.wrongType .record expected)
  | c :: r =>
    if c.isDigit then wrongEnd expected (foundNumber (readNumber false (c :: r)))
    else .within (c :: r) .expectedValue

/-! ## Values without parts -/

namespace Reader

/-- Strings. -/
def text : Reader String where
  run s :=
    match skip s with
    | '"' :: r =>
      match readText r with
      | .error f => .error f
      | .ok (t, r') => .ok (String.ofList t, r')
    | t => .error (mismatch "a string" t)
  progress := by
    intro s r a h
    split at h
    · rename_i hs
      have := length_of_skip_eq hs
      split at h
      · cases h
      · rename_i ht
        cases h
        have := length_of_readText ht
        simp only [List.length_cons] at *
        omega
    · cases h

/-- `true` and `false`. -/
def boolean : Reader Bool where
  run s :=
    match skip s with
    | 't' :: r =>
      match readWord ['r', 'u', 'e'] r with
      | .error f => .error f
      | .ok r' => .ok (true, r')
    | 'f' :: r =>
      match readWord ['a', 'l', 's', 'e'] r with
      | .error f => .error f
      | .ok r' => .ok (false, r')
    | t => .error (mismatch "a boolean" t)
  progress := by
    intro s r a h
    split at h
    · rename_i hs
      have := length_of_skip_eq hs
      split at h
      · cases h
      · rename_i ht
        cases h
        have := length_of_readWord ht
        simp only [List.length_cons] at *
        omega
    · rename_i hs
      have := length_of_skip_eq hs
      split at h
      · cases h
      · rename_i ht
        cases h
        have := length_of_readWord ht
        simp only [List.length_cons] at *
        omega
    · cases h

/-- `null`, or a value. -/
def optional (x : Reader α) : Reader (Option α) where
  run s :=
    match skip s with
    | 'n' :: r =>
      match readWord ['u', 'l', 'l'] r with
      | .error f => .error f
      | .ok r' => .ok (none, r')
    | _ => (x.map some).run s
  progress := by
    intro s r a h
    split at h
    · rename_i hs
      have := length_of_skip_eq hs
      split at h
      · cases h
      · rename_i ht
        cases h
        have := length_of_readWord ht
        simp only [List.length_cons] at *
        omega
    · exact (x.map some).progress h

end Reader

/-! ## Numbers -/

/-- Take the number that has been read, if it is accepted. -/
def takeNumber (accept : Number → Except Cause α) (x : Except Fault (Number × List Char)) :
    Except Fault (α × List Char) :=
  match x with
  | .error f => .error f
  | .ok (n, r) =>
    match accept n with
    | .error c => .error (.before r c)
    | .ok a => .ok (a, r)

theorem rest_of_takeNumber {accept : Number → Except Cause α} {x : Except Fault (Number × List Char)}
    {a : α} {r : List Char} (h : takeNumber accept x = .ok (a, r)) : ∃ n, x = .ok (n, r) := by
  unfold takeNumber at h
  split at h
  · cases h
  · split at h
    · cases h
    · cases h; exact ⟨_, rfl⟩

/-- An integer within bounds. -/
def acceptInteger (expected : String) (low high : Int) : Number → Except Cause Int
  | .natural n => if (n : Int) ≤ high then .ok n else .error (.wrongValue n expected)
  | .negative n => if low ≤ -n then .ok (-n) else .error (.wrongValue (-n) expected)
  | .real x => .error (.wrongType (.real x) expected)

/-- Any number, rounded to 32 bits. -/
def acceptSingle : Number → Except Cause Single
  | .natural n => .ok (.ofNat n)
  | .negative n => .ok (.ofInt (-n))
  | .real x => .ok x.convert

namespace Reader

/-- Numbers that are accepted. -/
def number (expected : String) (accept : Number → Except Cause α) : Reader α where
  run s :=
    match skip s with
    | '-' :: r => takeNumber accept (readNumber true r)
    | [] => .error (mismatch expected [])
    | c :: r =>
      if c.isDigit then takeNumber accept (readNumber false (c :: r))
      else .error (mismatch expected (c :: r))
  progress := by
    intro s r a h
    split at h
    · rename_i hs
      have := length_of_skip_eq hs
      obtain ⟨n, hn⟩ := rest_of_takeNumber h
      have := length_of_readNumber hn
      simp only [List.length_cons] at *
      omega
    · cases h
    · rename_i hs
      have := length_of_skip_eq hs
      split at h
      · obtain ⟨n, hn⟩ := rest_of_takeNumber h
        have := length_of_readNumber hn
        omega
      · cases h

/-- Integers within bounds. -/
def integer (expected : String) (low high : Int) : Reader Int :=
  number expected (acceptInteger expected low high)

/-- Natural numbers of 8 bits. -/
def natural8 : Reader UInt8 := (integer "u8" 0 (UInt8.size - 1 : Nat)).map fun n => UInt8.ofNat n.toNat

/-- Natural numbers of 32 bits. -/
def natural32 : Reader UInt32 :=
  (integer "u32" 0 (UInt32.size - 1 : Nat)).map fun n => UInt32.ofNat n.toNat

/-- Integers of 32 bits. -/
def integer32 : Reader Int32 :=
  (integer "i32" Int32.minValue.toInt Int32.maxValue.toInt).map Int32.ofInt

/-- Integers of 64 bits. -/
def integer64 : Reader Int64 :=
  (integer "i64" Int64.minValue.toInt Int64.maxValue.toInt).map Int64.ofInt

/-- Numbers, rounded to 32 bits. -/
def single : Reader Single := number "f32" acceptSingle

end Reader

/-! ## Lists -/

/-- Look for an element of a list, behind the opening bracket (`first`) or behind
    an element: the text from the element on (`true`), or the text behind the
    closing bracket (`false`). -/
def nextElement (first : Bool) (s : List Char) : Except Fault (Bool × List Char) :=
  match skip s with
  | [] => .error (.before [] .endOfList)
  | c :: r =>
    if c = ']' then .ok (false, r)
    else if first then .ok (true, c :: r)
    else if c = ',' then
      match skip r with
      | [] => .error (.before [] .endOfValue)
      | d :: t => if d = ']' then .error (.within (d :: t) .trailingComma) else .ok (true, d :: t)
    else .error (.within (c :: r) .expectedListEnd)

theorem length_of_nextElement {first : Bool} {s r : List Char} {more : Bool}
    (h : nextElement first s = .ok (more, r)) : r.length ≤ s.length := by
  unfold nextElement at h
  split at h
  · cases h
  · rename_i c t hs
    have h₁ := length_of_skip_eq hs
    simp only [List.length_cons] at h₁
    split at h
    · cases h; omega
    · split at h
      · cases h; exact h₁
      · split at h
        · split at h
          · cases h
          · rename_i d u hu
            have h₂ := length_of_skip_eq hu
            split at h
            · cases h
            · cases h; omega
        · cases h

/-- Read the elements of a list up to its closing bracket. -/
def readElements (x : Reader α) (first : Bool) (s : List Char) :
    Except Fault (List α × List Char) :=
  match h : nextElement first s with
  | .error f => .error f
  | .ok (false, r) => .ok ([], r)
  | .ok (true, r) =>
    match h' : x.run r with
    | .error f => .error f
    | .ok (a, r') =>
      have := length_of_nextElement h
      have := x.progress h'
      match readElements x false r' with
      | .error f => .error f
      | .ok (as, r'') => .ok (a :: as, r'')
termination_by s.length

theorem length_of_readElements {x : Reader α} {first : Bool} {s r : List Char} {as : List α}
    (h : readElements x first s = .ok (as, r)) : r.length ≤ s.length := by
  fun_induction readElements x first s generalizing as r with
  | case1 => cases h
  | case2 first s r₁ hn =>
    cases h
    exact length_of_nextElement hn
  | case3 => cases h
  | case4 => cases h
  | case5 first s r₁ hn a r₂ hx _ _ as' r₃ hr ih =>
    cases h
    have := ih hr
    omega

namespace Reader

/-- Lists. -/
def list (x : Reader α) : Reader (List α) where
  run s :=
    match skip s with
    | '[' :: r => readElements x true r
    | t => .error (mismatch "a sequence" t)
  progress := by
    intro s r a h
    split at h
    · rename_i hs
      have := length_of_skip_eq hs
      have := length_of_readElements h
      simp only [List.length_cons] at *
      omega
    · cases h

end Reader

/-! ## Whole texts -/

/-- Read a value with nothing but space behind it. -/
def readAll (x : Reader α) (s : List Char) : Except Fault α :=
  match x.run s with
  | .error f => .error f
  | .ok (a, r) =>
    match skip r with
    | [] => .ok a
    | t => .error (.within t .trailingCharacters)

/-- Read a text with nothing but space around its value. -/
def read (x : Reader α) (s : String) : Except Located α :=
  (readAll x s.toList).mapError (Fault.locate s.toList)

end SignGloss.Json
