/-
  Skipping values of JSON texts.

  `skipValue` reads past a value of any kind and checks no more than its form.
  The brackets that are open are kept in a list, so that nesting has no limit,
  and `Stage` says what comes next.

  Main statement: `length_of_skipValue`, what is left is shorter.
-/
import SignGloss.Json.Number

namespace SignGloss.Json

/-- An open bracket. -/
inductive Bracket where
  | list
  | record
deriving Repr, DecidableEq

namespace Bracket

/-- The character that closes the bracket. -/
def closing : Bracket → Char
  | list => ']'
  | record => '}'

/-- The text ended inside the bracket. -/
def unclosed : Bracket → Cause
  | list => .endOfList
  | record => .endOfRecord

/-- Behind a member there is neither a comma nor the closing bracket. -/
def unfinished : Bracket → Cause
  | list => .expectedListEnd
  | record => .expectedRecordEnd

end Bracket

/-- What comes next while a value is skipped. -/
inductive Stage where
  /-- a value -/
  | value
  /-- the key of a member -/
  | key
  /-- the first member of a bracket, or its end -/
  | first (b : Bracket)
  /-- what follows a value -/
  | after
deriving Repr, DecidableEq

namespace Stage

/-- What a member of a bracket starts with. -/
def member : Bracket → Stage
  | .list => value
  | .record => key

/-- A measure for stages that go on without reading. -/
def rank : Stage → Nat
  | first _ => 1
  | value | key | after => 0

end Stage

theorem Stage.rank_member (b : Bracket) : (Stage.member b).rank = 0 := by cases b <;> rfl

/-- Skip the key of a member and the colon behind it. -/
def skipKey (s : List Char) : Except Fault (List Char) :=
  match skip s with
  | [] => .error (.before [] .endOfRecord)
  | '"' :: r =>
    match skipText r with
    | .error f => .error f
    | .ok r' => readColon r'
  | r => .error (.within r .keyNotText)

theorem length_of_skipKey {s r : List Char} (h : skipKey s = .ok r) : r.length < s.length := by
  unfold skipKey at h
  split at h
  · cases h
  · rename_i t ht
    have h₁ := length_of_skip_eq ht
    simp only [List.length_cons] at h₁
    split at h
    · cases h
    · rename_i r' hr
      have := length_of_skipText hr
      have := length_of_readColon h
      omega
  · cases h

/-- Skip a value that is neither a list nor a record. -/
def skipScalar : List Char → Except Fault (List Char)
  | 'n' :: s => readWord ['u', 'l', 'l'] s
  | 't' :: s => readWord ['r', 'u', 'e'] s
  | 'f' :: s => readWord ['a', 'l', 's', 'e'] s
  | '"' :: s => skipText s
  | '-' :: s => skipNumber s
  | c :: s => if c.isDigit then skipNumber (c :: s) else .error (.within (c :: s) .expectedValue)
  | [] => .error (.before [] .endOfValue)

theorem length_of_skipScalar {s r : List Char} (h : skipScalar s = .ok r) :
    r.length < s.length := by
  unfold skipScalar at h
  split at h
  · have := length_of_readWord h; simp only [List.length_cons]; omega
  · have := length_of_readWord h; simp only [List.length_cons]; omega
  · have := length_of_readWord h; simp only [List.length_cons]; omega
  · have := length_of_skipText h; simp only [List.length_cons]; omega
  · have := length_of_skipNumber h; simp only [List.length_cons]; omega
  · split at h
    · exact length_of_skipNumber h
    · cases h
  · cases h

/-- Skip a text from a stage on, up to the end of the outermost value, where the
    brackets `bs` are open, the innermost first. -/
def skipFrom (stage : Stage) (bs : List Bracket) (s : List Char) : Except Fault (List Char) :=
  match stage with
  | .value =>
    match h : skip s with
    | '[' :: r =>
      have := length_of_skip_eq h
      skipFrom (.first .list) (.list :: bs) r
    | '{' :: r =>
      have := length_of_skip_eq h
      skipFrom (.first .record) (.record :: bs) r
    | t =>
      have := length_of_skip_eq h
      match h' : skipScalar t with
      | .error f => .error f
      | .ok r =>
        have := length_of_skipScalar h'
        skipFrom .after bs r
  | .key =>
    match h : skipKey s with
    | .error f => .error f
    | .ok r =>
      have := length_of_skipKey h
      skipFrom .value bs r
  | .first b =>
    match h : skip s with
    | [] => .error (.before [] b.unclosed)
    | c :: r =>
      have := length_of_skip_eq h
      if c = b.closing then skipFrom .after bs.tail r else skipFrom (.member b) bs (c :: r)
  | .after =>
    match bs with
    | [] => .ok s
    | b :: bs' =>
      match h : skip s with
      | [] => .error (.before [] b.unclosed)
      | c :: r =>
        have := length_of_skip_eq h
        if c = ',' then skipFrom (.member b) (b :: bs') r
        else if c = b.closing then skipFrom .after bs' r
        else .error (.within (c :: r) b.unfinished)
termination_by 2 * s.length + stage.rank
decreasing_by
  all_goals
    try rw [Stage.rank_member]
    simp only [Stage.rank, List.length_cons] at *
    omega

theorem length_of_skipFrom {stage : Stage} {bs : List Bracket} {s r : List Char}
    (h : skipFrom stage bs s = .ok r) :
    r.length ≤ s.length ∧ (stage = .value → r.length < s.length) := by
  fun_induction skipFrom stage bs s with
  | case1 bs s r₁ hs _ ih =>
    have := length_of_skip_eq hs
    have := (ih h).1
    simp only [List.length_cons] at *
    exact ⟨by omega, fun _ => by omega⟩
  | case2 bs s r₁ hs _ ih =>
    have := length_of_skip_eq hs
    have := (ih h).1
    simp only [List.length_cons] at *
    exact ⟨by omega, fun _ => by omega⟩
  | case3 => cases h
  | case4 bs s _ _ _ r₁ hr _ ih =>
    have := length_skip s
    have := length_of_skipScalar hr
    have := (ih h).1
    exact ⟨by omega, fun _ => by omega⟩
  | case5 => cases h
  | case6 bs s r₁ hr _ ih =>
    have := length_of_skipKey hr
    have := (ih h).1
    exact ⟨by omega, fun h' => by cases h'⟩
  | case7 => cases h
  | case8 bs s b r₁ hs _ ih =>
    have := length_of_skip_eq hs
    have := (ih h).1
    simp only [List.length_cons] at *
    exact ⟨by omega, fun h' => by cases h'⟩
  | case9 bs s b c r₁ hs _ _ ih =>
    have := length_of_skip_eq hs
    have := (ih h).1
    exact ⟨by omega, fun h' => by cases h'⟩
  | case10 => cases h; exact ⟨Nat.le_refl _, fun h' => by cases h'⟩
  | case11 => cases h
  | case12 s b bs r₁ hs _ ih =>
    have := length_of_skip_eq hs
    have := (ih h).1
    simp only [List.length_cons] at *
    exact ⟨by omega, fun h' => by cases h'⟩
  | case13 s b bs r₁ hs _ _ ih =>
    have := length_of_skip_eq hs
    have := (ih h).1
    simp only [List.length_cons] at *
    exact ⟨by omega, fun h' => by cases h'⟩
  | case14 => cases h

/-- Skip a value. -/
def skipValue (s : List Char) : Except Fault (List Char) := skipFrom .value [] s

theorem length_of_skipValue {s r : List Char} (h : skipValue s = .ok r) :
    r.length < s.length :=
  (length_of_skipFrom h).2 rfl

end SignGloss.Json
