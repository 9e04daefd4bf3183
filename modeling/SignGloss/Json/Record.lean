/-
  Records.

  * a `Field` is a member with a name, a codec and perhaps a value to take if the
    member is left out, and `Fields` are the members of a record in order;
  * `Slots` hold what has been read of each member so far, and `Fields.build`
    gives them to a function (`Build`) once all that is needed is there;
  * `Reader.record` reads a record from its members in any order (`readMembers`),
    where members that it does not know are skipped, or from a list of the values
    in the order of the fields (`readInOrder`);
  * `Codec.record` also writes records, all members in the order of the fields.
-/
import SignGloss.Json.Codec

namespace SignGloss.Json

variable {α β : Type} {αs : List Type}

/-- A member of a record. -/
structure Field (α : Type) where
  name : String
  codec : Codec α
  /-- The value of a member that is left out. -/
  default? : Option α := none
  /-- A value for which the member is not written. -/
  omits : α → Bool := fun _ => false

/-- The members of a record in order, by their types. -/
inductive Fields : List Type → Type 1
  | nil : Fields []
  | cons {α : Type} {αs : List Type} (f : Field α) (fs : Fields αs) : Fields (α :: αs)

namespace Fields

/-- A field that must be there. -/
def required (name : String) (c : Codec α) (fs : Fields αs) : Fields (α :: αs) :=
  .cons { name, codec := c } fs

/-- A field that may be left out. -/
def defaulted (name : String) (c : Codec α) (default : α) (fs : Fields αs) : Fields (α :: αs) :=
  .cons { name, codec := c, default? := some default } fs

/-- A field without a value where it is left out, as it is in writing. -/
def absent (name : String) (c : Codec α) (fs : Fields αs) : Fields (Option α :: αs) :=
  .cons { name, codec := c.optional, default? := some none, omits := Option.isNone } fs

/-- The number of fields. -/
def count : {αs : List Type} → Fields αs → Nat
  | [], .nil => 0
  | _ :: _, .cons _ fs => fs.count + 1

end Fields

/-- The values that have been read, by field. -/
def Slots : List Type → Type
  | [] => Unit
  | α :: αs => Option α × Slots αs

/-- No value has been read. -/
def Slots.empty : (αs : List Type) → Slots αs
  | [] => ()
  | _ :: αs => (none, empty αs)

/-- One value for each field. -/
def Values : List Type → Type
  | [] => Unit
  | α :: αs => α × Values αs

/-- A function of one value for each field. -/
def Build : List Type → Type → Type
  | [], β => β
  | α :: αs, β => α → Build αs β

namespace Fields

/-- Build a record, or say which field is the first to be missing, where `i`
    fields come before these. -/
def build (i : Nat) :
    {αs : List Type} → Fields αs → Slots αs → Build αs β → Except (Nat × String) β
  | [], .nil, _, b => .ok b
  | _ :: _, .cons f fs, (v, vs), b =>
    match v.or f.default? with
    | some a => fs.build (i + 1) vs (b a)
    | none => .error (i, f.name)

/-- The members of a record that is written. -/
def members : {αs : List Type} → Fields αs → Values αs → List (String × Value)
  | [], .nil, _ => []
  | _ :: _, .cons f fs, (a, as) =>
    if f.omits a then fs.members as else (f.name, f.codec.value a) :: fs.members as

end Fields

/-! ## Members -/

/-- What a key means where some members have been read. -/
inductive Meaning (σ : Type) where
  /-- no field has this name -/
  | unknown
  /-- the field has been read -/
  | again
  /-- the value of a field comes next -/
  | value (read : Reader σ)

/-- The same for the fields of a larger record. -/
def Meaning.map {σ τ : Type} (f : σ → τ) : Meaning σ → Meaning τ
  | unknown => unknown
  | again => again
  | value x => value (x.map f)

/-- What a key means for some fields. -/
def Fields.meaning (key : String) : {αs : List Type} → Fields αs → Slots αs → Meaning (Slots αs)
  | [], .nil, _ => .unknown
  | _ :: _, .cons f fs, (v, vs) =>
    if f.name = key then
      match v with
      | some _ => .again
      | none => .value (f.codec.reader.map fun a => (some a, vs))
    else (fs.meaning key vs).map fun vs' => (v, vs')

/-- Read the key of a member, or the end of the record (`none`).  The member is
    the first one or stands behind another. -/
def nextKey (first : Bool) (s : List Char) : Except Fault (Option String × List Char) :=
  match skip s with
  | [] => .error (.before [] .endOfRecord)
  | c :: r =>
    if c = '}' then .ok (none, r)
    else if first then key c r
    else if c = ',' then
      match skip r with
      | [] => .error (.before [] .endOfValue)
      | d :: t => if d = '}' then .error (.within (d :: t) .trailingComma) else key d t
    else .error (.within (c :: r) .expectedRecordEnd)
where
  /-- Read a key that starts with the character `c`. -/
  key (c : Char) (r : List Char) : Except Fault (Option String × List Char) :=
    if c = '"' then
      match readText r with
      | .error f => .error f
      | .ok (t, r') => .ok (some (String.ofList t), r')
    else .error (.within (c :: r) .keyNotText)

theorem length_of_key {c : Char} {s r : List Char} {k : Option String}
    (h : nextKey.key c s = .ok (k, r)) : r.length < s.length := by
  unfold nextKey.key at h
  split at h
  · split at h
    · cases h
    · rename_i ht
      cases h
      exact length_of_readText ht
  · cases h

theorem length_of_nextKey {first : Bool} {s r : List Char} {k : Option String}
    (h : nextKey first s = .ok (k, r)) : r.length < s.length := by
  unfold nextKey at h
  split at h
  · cases h
  · rename_i c t hs
    have h₁ := length_of_skip_eq hs
    simp only [List.length_cons] at h₁
    split at h
    · cases h; omega
    · split at h
      · have := length_of_key h; omega
      · split at h
        · split at h
          · cases h
          · rename_i d u hu
            have h₂ := length_of_skip_eq hu
            simp only [List.length_cons] at h₂
            split at h
            · cases h
            · have := length_of_key h; omega
        · cases h

/-- The fault of a key that has occurred before, with what is left behind it.
    Space and a closing brace still count as read. -/
def duplicate (key : String) (s : List Char) : Fault :=
  match skip s with
  | '}' :: r => .before r (.duplicateField key)
  | r => .before r (.duplicateField key)

/-- Read the value of a member behind its key. -/
def readMember (fs : Fields αs) (vs : Slots αs) (key : String) (s : List Char) :
    Except Fault (Slots αs × List Char) :=
  match fs.meaning key vs with
  | .again => .error (duplicate key s)
  | .unknown =>
    match readColon s with
    | .error f => .error f
    | .ok r => (skipValue r).map fun r' => (vs, r')
  | .value x =>
    match readColon s with
    | .error f => .error f
    | .ok r => x.run r

theorem length_of_readMember {fs : Fields αs} {vs vs' : Slots αs} {key : String}
    {s r : List Char} (h : readMember fs vs key s = .ok (vs', r)) : r.length < s.length := by
  unfold readMember at h
  split at h
  · cases h
  · split at h
    · cases h
    · rename_i t ht
      have := length_of_readColon ht
      cases hv : skipValue t with
      | error f => rw [hv] at h; cases h
      | ok u =>
        rw [hv] at h
        cases h
        have := length_of_skipValue hv
        omega
  · rename_i x _
    split at h
    · cases h
    · rename_i t ht
      have := length_of_readColon ht
      have := x.progress h
      omega

/-- Read the members of a record up to its closing brace. -/
def readMembers (fs : Fields αs) (vs : Slots αs) (first : Bool) (s : List Char) :
    Except Fault (Slots αs × List Char) :=
  match h : nextKey first s with
  | .error f => .error f
  | .ok (none, r) => .ok (vs, r)
  | .ok (some key, r) =>
    match h' : readMember fs vs key r with
    | .error f => .error f
    | .ok (vs', r') =>
      have := length_of_nextKey h
      have := length_of_readMember h'
      readMembers fs vs' false r'
termination_by s.length

theorem length_of_readMembers {fs : Fields αs} {vs vs' : Slots αs} {first : Bool}
    {s r : List Char} (h : readMembers fs vs first s = .ok (vs', r)) : r.length < s.length := by
  fun_induction readMembers fs vs first s with
  | case1 => cases h
  | case2 vs first s r₁ hn =>
    cases h
    exact length_of_nextKey hn
  | case3 => cases h
  | case4 vs first s key r₁ hn vs₁ r₂ hm _ _ ih =>
    have := ih h
    omega

/-! ## Lists of values -/

/-- Read the closing bracket of a list that should have no more elements. -/
def endList (s : List Char) : Except Fault (List Char) :=
  match skip s with
  | [] => .error (.before [] .endOfList)
  | c :: r =>
    if c = ']' then .ok r
    else if c = ',' then
      match skip r with
      | ']' :: t => .error (.within (']' :: t) .trailingComma)
      | t => .error (.within t .trailingCharacters)
    else .error (.within (c :: r) .trailingCharacters)

theorem length_of_endList {s r : List Char} (h : endList s = .ok r) : r.length < s.length := by
  unfold endList at h
  split at h
  · cases h
  · rename_i c t hs
    have := length_of_skip_eq hs
    simp only [List.length_cons] at this
    split at h
    · cases h; omega
    · split at h
      · split at h <;> cases h
      · cases h

/-- Read values in the order of fields up to the end of the list. -/
def readInOrder :
    {αs : List Type} → Fields αs → Bool → List Char → Except Fault (Slots αs × List Char)
  | [], .nil, _, s => (endList s).map fun r => ((), r)
  | _ :: αs, .cons f fs, first, s =>
    match nextElement first s with
    | .error e => .error e
    | .ok (false, r) => .ok ((none, .empty αs), r)
    | .ok (true, r) =>
      match f.codec.reader.run r with
      | .error e => .error e
      | .ok (a, r') => (readInOrder fs false r').map fun p => ((some a, p.1), p.2)

theorem length_of_readInOrder {fs : Fields αs} {vs : Slots αs} {first : Bool} {s r : List Char}
    (h : readInOrder fs first s = .ok (vs, r)) : r.length ≤ s.length := by
  induction fs generalizing first s with
  | nil =>
    rw [readInOrder] at h
    cases he : endList s with
    | error f => rw [he] at h; cases h
    | ok t =>
      rw [he] at h
      cases h
      exact Nat.le_of_lt (length_of_endList he)
  | cons f fs ih =>
    rw [readInOrder] at h
    split at h
    · cases h
    · rename_i hn
      cases h
      exact length_of_nextElement hn
    · rename_i t hn
      have h₁ := length_of_nextElement hn
      split at h
      · cases h
      · rename_i a u hu
        have h₂ := f.codec.reader.progress hu
        cases hr : readInOrder fs false u with
        | error f => rw [hr] at h; cases h
        | ok p =>
          obtain ⟨vs', r'⟩ := p
          rw [hr] at h
          cases h
          have := ih hr
          omega

/-! ## Records -/

/-- Build a record from its members, with a fault behind them if one is missing. -/
def finish (fs : Fields αs) (build : Build αs β) (cause : Nat × String → Cause)
    (x : Except Fault (Slots αs × List Char)) : Except Fault (β × List Char) :=
  match x with
  | .error f => .error f
  | .ok (vs, r) =>
    match fs.build 0 vs build with
    | .error e => .error (.before r (cause e))
    | .ok b => .ok (b, r)

theorem rest_of_finish {fs : Fields αs} {build : Build αs β} {cause : Nat × String → Cause}
    {x : Except Fault (Slots αs × List Char)} {b : β} {r : List Char}
    (h : finish fs build cause x = .ok (b, r)) : ∃ vs, x = .ok (vs, r) := by
  unfold finish at h
  split at h
  · cases h
  · split at h
    · cases h
    · cases h; exact ⟨_, rfl⟩

/-- Records with a title, by which messages call them. -/
def Reader.record (title : String) (fs : Fields αs) (build : Build αs β) : Reader β where
  run s :=
    match skip s with
    | '[' :: r =>
      finish fs build (fun e => .wrongLength e.1 title fs.count) (readInOrder fs true r)
    | '{' :: r =>
      finish fs build (fun e => .missingField e.2) (readMembers fs (.empty αs) true r)
    | t => .error (mismatch ("struct " ++ title) t)
  progress := by
    intro s r b h
    split at h
    · rename_i hs
      have := length_of_skip_eq hs
      obtain ⟨vs, hv⟩ := rest_of_finish h
      have := length_of_readInOrder hv
      simp only [List.length_cons] at *
      omega
    · rename_i hs
      have := length_of_skip_eq hs
      obtain ⟨vs, hv⟩ := rest_of_finish h
      have := length_of_readMembers hv
      simp only [List.length_cons] at *
      omega
    · cases h

/-- Records with a title, which are built from the values of their fields and
    have these as their parts. -/
def Codec.record (title : String) (fs : Fields αs) (build : Build αs β) (parts : β → Values αs) :
    Codec β where
  reader := .record title fs build
  value b := .record (fs.members (parts b))

end SignGloss.Json
