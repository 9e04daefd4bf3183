/-
  Records are read as they were written.

  * `Field.Restores f a`: the value `a` of a field is restored by its codec, or is
    not written and is the one to take for a member that is left out;
  * `Filling fs vs ms vs'`: reading the members `ms` one by one turns the slots `vs`
    into `vs'`.  Members of some fields leave those of others alone
    (`Filling.cons_field`), so that the members of a record fill its slots one after
    the other (`filling_members`);
  * `Members fs vs first s keys vs' r`: the members with the keys `keys`, in this
    order, are read from the text `s`, and `r` is left of it (`readMembers_eq_ok_iff`);
  * `Build.apply`: what a record is built of values (`build_filled`).

  Main statement: a record is restored if its fields are, where these have different
  names (`restores_record`).
-/
import SignGloss.Json.Record
import SignGloss.Proofs.WrittenValues

namespace SignGloss.Json

variable {α β : Type} {αs : List Type} {fs : Fields αs} {vs vs' vs₁ : Slots αs} {w r s t : List Char}
  {key : String} {keys : List String} {v : Value} {ms : List (String × Value)} {first : Bool}

/-! ## Fields -/

/-- The value of a field is restored, or left out and taken again. -/
def Field.Restores (f : Field α) (a : α) : Prop :=
  (f.omits a = false ∧ f.codec.Restores a) ∨ (f.omits a = true ∧ f.default? = some a)

/-- One value more. -/
def Values.cons (a : α) (as : Values αs) : Values (α :: αs) := (a, as)

/-- One slot more. -/
def Slots.cons (o : Option α) (vs : Slots αs) : Slots (α :: αs) := (o, vs)

namespace Fields

/-- The names of fields. -/
def names : {αs : List Type} → Fields αs → List String
  | [], .nil => []
  | _ :: _, .cons f fs => f.name :: fs.names

/-- The value of each field is restored. -/
def Restores : {αs : List Type} → Fields αs → Values αs → Prop
  | [], .nil, _ => True
  | _ :: _, .cons f fs, (a, as) => f.Restores a ∧ fs.Restores as

/-- The slots once all members of a record have been read. -/
def filled : {αs : List Type} → Fields αs → Values αs → Slots αs
  | [], .nil, _ => ()
  | _ :: _, .cons f fs, (a, as) => .cons (if f.omits a then none else some a) (fs.filled as)

end Fields

/-- The function of the values. -/
def Build.apply : {αs : List Type} → Build αs β → Values αs → β
  | [], b, _ => b
  | _ :: _, b, (a, as) => apply (b a) as

section
variable {f : Field α} {a : α} {as : Values αs} {o : Option α} {i : Nat}

theorem members_cons_of_omits (h : f.omits a = true) :
    (Fields.cons f fs).members (.cons a as) = fs.members as := if_pos h

theorem members_cons (h : f.omits a = false) : (Fields.cons f fs).members (.cons a as) =
    (f.name, f.codec.value a) :: fs.members as := if_neg (by simp [h])

theorem build_cons {b : Build (α :: αs) β} (h : o.or f.default? = some a) :
    (Fields.cons f fs).build i (.cons o vs) b = fs.build (i + 1) vs (b a) := by
  simp only [Fields.build, Slots.cons]
  rw [h]

theorem meaning_cons_of_ne (h : f.name ≠ key) : (Fields.cons f fs).meaning key (.cons o vs) =
    (fs.meaning key vs).map fun vs' => .cons o vs' := if_neg h

theorem meaning_cons : (Fields.cons f fs).meaning f.name (.cons none vs) =
    .value (f.codec.reader.map fun a => .cons (some a) vs) := if_pos rfl

theorem meaning_cons_again : (Fields.cons f fs).meaning f.name (.cons (some a) vs) = .again :=
  if_pos rfl

/-- The key is the name of a field without a value, and the reader gives it one. -/
inductive Fields.Fills (key : String) :
    {αs : List Type} → Fields αs → Slots αs → Reader (Slots αs) → Prop
  | here {α : Type} {αs : List Type} {f : Field α} {fs : Fields αs} {vs : Slots αs} :
      f.name = key →
      Fills key (.cons f fs) (.cons none vs) (f.codec.reader.map fun a => .cons (some a) vs)
  | there {α : Type} {αs : List Type} {f : Field α} {fs : Fields αs} {o : Option α}
      {vs : Slots αs} {x : Reader (Slots αs)} : f.name ≠ key → Fills key fs vs x →
      Fills key (.cons f fs) (.cons o vs) (x.map fun vs' => .cons o vs')

theorem fills_of_meaning {x : Reader (Slots αs)} (h : fs.meaning key vs = .value x) :
    fs.Fills key vs x := by
  induction fs with
  | nil => cases h
  | @cons α αs f fs ih =>
    obtain ⟨o, vs⟩ := vs
    by_cases hname : f.name = key
    · subst hname
      cases o with
      | some a => cases meaning_cons_again.symm.trans h
      | none =>
        cases meaning_cons.symm.trans h
        exact .here rfl
    · have hrest := (meaning_cons_of_ne (o := o) hname).symm.trans h
      cases hm : fs.meaning key vs with
      | unknown | again =>
        rw [hm] at hrest
        cases hrest
      | value y =>
        rw [hm] at hrest
        cases hrest
        exact .there hname (ih hm)

/-- A record can be built from the slots of values that are restored. -/
theorem build_filled {b : Build αs β} (h : fs.Restores as) :
    fs.build i (fs.filled as) b = .ok (b.apply as) := by
  induction fs generalizing i with
  | nil => rfl
  | cons f fs ih =>
    obtain ⟨a, as⟩ := as
    obtain ⟨ha, has⟩ := h
    have hslot : (if f.omits a then none else some a).or f.default? = some a := by
      rcases ha with ⟨homits, -⟩ | ⟨homits, hdefault⟩
      · simp [homits]
      · simp [homits, hdefault]
    exact (build_cons hslot).trans (ih has)

end

/-! ### The kinds of fields -/

namespace Fields

variable {name : String} {c : Codec α} {a : α} {as : Values αs}

theorem restores_nil : Fields.nil.Restores () := trivial

theorem restores_required (h : c.Restores a) (hs : fs.Restores as) :
    (required name c fs).Restores (.cons a as) := ⟨Or.inl ⟨rfl, h⟩, hs⟩

theorem restores_defaulted {default : α} (h : c.Restores a) (hs : fs.Restores as) :
    (defaulted name c default fs).Restores (.cons a as) := ⟨Or.inl ⟨rfl, h⟩, hs⟩

/-- What is not there is left out, and taken to be not there. -/
theorem restores_absent {o : Option α} (h : c.optional.Restores o) (hs : fs.Restores as) :
    (absent name c fs).Restores (.cons o as) := by
  refine ⟨?_, hs⟩
  cases o with
  | none => exact Or.inr ⟨rfl, rfl⟩
  | some a => exact Or.inl ⟨rfl, h⟩

end Fields

/-! ## Filling slots -/

/-- Reading the members turns some slots into others. -/
inductive Filling (fs : Fields αs) : Slots αs → List (String × Value) → Slots αs → Prop
  | nil (vs : Slots αs) : Filling fs vs [] vs
  | cons {vs vs₁ vs' : Slots αs} {key : String} {x : Reader (Slots αs)} {v : Value}
      {ms : List (String × Value)} : fs.meaning key vs = .value x →
      (∀ d {w r}, Blank w → Ended r → x.run (w ++ (v.write d ++ r)) = .ok (vs₁, r)) →
      Filling fs vs₁ ms vs' → Filling fs vs ((key, v) :: ms) vs'

/-- A field more does not matter to members with other names. -/
theorem Filling.cons_field {f : Field α} {o : Option α} (h : Filling fs vs ms vs')
    (hname : ∀ m ∈ ms, m.1 ≠ f.name) : Filling (.cons f fs) (.cons o vs) ms (.cons o vs') := by
  induction h with
  | nil vs => exact .nil _
  | @cons vs vs₁ vs' key x v ms hkey hreads _ ih =>
    obtain ⟨hne, hrest⟩ := List.forall_mem_cons.1 hname
    have hmeaning : (Fields.cons f fs).meaning key (.cons o vs) =
        .value (x.map fun vs' => .cons o vs') := by
      rw [meaning_cons_of_ne (Ne.symm hne), hkey]
      rfl
    refine .cons hmeaning (fun d w r hw hr => ?_) (ih hrest)
    simp only [Reader.map, hreads d hw hr]

theorem name_of_mem_members {as : Values αs} {m : String × Value} (h : m ∈ fs.members as) :
    m.1 ∈ fs.names := by
  induction fs with
  | nil => cases h
  | cons f fs ih =>
    obtain ⟨a, as⟩ := as
    rw [Fields.members] at h
    split at h
    · exact List.mem_cons_of_mem _ (ih h)
    · rcases List.mem_cons.1 h with rfl | h
      · exact List.mem_cons_self
      · exact List.mem_cons_of_mem _ (ih h)

/-- The members of a record fill its slots. -/
theorem filling_members {as : Values αs} (h : fs.Restores as) (hnames : fs.names.Nodup) :
    Filling fs (.empty αs) (fs.members as) (fs.filled as) := by
  induction fs with
  | nil => exact .nil _
  | @cons α αs f fs ih =>
    obtain ⟨a, as⟩ := as
    obtain ⟨ha, has⟩ := h
    obtain ⟨hname, hnames⟩ := List.nodup_cons.1 hnames
    have hother : ∀ m ∈ fs.members as, m.1 ≠ f.name := fun m hm heq =>
      hname (heq ▸ name_of_mem_members hm)
    have hrest := ih has hnames
    change Filling _ (Slots.cons none (.empty αs)) ((Fields.cons f fs).members (.cons a as))
      (.cons (if f.omits a then none else some a) (fs.filled as))
    rcases ha with ⟨homits, ha⟩ | ⟨homits, -⟩
    · rw [members_cons homits, homits, if_neg Bool.false_ne_true]
      refine .cons meaning_cons (fun d w r hw hr => ?_) (hrest.cons_field hother)
      simp only [Reader.map, ha.reads d hw hr]
    · rw [members_cons_of_omits homits, if_pos homits]
      exact hrest.cons_field hother

/-! ## Reading members -/

theorem readMembers_of_end (h : nextKey first s = .ok (none, r)) :
    readMembers fs vs first s = .ok (vs, r) := by
  rw [readMembers]
  split
  · rename_i hn
    cases h.symm.trans hn
  · rename_i hn
    cases h.symm.trans hn
    rfl
  · rename_i hn
    cases h.symm.trans hn

theorem readMembers_cons (h : nextKey first s = .ok (some key, t))
    (hm : readMember fs vs key t = .ok (vs₁, w)) :
    readMembers fs vs first s = readMembers fs vs₁ false w := by
  conv => lhs; rw [readMembers]
  split
  · rename_i hn
    cases h.symm.trans hn
  · rename_i hn
    cases h.symm.trans hn
  · rename_i hn
    cases h.symm.trans hn
    split
    · rename_i hx
      cases hm.symm.trans hx
    · rename_i hx
      cases hm.symm.trans hx
      rfl

/-- Members with the given keys are read, in their order, up to the end of the record. -/
inductive Members (fs : Fields αs) :
    Slots αs → Bool → List Char → List String → Slots αs → List Char → Prop
  | done {vs : Slots αs} {first : Bool} {s r : List Char} :
      nextKey first s = .ok (none, r) → Members fs vs first s [] vs r
  | member {vs vs₁ vs' : Slots αs} {first : Bool} {s t u r : List Char} {key : String}
      {keys : List String} : nextKey first s = .ok (some key, t) →
      readMember fs vs key t = .ok (vs₁, u) → Members fs vs₁ false u keys vs' r →
      Members fs vs first s (key :: keys) vs' r

theorem Members.readMembers_eq (h : Members fs vs first s keys vs' r) :
    readMembers fs vs first s = .ok (vs', r) := by
  induction h with
  | done h => exact readMembers_of_end h
  | member h hm _ ih => exact (readMembers_cons h hm).trans ih

/-- What is read are members with some keys. -/
theorem readMembers_eq_ok_iff :
    readMembers fs vs first s = .ok (vs', r) ↔ ∃ keys, Members fs vs first s keys vs' r := by
  constructor
  · intro h
    fun_induction readMembers fs vs first s with
    | case1 | case3 => cases h
    | case2 vs first s t hn =>
      cases h
      exact ⟨[], .done hn⟩
    | case4 vs first s key t hn vs₁ u hm _ _ ih =>
      obtain ⟨keys, hkeys⟩ := ih h
      exact ⟨key :: keys, .member hn hm hkeys⟩
  · rintro ⟨keys, h⟩
    exact h.readMembers_eq

/-! ### Keys -/

section
variable {k : String} {ch : Char} {x : Reader (Slots αs)}

theorem key_writeText (k : String) (r : List Char) : ∃ t, writeText k ++ r = '"' :: t ∧
    nextKey.key '"' t = .ok (some k, r) := by
  refine ⟨_, writeText_append k r, ?_⟩
  simp [nextKey.key, readText_escaped]

/-- The key of the first member. -/
theorem nextKey_first (d : Spread) (k : String) (r : List Char) :
    nextKey true (d.lineStart ++ (writeText k ++ r)) = .ok (some k, r) := by
  obtain ⟨t, ht, hkey⟩ := key_writeText k r
  have hskip : skip (d.lineStart ++ '"' :: t) = '"' :: t :=
    skip_blank_append (blank_lineStart d) (by decide)
  rw [ht, nextKey, hskip]
  simp [hkey]

/-- The key of a member behind another. -/
theorem nextKey_later (d : Spread) (k : String) (r : List Char) :
    nextKey false (',' :: (d.lineStart ++ (writeText k ++ r))) = .ok (some k, r) := by
  obtain ⟨t, ht, hkey⟩ := key_writeText k r
  have hskip : skip (d.lineStart ++ '"' :: t) = '"' :: t :=
    skip_blank_append (blank_lineStart d) (by decide)
  have hcomma : ∀ t', skip (',' :: t') = ',' :: t' := fun t' => skip_cons (by decide)
  rw [ht, nextKey, hcomma]
  simp [hskip, hkey]

theorem nextKey_end (hw : Blank w) : nextKey first (w ++ '}' :: r) = .ok (none, r) := by
  have hskip : skip (w ++ '}' :: r) = '}' :: r := skip_blank_append hw (by decide)
  rw [nextKey, hskip]
  simp

/-! ### Members -/

/-- A colon, perhaps with a space behind it. -/
theorem readColon_colon (d : Spread) : ∃ w, Blank w ∧ ∀ s, readColon (d.colon ++ s) = .ok (w ++ s) := by
  have hcolon : ∀ s, skip (':' :: s) = ':' :: s := fun s => skip_cons (by decide)
  cases d with
  | none => exact ⟨[], blank_nil, fun s => by simp [Spread.colon, readColon, hcolon]⟩
  | some n =>
    refine ⟨[' '], fun c hc => ?_, fun s => by simp [Spread.colon, readColon, hcolon]⟩
    rw [List.mem_singleton.1 hc]
    rfl

theorem readMember_of_value {d : Spread} (hkey : fs.meaning key vs = .value x)
    (hreads : ∀ {w}, Blank w → x.run (w ++ (v.write d ++ r)) = .ok (vs₁, r)) :
    readMember fs vs key (d.colon ++ (v.write d ++ r)) = .ok (vs₁, r) := by
  obtain ⟨w, hw, hcolon⟩ := readColon_colon d
  rw [readMember, hkey]
  simp only [hcolon, hreads hw]

/-- The members of a record behind the first one, up to its end. -/
def laterMembers (d : Spread) (ms : List (String × Value)) : List Char :=
  commaBefore ms ++ Value.writeMembers d ms

theorem laterMembers_cons (d : Spread) (k : String) (v : Value) (ms : List (String × Value)) :
    laterMembers d ((k, v) :: ms) = ',' :: (d.lineStart ++ (writeText k ++ (d.colon ++
      (v.write d ++ laterMembers d ms)))) := by
  simp [laterMembers, commaBefore, Value.writeMembers]

theorem write_record (d : Spread) (k : String) (v : Value) (ms : List (String × Value)) :
    (Value.record ((k, v) :: ms)).write d = '{' :: (d.deeper.lineStart ++ (writeText k ++
      (d.deeper.colon ++ (v.write d.deeper ++ (laterMembers d.deeper ms ++
        (d.lineStart ++ ['}'])))))) := by
  simp [Value.write, Value.writeMembers, laterMembers]

/-- A record goes on with a comma, or with space and its closing brace. -/
theorem ended_laterMembers (d : Spread) (ms : List (String × Value)) (hw : Blank w) :
    Ended (laterMembers d ms ++ (w ++ '}' :: r)) := by
  cases ms with
  | nil => exact ended_closing hw (Or.inr rfl)
  | cons m ms =>
    rw [laterMembers_cons]
    exact ended_comma _

/-- The members behind the first are read as they were written. -/
theorem Filling.members_later (d : Spread) (hw : Blank w) (h : Filling fs vs ms vs') :
    Members fs vs false (laterMembers d ms ++ (w ++ '}' :: r)) (ms.map Prod.fst) vs' r := by
  induction h with
  | nil vs => exact .done (nextKey_end hw)
  | @cons vs vs₁ vs' key x v ms hkey hreads _ ih =>
    rw [laterMembers_cons]
    simp only [List.cons_append, List.append_assoc]
    exact .member (nextKey_later d key _)
      (readMember_of_value hkey fun hw' => hreads d hw' (ended_laterMembers d ms hw)) ih

/-- All members are read as they were written. -/
theorem Filling.members (d : Spread) (r : List Char) (h : Filling fs vs ms vs') :
    ∃ s, (Value.record ms).write d ++ r = '{' :: s ∧
      Members fs vs true s (ms.map Prod.fst) vs' r := by
  cases h with
  | nil vs => exact ⟨_, rfl, .done (nextKey_end blank_nil)⟩
  | @cons vs vs₁ vs' key x v ms hkey hreads hrest =>
    have hlater := hrest.members_later (r := r) d.deeper (blank_lineStart d)
    refine ⟨d.deeper.lineStart ++ (writeText key ++ (d.deeper.colon ++ (v.write d.deeper ++
      (laterMembers d.deeper ms ++ (d.lineStart ++ '}' :: r))))), ?_, ?_⟩
    · simp [write_record]
    · exact .member (nextKey_first d.deeper key _)
        (readMember_of_value hkey fun hw =>
          hreads d.deeper hw (ended_laterMembers d.deeper ms (blank_lineStart d))) hlater

/-- **A record is restored if its fields are.** -/
theorem restores_record {title : String} {build : Build αs β} {parts : β → Values αs} {b : β}
    (hnames : fs.names.Nodup) (h : fs.Restores (parts b)) (hb : build.apply (parts b) = b) :
    (Codec.record title fs build parts).Restores b where
  starts d := by
    obtain ⟨s, hs, -⟩ := (filling_members h hnames).members d []
    rw [List.append_nil] at hs
    exact ⟨'{', s, hs, by decide, by decide⟩
  reads d {w r} hw hr := by
    obtain ⟨s, hs, hm⟩ := (filling_members h hnames).members d r
    have hskip : skip (w ++ (((Codec.record title fs build parts).value b).write d ++ r)) =
        '{' :: s := by
      change skip (w ++ ((Value.record (fs.members (parts b))).write d ++ r)) = _
      rw [hs]
      exact skip_blank_append hw (by decide)
    have hbuild : ∀ {cause}, finish fs build cause (.ok (fs.filled (parts b), r)) = .ok (b, r) := by
      intro cause
      simp only [finish, build_filled h, hb]
    simp only [Codec.record, Reader.record] at hskip ⊢
    simp only [hskip, hm.readMembers_eq, hbuild]

end

end SignGloss.Json
