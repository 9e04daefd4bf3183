/-
  What a reader of records makes of their members.

  * `Key.name? k`: the name that a key is read as, which is the one it stands for
    (`Key.name?_eq_some_iff`);
  * `Fields.gather fs vs ms`: what the slots are once the members `ms` have been read, one by
    one; members that no field knows are skipped, with all that is in them;
  * `Fields.place fs ts`: what they are once the elements `ts` of a list have been read, in the
    order of the fields;
  * `Fields.complete fs vs`: the values of the fields, with defaults for slots that are empty.

  Main statements: the reader of a record is steady if those of its fields are
  (`steady_record`), and it makes of a record what is gathered (`gives_record`), and of a list
  what is placed (`gives_record_list`).
-/
import SignGloss.Proofs.SteadyReaders

namespace SignGloss.Json

variable {α β : Type} {αs : List Type} {fs : Fields αs} {vs vs' vs₁ : Slots αs}
  {toks : List (List Char)} {s r t' : List Char} {first : Bool} {k : Key} {name : String} {t : Tree}
  {ts : List Tree} {ms ms' : List (Key × Tree)}

/-! ## Keys -/

namespace Key

/-- The name that the key is read as. -/
def name? (k : Key) : Option String :=
  (readText (k.body ++ ['"'])).toOption.map fun p => String.ofList p.1

theorem Names.readText (h : k.Names name) (r : List Char) :
    readText (k.body ++ '"' :: r) = .ok (name.toList, r) := Spells.readText_append h r

theorem name?_eq_some_iff : k.name? = some name ↔ k.Names name := by
  constructor
  · intro h
    rcases legible_of_inQuotes k.inQuotes with ⟨t, ht⟩ | hfault
    · rw [name?, ht.readText_append] at h
      cases h
      rw [Names, String.toList_ofList]
      exact ht
    · obtain ⟨fault, hf⟩ := hfault []
      rw [name?, hf] at h
      cases h
  · intro h
    rw [name?, h.readText]
    simp [Except.toOption]

/-- A key without a name is not read. -/
theorem readText_of_none (h : k.name? = none) (r : List Char) :
    ∃ fault, Json.readText (k.body ++ '"' :: r) = .error fault := by
  rcases legible_of_inQuotes k.inQuotes with ⟨t, ht⟩ | hfault
  · rw [name?, ht.readText_append] at h
    cases h
  · exact hfault r

end Key

theorem Spaced.nextKey_end (h : Spaced (Tree.members first [] ++ toks) s) :
    ∃ r, nextKey first s = .ok (none, r) ∧ Spaced toks r := by
  have h : Spaced (['}'] :: toks) s := by cases first <;> exact h
  obtain ⟨r, hs, hr⟩ := h.skip (by decide)
  exact ⟨r, by simp [nextKey, hs], hr⟩

/-- What is behind a key. -/
abbrev Tree.behindKey (t : Tree) (ms : List (Key × Tree)) : List (List Char) :=
  [':'] :: (t.tokens ++ Tree.members false ms)

theorem Spaced.nextKey_member (h : Spaced (Tree.members first ((k, t) :: ms) ++ toks) s) :
    ∃ r, nextKey first s = nextKey.key '"' (k.body ++ '"' :: r) ∧
      Spaced (t.behindKey ms ++ toks) r := by
  cases first with
  | true =>
    obtain ⟨r, hs, hr⟩ := h.skip (by decide)
    exact ⟨r, by simp [nextKey, hs], hr⟩
  | false =>
    obtain ⟨u, hs, hu⟩ := h.skip (by decide)
    obtain ⟨r, hskip, hr⟩ := hu.skip (by decide)
    exact ⟨r, by simp [nextKey, hs, hskip], hr⟩

theorem Spaced.nextKey_of_name (hk : k.name? = some name)
    (h : Spaced (Tree.members first ((k, t) :: ms) ++ toks) s) :
    ∃ r, nextKey first s = .ok (some name, r) ∧ Spaced (t.behindKey ms ++ toks) r := by
  obtain ⟨r, hs, hr⟩ := h.nextKey_member
  refine ⟨r, ?_, hr⟩
  rw [hs, nextKey.key, if_pos rfl, (Key.name?_eq_some_iff.1 hk).readText]
  simp

theorem Spaced.nextKey_of_none (hk : k.name? = none)
    (h : Spaced (Tree.members first ((k, t) :: ms) ++ toks) s) :
    ∃ fault, nextKey first s = .error fault := by
  obtain ⟨r, hs, -⟩ := h.nextKey_member
  obtain ⟨fault, hf⟩ := Key.readText_of_none hk r
  refine ⟨fault, ?_⟩
  rw [hs, nextKey.key, if_pos rfl, hf]

/-! ## Members one by one -/

/-- The readers of all fields are steady. -/
def Fields.Steady : {αs : List Type} → Fields αs → Prop
  | [], .nil => True
  | _ :: _, .cons f fs => f.codec.reader.Steady ∧ fs.Steady

namespace Fields

/-- What the slots are after a member with this name, if it may stand here. -/
def take (fs : Fields αs) (vs : Slots αs) (name : String) (t : Tree) : Option (Slots αs) :=
  match fs.meaning name vs with
  | .unknown => some vs
  | .again => none
  | .value x => x.verdict t

/-- What the slots are after all members. -/
def gather (fs : Fields αs) : Slots αs → List (Key × Tree) → Option (Slots αs)
  | vs, [] => some vs
  | vs, (k, t) :: ms =>
    k.name?.bind fun name => (fs.take vs name t).bind fun vs' => fs.gather vs' ms

theorem Steady.of_meaning {x : Reader (Slots αs)} (h : fs.Steady)
    (hx : fs.meaning name vs = .value x) : x.Steady := by
  have hfills := fills_of_meaning hx
  clear hx
  induction hfills with
  | here _ => exact h.1.map _
  | there _ _ ih => exact (ih h.2).map _

end Fields

theorem Spaced.readColon (h : Spaced ([':'] :: toks) s) :
    ∃ r, Json.readColon s = .ok r ∧ Spaced toks r := by
  obtain ⟨r, hs, hr⟩ := h.skip (by decide)
  exact ⟨r, by simp [Json.readColon, hs], hr⟩

theorem leads_readMember (vs : Slots αs) (name : String) (hfs : fs.Steady)
    (h : Spaced ([':'] :: (t.tokens ++ toks)) s) (htoks : Ended toks.flatten) :
    Leads toks (fs.take vs name t) (readMember fs vs name s) := by
  obtain ⟨r, hcolon, hr⟩ := h.readColon
  rw [readMember, Fields.take]
  cases hm : fs.meaning name vs with
  | again => exact .fault _
  | unknown =>
    obtain ⟨r', hskip, hr'⟩ := skipValue_tokens hr htoks
    simp only [hcolon, hskip]
    exact .value hr'
  | value x =>
    simp only [hcolon]
    exact hfs.of_meaning hm t hr htoks

theorem readMembers_of_key_fault {fault : Fault} (h : nextKey first s = .error fault) :
    readMembers fs vs first s = .error fault := by
  rw [readMembers]
  split
  · rename_i hn
    cases h.symm.trans hn
    rfl
  · rename_i hn
    cases h.symm.trans hn
  · rename_i hn
    cases h.symm.trans hn

theorem readMembers_of_member_fault {fault : Fault} (h : nextKey first s = .ok (some name, r))
    (hm : readMember fs vs name r = .error fault) : readMembers fs vs first s = .error fault := by
  rw [readMembers]
  split
  · rename_i hn
    cases h.symm.trans hn
  · rename_i hn
    cases h.symm.trans hn
  · rename_i hn
    cases h.symm.trans hn
    split
    · rename_i hf
      cases hm.symm.trans hf
      rfl
    · rename_i hf
      cases hm.symm.trans hf

/-- **Reading members gathers them**, in whatever order they come. -/
theorem leads_readMembers (hfs : fs.Steady) (h : Spaced (Tree.members first ms ++ toks) s) :
    Leads toks (fs.gather vs ms) (readMembers fs vs first s) := by
  induction ms generalizing vs first s with
  | nil =>
    obtain ⟨r, hn, hr⟩ := h.nextKey_end
    exact leads_some_iff.2 ⟨r, readMembers_of_end hn, hr⟩
  | cons m ms ih =>
    obtain ⟨k, t⟩ := m
    rw [Fields.gather]
    cases hk : k.name? with
    | none =>
      obtain ⟨fault, hf⟩ := h.nextKey_of_none hk
      rw [readMembers_of_key_fault hf]
      exact .fault fault
    | some name =>
      obtain ⟨r, hn, hr⟩ := h.nextKey_of_name hk
      rw [List.cons_append, List.append_assoc] at hr
      have hm := leads_readMember vs name hfs hr (ended_laterMembers_tokens ms toks)
      cases ht : fs.take vs name t with
      | none =>
        rw [ht] at hm
        obtain ⟨fault, hf⟩ := leads_none_iff.1 hm
        rw [readMembers_of_member_fault hn hf]
        simp only [Option.bind_some, ht]
        exact .fault fault
      | some vs₁ =>
        rw [ht] at hm
        obtain ⟨t', hread, ht'⟩ := leads_some_iff.1 hm
        rw [readMembers_cons hn hread]
        simp only [Option.bind_some, ht]
        exact ih ht'

/-! ## Elements in the order of fields -/

namespace Fields

/-- What the slots are after the elements of a list in the order of the fields. -/
def place : {αs : List Type} → Fields αs → List Tree → Option (Slots αs)
  | [], .nil, [] => some ()
  | [], .nil, _ :: _ => none
  | _ :: αs, .cons _ _, [] => some (.empty (_ :: αs))
  | _ :: _, .cons f fs, t :: ts =>
    (f.codec.reader.verdict t).bind fun a => (fs.place ts).map (.cons (some a))

theorem place_nil (fs : Fields αs) : fs.place [] = some (.empty αs) := by
  cases fs <;> rfl

end Fields

theorem endList_nil (h : Spaced (Tree.items first [] ++ toks) s) :
    ∃ r, endList s = .ok r ∧ Spaced toks r := by
  have h : Spaced ([']'] :: toks) s := by cases first <;> exact h
  obtain ⟨r, hs, hr⟩ := h.skip (by decide)
  exact ⟨r, by simp [endList, hs], hr⟩

/-- There is an element too much. -/
theorem endList_cons (h : Spaced (Tree.items first (t :: ts) ++ toks) s) :
    ∃ fault, endList s = .error fault := by
  have hne : ∃ c r, skip s = c :: r ∧ c ≠ ']' := by
    cases first with
    | true =>
      rw [Tree.items, List.append_assoc] at h
      obtain ⟨c, r, hs, hc, -⟩ := h.skip_tree t
      exact ⟨c, r, hs, hc⟩
    | false =>
      obtain ⟨r, hs, -⟩ := h.skip (by decide)
      exact ⟨_, _, hs, by decide⟩
  obtain ⟨c, r, hs, hc⟩ := hne
  simp only [endList, hs, if_neg hc]
  split
  · split <;> exact ⟨_, rfl⟩
  · exact ⟨_, rfl⟩

/-- **Reading elements in the order of fields places them.** -/
theorem leads_readInOrder (hfs : fs.Steady) (h : Spaced (Tree.items first ts ++ toks) s) :
    Leads toks (fs.place ts) (readInOrder fs first s) := by
  induction fs generalizing ts first s with
  | nil =>
    rw [readInOrder]
    cases ts with
    | nil =>
      obtain ⟨r, hend, hr⟩ := endList_nil h
      rw [hend]
      exact .value hr
    | cons t ts =>
      obtain ⟨fault, hf⟩ := endList_cons h
      rw [hf]
      exact .fault fault
  | cons f fs ih =>
    rw [readInOrder]
    cases ts with
    | nil =>
      obtain ⟨r, hn, hr⟩ := nextElement_end h
      simp only [hn]
      exact .value hr
    | cons t ts =>
      obtain ⟨r, hn, hr⟩ := nextElement_item h
      have ht := hfs.1 t hr (ended_laterItems_tokens ts toks)
      rw [Fields.place]
      simp only [hn]
      cases hv : f.codec.reader.verdict t with
      | none =>
        rw [hv] at ht
        obtain ⟨fault, hf⟩ := leads_none_iff.1 ht
        simp only [hf]
        exact .fault fault
      | some a =>
        rw [hv] at ht
        obtain ⟨r', hread, hr'⟩ := leads_some_iff.1 ht
        simp only [hread]
        exact (ih hfs.2 hr').map (Slots.cons (some a))

/-! ## Records -/

namespace Fields

/-- The values of the fields, if none is missing. -/
def complete : {αs : List Type} → Fields αs → Slots αs → Option (Values αs)
  | [], .nil, _ => some ()
  | _ :: _, .cons f fs, (o, vs) =>
    (o.or f.default?).bind fun a => (fs.complete vs).map (.cons a)

theorem complete_cons (f : Field α) (fs : Fields αs) (o : Option α) (vs : Slots αs) :
    (Fields.cons f fs).complete (.cons o vs) =
      (o.or f.default?).bind fun a => (fs.complete vs).map (.cons a) := rfl

/-- The value of one field more, by its slot. -/
theorem bind_map_complete (f : Field α) (o : Option α) (x : Option (Slots αs)) :
    (x.map (Slots.cons o)).bind (Fields.cons f fs).complete =
      (o.or f.default?).bind fun a => (x.bind fs.complete).map (.cons a) := by
  cases x with
  | none => cases o.or f.default? <;> rfl
  | some vs => exact complete_cons f fs o vs

theorem toOption_build (fs : Fields αs) (b : Build αs β) (i : Nat) (vs : Slots αs) :
    (fs.build i vs b).toOption = (fs.complete vs).map b.apply := by
  induction fs generalizing i with
  | nil => rfl
  | cons f fs ih =>
    obtain ⟨o, vs⟩ := vs
    rw [build, complete]
    cases ho : o.or f.default? with
    | none => rfl
    | some a =>
      simp only [ih, Option.bind_some, Option.map_map]
      rfl

end Fields

section
variable {o : Option (Slots αs)} {y : Except Fault (Slots αs × List Char)} {b : Build αs β}
  {cause : Nat × String → Cause} {title : String}

theorem Leads.finish (h : Leads toks o y) :
    Leads toks ((o.bind fs.complete).map b.apply) (finish fs b cause y) := by
  cases h with
  | fault f => exact .fault f
  | @value vs r hr =>
    have hbuild := fs.toOption_build b 0 vs
    rw [Option.bind_some, ← hbuild]
    simp only [Json.finish]
    cases fs.build 0 vs b with
    | ok a => exact .value hr
    | error e => exact .fault _

theorem gives_record (hfs : fs.Steady) (ms : List (Key × Tree)) :
    (Reader.record title fs b).Gives (.record ms)
      (((fs.gather (.empty αs) ms).bind fs.complete).map b.apply) := by
  intro toks s hs _
  rw [Tree.tokens_record] at hs
  obtain ⟨r, hskip, hr⟩ := hs.skip (by decide)
  simp only [Reader.record, hskip]
  exact (leads_readMembers hfs hr).finish

theorem gives_record_list (hfs : fs.Steady) (ts : List Tree) :
    (Reader.record title fs b).Gives (.list ts) (((fs.place ts).bind fs.complete).map b.apply) := by
  intro toks s hs _
  rw [Tree.tokens_list] at hs
  obtain ⟨r, hskip, hr⟩ := hs.skip (by decide)
  simp only [Reader.record, hskip]
  exact (leads_readInOrder hfs hr).finish

theorem record_run_of_ne (hlist : ∀ r, skip s ≠ '[' :: r) (hrecord : ∀ r, skip s ≠ '{' :: r) :
    ∃ fault, (Reader.record title fs b).run s = .error fault := by
  simp only [Reader.record]
  exact ⟨_, rfl⟩

/-- A record does not mind space if its fields do not. -/
theorem steady_record (hfs : fs.Steady) : (Reader.record title fs b).Steady := by
  refine Reader.steady_of_gives fun T => ?_
  cases T with
  | list ts => exact ⟨_, gives_record_list hfs ts⟩
  | record ms => exact ⟨_, gives_record hfs ms⟩
  | scalar k =>
    refine ⟨none, fun _ _ hs _ => leads_none_iff.2 ?_⟩
    obtain ⟨c, u, hk, -, hlist, hrecord, -⟩ := k.isScalar.head
    obtain ⟨t, hskip, -⟩ := Spaced.skip_text hs
    rw [hk] at hskip
    exact record_run_of_ne (fun r h => hlist (List.cons.inj (hskip.symm.trans h)).1)
      fun r h => hrecord (List.cons.inj (hskip.symm.trans h)).1

end

end SignGloss.Json
