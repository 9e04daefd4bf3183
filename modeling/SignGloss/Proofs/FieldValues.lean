/-
  The fields of a record, each by the members with its name.

  * `fillSlot o l`: what a slot holds once the values `l` have come for it; one may come, and
    none where there was one before;
  * `Field.verdicts f ms` are the values for the field among the members `ms`, and
    `Field.value f ms` is the value that it gets in the end;
  * `Fields.collect fs vs ms`: the slots, each filled by the members of its field.

  Reading members one by one does no more than this (`gather_eq`, by `collect_cons` for one
  member), where fields have different names.  So the value of a field depends neither on the
  order of members nor on those with other names (`Field.value_perm`, `Field.value_insert`).

  Main statement: `verdict_record`.
-/
import SignGloss.Proofs.GatheredMembers

namespace SignGloss.Json

variable {α β : Type} {αs : List Type} {f : Field α} {fs : Fields αs} {vs : Slots αs}
  {k : Key} {name : String} {t t' : Tree} {ms ms' : List (Key × Tree)} {o : Option α} {a : α}
  {v : Option α} {l l' : List (Option α)}

/-! ## Slots -/

/-- What a slot holds once the values have come for it, each of them if it could be read.
    Nothing may come where there is a value. -/
def fillSlot : Option α → List (Option α) → Option (Option α)
  | o, [] => some o
  | some _, _ :: _ => none
  | none, v :: l => v.bind fun a => fillSlot (some a) l

theorem fillSlot_nil (o : Option α) : fillSlot o [] = some o := by
  cases o <;> rfl

theorem fillSlot_two (o v v' : Option α) (l : List (Option α)) :
    fillSlot o (v :: v' :: l) = none := by
  cases o <;> cases v <;> rfl

/-- More than one value is too much in any order. -/
theorem fillSlot_perm (h : l.Perm l') : fillSlot o l = fillSlot o l' := by
  match l, l', h, h.length_eq with
  | [], _, h, _ => rw [h.nil_eq]
  | [v], _, h, _ => rw [List.perm_singleton.1 h.symm]
  | v :: v' :: l, w :: w' :: l', _, _ => rw [fillSlot_two, fillSlot_two]

/-! ## Values for a field -/

namespace Field

/-- The values of the members for the field. -/
def verdicts (f : Field α) (ms : List (Key × Tree)) : List (Option α) :=
  (ms.filter fun m => m.1.name? = some f.name).map fun m => f.codec.reader.verdict m.2

theorem verdicts_nil : f.verdicts [] = [] := rfl

theorem verdicts_cons (hk : k.name? = some f.name) :
    f.verdicts ((k, t) :: ms) = f.codec.reader.verdict t :: f.verdicts ms := by
  rw [verdicts, List.filter_cons_of_pos (by simp [hk])]
  rfl

theorem verdicts_cons_of_ne (hk : k.name? ≠ some f.name) :
    f.verdicts ((k, t) :: ms) = f.verdicts ms := by
  rw [verdicts, List.filter_cons_of_neg (by simp [hk])]
  rfl

theorem verdicts_perm (h : ms.Perm ms') : (f.verdicts ms).Perm (f.verdicts ms') :=
  (h.filter _).map _

theorem verdicts_eq_nil (h : ∀ m ∈ ms, m.1.name? ≠ some f.name) : f.verdicts ms = [] := by
  rw [verdicts, List.filter_eq_nil_iff.2 (by simpa using h)]
  rfl

/-- The value of the field, by the members with its name or by default. -/
def value (f : Field α) (ms : List (Key × Tree)) : Option α :=
  (fillSlot none (f.verdicts ms)).bind fun o => o.or f.default?

/-- The order of members does not matter. -/
theorem value_perm (h : ms.Perm ms') : f.value ms = f.value ms' := by
  rw [value, value, fillSlot_perm (verdicts_perm h)]

/-- A member with another name does not matter. -/
theorem value_insert (hk : k.name? ≠ some f.name) :
    f.value (ms ++ (k, t) :: ms') = f.value (ms ++ ms') := by
  rw [value_perm List.perm_middle, value, value, verdicts_cons_of_ne hk]

/-- Only the verdict on the value of a member matters. -/
theorem value_congr (h : k.name? = some f.name →
      f.codec.reader.verdict t = f.codec.reader.verdict t') :
    f.value (ms ++ (k, t) :: ms') = f.value (ms ++ (k, t') :: ms') := by
  have hfirst : ∀ u, f.value (ms ++ (k, u) :: ms') = f.value ((k, u) :: (ms ++ ms')) :=
    fun u => value_perm List.perm_middle
  rw [hfirst, hfirst]
  by_cases hk : k.name? = some f.name
  · rw [value, value, verdicts_cons hk, verdicts_cons hk, h hk]
  · rw [value, value, verdicts_cons_of_ne hk, verdicts_cons_of_ne hk]

/-- The default may be written. -/
theorem value_default (hk : k.name? = some f.name) (hms : ∀ m ∈ ms ++ ms', m.1.name? ≠ some f.name)
    (ht : f.codec.reader.verdict t = some a) (hdefault : f.default? = some a) :
    f.value (ms ++ (k, t) :: ms') = f.value (ms ++ ms') := by
  rw [value_perm List.perm_middle, value, value, verdicts_cons hk, verdicts_eq_nil hms, ht,
    hdefault]
  rfl

end Field

/-! ## Members of different fields -/

namespace Fields

/-- The slots, each filled by the members of its field. -/
def collect : {αs : List Type} → Fields αs → Slots αs → List (Key × Tree) → Option (Slots αs)
  | [], .nil, _, _ => some ()
  | _ :: _, .cons f fs, (o, vs), ms =>
    (fillSlot o (f.verdicts ms)).bind fun o' => (fs.collect vs ms).map (.cons o')

/-- The values of the fields. -/
def values : {αs : List Type} → Fields αs → List (Key × Tree) → Option (Values αs)
  | [], .nil, _ => some ()
  | _ :: _, .cons f fs, ms => (f.value ms).bind fun a => (fs.values ms).map (.cons a)

theorem take_cons_of_ne (h : f.name ≠ name) : (Fields.cons f fs).take (.cons o vs) name t =
    (fs.take vs name t).map (.cons o) := by
  rw [take, take, meaning_cons_of_ne h]
  cases fs.meaning name vs with
  | unknown | again => rfl
  | value x => exact Reader.verdict_map _ _

theorem take_cons_again : (Fields.cons f fs).take (.cons (some a) vs) f.name t = none := by
  rw [take, meaning_cons_again]

theorem take_cons : (Fields.cons f fs).take (.cons none vs) f.name t =
    (f.codec.reader.verdict t).map fun a => .cons (some a) vs := by
  rw [take, meaning_cons]
  exact Reader.verdict_map _ _

theorem collect_cons_field (f : Field α) (fs : Fields αs) (o : Option α) (vs : Slots αs)
    (ms : List (Key × Tree)) : (Fields.cons f fs).collect (.cons o vs) ms =
      (fillSlot o (f.verdicts ms)).bind fun o' => (fs.collect vs ms).map (.cons o') := rfl

theorem collect_nil (vs : Slots αs) : fs.collect vs [] = some vs := by
  induction fs with
  | nil => rfl
  | cons f fs ih =>
    obtain ⟨o, vs⟩ := vs
    change (Fields.cons f fs).collect (.cons o vs) [] = some (.cons o vs)
    rw [collect_cons_field, Field.verdicts_nil, fillSlot_nil, Option.bind_some, ih, Option.map_some]

/-- A member that no field has the name of does not matter. -/
theorem collect_cons_of_not_mem (hk : k.name? = some name) (hname : name ∉ fs.names) :
    fs.collect vs ((k, t) :: ms) = fs.collect vs ms := by
  induction fs with
  | nil => rfl
  | cons f fs ih =>
    obtain ⟨o, vs⟩ := vs
    obtain ⟨hne, hrest⟩ := not_or.1 (mt List.mem_cons.2 hname)
    have hf : k.name? ≠ some f.name := fun h => hne (Option.some.inj (hk.symm.trans h))
    change (Fields.cons f fs).collect (.cons o vs) _ = (Fields.cons f fs).collect (.cons o vs) _
    rw [collect_cons_field, collect_cons_field, Field.verdicts_cons_of_ne hf, ih hrest]

/-- **One member fills the slot of its field**, and leaves the others alone. -/
theorem collect_cons (hnames : fs.names.Nodup) (hk : k.name? = some name) :
    fs.collect vs ((k, t) :: ms) = (fs.take vs name t).bind fun vs' => fs.collect vs' ms := by
  induction fs with
  | nil => rfl
  | @cons α αs f fs ih =>
    obtain ⟨o, vs⟩ := vs
    obtain ⟨hname, hnames⟩ := List.nodup_cons.1 hnames
    change (Fields.cons f fs).collect (.cons o vs) ((k, t) :: ms) =
      ((Fields.cons f fs).take (.cons o vs) name t).bind fun vs' =>
        (Fields.cons f fs).collect vs' ms
    rw [collect_cons_field]
    by_cases hf : f.name = name
    · subst hf
      rw [Field.verdicts_cons hk, collect_cons_of_not_mem hk hname]
      cases o with
      | some a => rw [fillSlot, take_cons_again, Option.bind_none, Option.bind_none]
      | none =>
        rw [fillSlot, take_cons]
        cases f.codec.reader.verdict t with
        | none => rfl
        | some a => rfl
    · have hne : k.name? ≠ some f.name := fun h => hf (Option.some.inj (h.symm.trans hk))
      rw [Field.verdicts_cons_of_ne hne, take_cons_of_ne hf, ih hnames]
      cases fs.take vs name t with
      | none => cases fillSlot o (f.verdicts ms) <;> rfl
      | some vs' => rfl

/-- **Reading members one by one collects them by their fields**, if all keys have names. -/
theorem gather_eq (hnames : fs.names.Nodup) : fs.gather vs ms =
    if ms.all (fun m => m.1.name?.isSome) then fs.collect vs ms else none := by
  induction ms generalizing vs with
  | nil => exact (collect_nil vs).symm
  | cons m ms ih =>
    obtain ⟨k, t⟩ := m
    rw [gather]
    cases hk : k.name? with
    | none => simp [hk]
    | some name =>
      rw [Option.bind_some, collect_cons hnames hk]
      simp only [ih, List.all_cons, hk, Option.isSome_some, Bool.true_and]
      split
      · rfl
      · cases fs.take vs name t <;> rfl

theorem bind_collect (ms : List (Key × Tree)) :
    (fs.collect (.empty αs) ms).bind fs.complete = fs.values ms := by
  induction fs with
  | nil => rfl
  | @cons α αs f fs ih =>
    change ((Fields.cons f fs).collect (.cons none (.empty αs)) ms).bind _ = _
    rw [collect_cons_field, values, ← ih, Field.value]
    cases fillSlot none (f.verdicts ms) with
    | none => rfl
    | some o => exact bind_map_complete f o _

end Fields

/-- **A record is made of the values of its fields**, if all of its keys have names. -/
theorem verdict_record {title : String} {b : Build αs β} (hfs : fs.Steady)
    (hnames : fs.names.Nodup) (ms : List (Key × Tree)) :
    (Reader.record title fs b).verdict (.record ms) =
      if ms.all (fun m => m.1.name?.isSome) then (fs.values ms).map b.apply else none := by
  rw [(gives_record hfs ms).verdict_eq, Fields.gather_eq hnames]
  split
  · rw [Fields.bind_collect]
  · rfl

end SignGloss.Json
