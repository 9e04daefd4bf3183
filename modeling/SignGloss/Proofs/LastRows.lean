/-
  Conjugation tables by the rows that were written.

  * `Form.Answers f gloss code person`: the row `f` is one for these, in any spelling of
    the gloss;
  * `Conjugation.Start` are the tables to start from, with the rows that these hold, and
    `Made start rows t` says that adding the rows, one by one or several at once, has made
    the table `t`;
  * `LastAnswer rows gloss code person s`: the last of the rows that answer spells `s`;
  * `Exchanged rows rows'`: two rows side by side have changed places, with different keys.

  A row more answers before all others (`find?_add`), and two tables that answer alike go on
  to do so (`Alike.addAll`) and are of one size (`Alike.size_eq`).

  Main statement: `last_row_wins`.
-/
import Mathlib.Data.Finset.Card
import Mathlib.Logic.Relation
import SignGloss.Proofs.Edits

namespace SignGloss

variable {f g : Form} {fs gs : List Form} {gloss code s : String} {person : Option UInt8}

/-! ## Rows -/

/-- The row is one for the code and the person, and for a gloss that agrees in upper case and
    without blanks around it. -/
def Form.Answers (f : Form) (gloss code : String) (person : Option UInt8) : Prop :=
  f.code = code ∧ f.person = person ∧
    Text.toUpper (Text.trim f.gloss) = Text.toUpper (Text.trim gloss)

theorem Form.key_eq_iff : f.key = .of gloss code person ↔ f.Answers gloss code person := by
  rw [Form.key, FormKey.of, FormKey.of, FormKey.mk.injEq, Answers]
  exact ⟨fun ⟨hgloss, hcode, hperson⟩ => ⟨hcode, hperson, hgloss⟩,
    fun ⟨hcode, hperson, hgloss⟩ => ⟨hgloss, hcode, hperson⟩⟩

instance (f : Form) (gloss code : String) (person : Option UInt8) :
    Decidable (f.Answers gloss code person) :=
  decidable_of_iff _ Form.key_eq_iff

/-- The last of the rows that answer has this spelling. -/
def LastAnswer (rows : List Form) (gloss code : String) (person : Option UInt8) (s : String) :
    Prop :=
  ∃ before f after, rows = before ++ f :: after ∧ f.Answers gloss code person ∧
    (∀ g ∈ after, ¬ g.Answers gloss code person) ∧ f.surface = s

theorem not_lastAnswer_nil : ¬ LastAnswer [] gloss code person s := by
  rintro ⟨before, f, after, h, -⟩
  simp at h

/-- A row at the end answers, or else what is before it does. -/
theorem lastAnswer_concat : LastAnswer (fs ++ [f]) gloss code person s ↔
    (f.Answers gloss code person ∧ f.surface = s) ∨
      (¬ f.Answers gloss code person ∧ LastAnswer fs gloss code person s) := by
  constructor
  · rintro ⟨before, g, after, h, hg, hafter, hs⟩
    rcases List.eq_nil_or_concat after with rfl | ⟨after, f', rfl⟩
    · obtain ⟨-, hlast⟩ := List.append_inj' h rfl
      obtain rfl := List.singleton_inj.1 hlast
      exact Or.inl ⟨hg, hs⟩
    · rw [List.concat_eq_append] at h hafter
      rw [← List.cons_append, ← List.append_assoc] at h
      obtain ⟨rfl, hlast⟩ := List.append_inj' h rfl
      obtain rfl := List.singleton_inj.1 hlast
      refine Or.inr ⟨hafter f (by simp), before, g, after, rfl, hg, fun g' hg' => ?_, hs⟩
      exact hafter g' (List.mem_append_left _ hg')
  · rintro (⟨hf, hs⟩ | ⟨hf, before, g, after, rfl, hg, hafter, hs⟩)
    · exact ⟨fs, f, [], rfl, hf, by simp, hs⟩
    · refine ⟨before, g, after ++ [f], by simp, hg, fun g' hg' => ?_, hs⟩
      rcases List.mem_append.1 hg' with hg' | hg'
      · exact hafter g' hg'
      · rwa [List.mem_singleton.1 hg']

/-- Two rows with different keys, one behind the other, change places. -/
inductive Exchanged : List Form → List Form → Prop
  | swap {before after : List Form} {f g : Form} : f.key ≠ g.key →
      Exchanged (before ++ f :: g :: after) (before ++ g :: f :: after)

namespace Conjugation

variable {t u : Conjugation} {k : FormKey}

/-! ## Answers of a table -/

/-- A row more answers, or else the table does. -/
theorem find?_add : (t.add f).find? gloss code person =
    if f.Answers gloss code person then some f.surface else t.find? gloss code person := by
  unfold find? add
  split
  · rename_i h
    rw [← Form.key_eq_iff.2 h, Table.get?_put_self]
  · rename_i h
    exact Table.get?_put_of_ne (mt Form.key_eq_iff.1 h)

theorem addAll_concat : t.addAll (fs ++ [f]) = (t.addAll fs).add f := by
  rw [addAll, List.foldl_append]
  rfl

theorem addAll_cons : t.addAll (f :: fs) = (t.add f).addAll fs := rfl

theorem addAll_append : t.addAll (fs ++ gs) = (t.addAll fs).addAll gs := List.foldl_append

/-- **The last row that answers wins**, and where none does the table that was there. -/
theorem find?_addAll_eq_some_iff : (t.addAll fs).find? gloss code person = some s ↔
    LastAnswer fs gloss code person s ∨
      (∀ f ∈ fs, ¬ f.Answers gloss code person) ∧ t.find? gloss code person = some s := by
  induction fs using List.reverseRecOn with
  | nil =>
    have hnone : ∀ f ∈ ([] : List Form), ¬ f.Answers gloss code person := by simp
    rw [or_iff_right not_lastAnswer_nil, and_iff_right hnone]
    rfl
  | append_singleton fs f ih =>
    rw [addAll_concat, find?_add, lastAnswer_concat]
    split
    · rename_i hf
      simp [hf]
    · rename_i hf
      rw [ih]
      simp [hf, or_imp, forall_and]

/-! ## Keys -/

theorem mem_keys_addAll :
    k ∈ (t.addAll fs).forms.keys ↔ k ∈ t.forms.keys ∨ k ∈ fs.map Form.key := by
  induction fs using List.reverseRecOn with
  | nil => simp [addAll]
  | append_singleton fs f ih =>
    rw [addAll_concat, add, Table.keys_put]
    split
    · rename_i hf
      rw [List.map_append, List.mem_append, ih, List.map_singleton, List.mem_singleton]
      constructor
      · exact fun h => h.imp_right Or.inl
      · rintro (h | h | rfl)
        · exact Or.inl h
        · exact Or.inr h
        · exact ih.1 hf
    · simp [ih, or_assoc]

/-- The size counts keys. -/
theorem size_eq_card : t.size = t.forms.keys.toFinset.card := by
  have hnodup : t.forms.keys.Nodup := t.forms.distinct
  rw [List.toFinset_card_of_nodup hnodup, Table.keys, List.length_map]
  rfl

/-! ## Tables that answer alike -/

/-- The tables hold the same spellings, perhaps in different places. -/
def Alike (t u : Conjugation) : Prop := ∀ k, t.forms.get? k = u.forms.get? k

theorem Alike.add (h : t.Alike u) (f : Form) : (t.add f).Alike (u.add f) := by
  intro k
  unfold Conjugation.add
  by_cases hk : f.key = k
  · rw [← hk, Table.get?_put_self, Table.get?_put_self]
  · rw [Table.get?_put_of_ne hk, Table.get?_put_of_ne hk, h k]

theorem Alike.addAll (h : t.Alike u) (fs : List Form) : (t.addAll fs).Alike (u.addAll fs) := by
  induction fs generalizing t u with
  | nil => exact h
  | cons f fs ih => exact ih (h.add f)

theorem Alike.size_eq (h : t.Alike u) : t.size = u.size := by
  refine Table.size_eq_of_keys fun k => not_iff_not.1 ?_
  rw [← Table.get?_eq_none, ← Table.get?_eq_none, h k]

/-- Rows with different keys commute. -/
theorem alike_add_add (h : f.key ≠ g.key) : ((t.add f).add g).Alike ((t.add g).add f) := by
  intro k
  simp only [add]
  by_cases hf : f.key = k
  · have hg : g.key ≠ k := fun hg => h (hf.trans hg.symm)
    rw [Table.get?_put_of_ne hg, ← hf, Table.get?_put_self, Table.get?_put_self]
  · rw [Table.get?_put_of_ne hf]
    by_cases hg : g.key = k
    · rw [← hg, Table.get?_put_self, Table.get?_put_self]
    · rw [Table.get?_put_of_ne hg, Table.get?_put_of_ne hg, Table.get?_put_of_ne hf]

theorem alike_of_exchanged (h : Exchanged fs gs) : (t.addAll fs).Alike (t.addAll gs) := by
  cases h with
  | @swap before after f g hkey =>
    rw [addAll_append, addAll_append, addAll_cons, addAll_cons, addAll_cons, addAll_cons]
    exact (alike_add_add hkey).addAll after

theorem alike_of_exchanges (h : Relation.ReflTransGen Exchanged fs gs) :
    (t.addAll fs).Alike (t.addAll gs) := by
  induction h with
  | refl => exact fun _ => rfl
  | tail _ hstep ih => exact fun k => (ih k).trans (alike_of_exchanged hstep k)

/-! ## Tables that are made -/

/-- The tables to start from. -/
inductive Start where
  | new
  | spanish

namespace Start

/-- The table without rows, or the one of the Spanish forms. -/
def table : Start → Conjugation
  | new => .empty
  | spanish => .spanish

/-- The rows that the table starts with. -/
def rows : Start → List Form
  | new => []
  | spanish => present "AMAR" "amo" "amas" "ama" ++ present "QUERER" "quiero" "quieres" "quiere"

theorem table_eq (start : Start) : start.table = empty.addAll start.rows := by
  cases start <;> rfl

end Start

/-- Rows have been added to a table, one by one or several at once, and made it this one. -/
inductive Made (start : Start) : List Form → Conjugation → Prop
  | start : Made start [] start.table
  | add {rows : List Form} {t : Conjugation} (f : Form) :
      Made start rows t → Made start (rows ++ [f]) (t.add f)
  | addAll {rows : List Form} {t : Conjugation} (fs : List Form) :
      Made start rows t → Made start (rows ++ fs) (t.addAll fs)

variable {start : Start} {rows : List Form}

/-- However the rows were added, it is as if they were added at once. -/
theorem Made.eq_addAll (h : Made start rows t) : t = start.table.addAll rows := by
  induction h with
  | start => rfl
  | add f _ ih => rw [addAll_concat, ih]
  | addAll fs _ ih => rw [addAll_append, ih]

theorem find?_empty : empty.find? gloss code person = none := rfl

theorem find?_start_eq_some_iff : start.table.find? gloss code person = some s ↔
    LastAnswer start.rows gloss code person s := by
  rw [Start.table_eq, find?_addAll_eq_some_iff, find?_empty]
  simp

theorem Made.find?_eq_some_iff (h : Made start rows t) :
    t.find? gloss code person = some s ↔ LastAnswer rows gloss code person s ∨
      (∀ f ∈ rows, ¬ f.Answers gloss code person) ∧
        LastAnswer start.rows gloss code person s := by
  rw [h.eq_addAll, find?_addAll_eq_some_iff, find?_start_eq_some_iff]

theorem Made.size_eq (h : Made start rows t) :
    t.size = ((start.rows ++ rows).map Form.key).toFinset.card := by
  have hkeys : ∀ k, k ∈ t.forms.keys ↔ k ∈ (start.rows ++ rows).map Form.key := by
    intro k
    have hempty : k ∉ empty.forms.keys := List.not_mem_nil
    rw [h.eq_addAll, Start.table_eq, ← addAll_append, mem_keys_addAll, or_iff_right hempty]
  rw [size_eq_card]
  congr 1
  ext k
  simp only [List.mem_toFinset, hkeys]

theorem Made.alike {rows' : List Form} (h : Made start rows t) (h' : Made start rows' u)
    (hrows : Relation.ReflTransGen Exchanged rows rows') : t.Alike u := by
  rw [h.eq_addAll, h'.eq_addAll]
  exact alike_of_exchanges hrows

/-- The rows of a document are added to the Spanish forms. -/
theorem made_of_ofDocument {d : Document} {c : Catalog} (h : Catalog.ofDocument d = .ok c) :
    Made .spanish d.forms c.forms := by
  have hforms : c.forms = Conjugation.spanish.addAll d.forms := by
    rw [(Catalog.addAll_eq_ok_iff.1 h).2, Catalog.forms_putAll, Document.forms_edits]
    rfl
  rw [hforms]
  exact Made.addAll d.forms .start

end Conjugation

open Conjugation

/-- **The last row wins.**  What a table answers, however its rows were added, is the last of
    them that answers, and otherwise the form that it started with, if there is one.  Its size
    is the number of different keys of all these rows.  Rows that change places with neighbours
    of other keys make a table that answers alike and is of the same size.  The forms of the
    catalog of a document are such a table, made of the rows of the document and the Spanish
    forms. -/
theorem last_row_wins :
    (∀ {start rows t}, Made start rows t →
      (∀ gloss code person s, t.find? gloss code person = some s ↔
        LastAnswer rows gloss code person s ∨ (∀ f ∈ rows, ¬ f.Answers gloss code person) ∧
          LastAnswer start.rows gloss code person s) ∧
      t.size = ((start.rows ++ rows).map Form.key).toFinset.card) ∧
    (∀ {start rows rows' t t'}, Made start rows t → Made start rows' t' →
      Relation.ReflTransGen Exchanged rows rows' →
      (∀ gloss code person, t.find? gloss code person = t'.find? gloss code person) ∧
        t.size = t'.size) ∧
    ∀ {d c}, Catalog.ofDocument d = .ok c → Made .spanish d.forms c.forms := by
  refine ⟨fun h => ⟨fun _ _ _ _ => h.find?_eq_some_iff, h.size_eq⟩, fun h h' hrows => ?_,
    made_of_ofDocument⟩
  have halike := h.alike h' hrows
  exact ⟨fun gloss code person => halike (.of gloss code person), halike.size_eq⟩

/-- Two spellings of one gloss, of which the second is written last, and a Spanish form that is
    replaced: two keys are written, of which one is new.  Rows for different keys may change
    places. -/
theorem last_row_wins_spellings :
    let other : Form := ⟨" straße", "pres", none, "a"⟩
    let later : Form := ⟨"STRASSE\t", "pres", none, "b"⟩
    let spanish : Form := ⟨"querer", "pres", some 1, "QUIERO"⟩
    let t := (Conjugation.spanish.add other).addAll [later, spanish]
    let u := Conjugation.spanish.addAll [other, spanish, later]
    t.find? "Straße" "pres" none = some "b" ∧ t.find? "Amar" "pres" (some 2) = some "amas" ∧
      t.size = 7 ∧ u.find? "QUERER" "pres" (some 1) = t.find? "QUERER" "pres" (some 1) ∧
      ∃ c, Catalog.ofDocument ⟨[], [], [], [other, spanish, later]⟩ = .ok c ∧
        Made .spanish [other, spanish, later] c.forms := by
  intro other later spanish t u
  have ht : Made .spanish [other, later, spanish] t :=
    (Made.start.add other).addAll [later, spanish]
  have hu : Made .spanish [other, spanish, later] u := Made.start.addAll [other, spanish, later]
  have hkeys : spanish.key ≠ later.key := by decide +kernel
  have hrows : Relation.ReflTransGen Exchanged [other, spanish, later] [other, later, spanish] :=
    .single (@Exchanged.swap [other] [] spanish later hkeys)
  obtain ⟨c, hc⟩ : ∃ c, Catalog.ofDocument ⟨[], [], [], [other, spanish, later]⟩ = .ok c := ⟨_, rfl⟩
  obtain ⟨hanswers, hsize⟩ := last_row_wins.1 ht
  refine ⟨(hanswers _ _ _ _).2 (Or.inl ?_), (hanswers _ _ _ _).2 (Or.inr ⟨?_, ?_⟩),
    hsize.trans (by decide +kernel), (last_row_wins.2.1 hu ht hrows).1 _ _ _, c, hc,
    last_row_wins.2.2 hc⟩
  · exact ⟨[other], later, [spanish], rfl, by decide +kernel, by decide +kernel, rfl⟩
  · decide +kernel
  · exact ⟨[⟨"AMAR", "pres", some 1, "amo"⟩], ⟨"AMAR", "pres", some 2, "amas"⟩, _, rfl,
      by decide +kernel, by decide +kernel, rfl⟩

end SignGloss
