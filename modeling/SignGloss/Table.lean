/-
  Tables: finite maps that keep their keys in the order of first insertion.

  * a `Table` is a list of entries with distinct keys;
  * `get?` looks a key up, and `put` adds an entry or replaces the value of one.

  Main statements: `get?_put_self` and `get?_put_of_ne` say what `put` does to a
  look-up, `keys_put` what it does to the keys, and `size_eq_of_keys` that the
  keys determine the size.
-/
namespace SignGloss

variable {κ α : Type} [DecidableEq κ]

/-- A finite map as a list of entries with distinct keys. -/
structure Table (κ α : Type) where
  entries : List (κ × α)
  distinct : (entries.map Prod.fst).Nodup

namespace Table

/-! ## Entry lists -/

/-- The value of the first entry with a key. -/
def find? (k : κ) : List (κ × α) → Option α
  | [] => none
  | (k', v) :: es => if k' = k then some v else find? k es

/-- Replace the value of the first entry with a key, or add an entry at the end. -/
def replace (k : κ) (v : α) : List (κ × α) → List (κ × α)
  | [] => [(k, v)]
  | (k', v') :: es => if k' = k then (k, v) :: es else (k', v') :: replace k v es

theorem map_fst_replace (k : κ) (v : α) (es : List (κ × α)) :
    (replace k v es).map Prod.fst =
      if k ∈ es.map Prod.fst then es.map Prod.fst else es.map Prod.fst ++ [k] := by
  induction es with
  | nil => rfl
  | cons e es ih =>
    obtain ⟨k', v'⟩ := e
    by_cases h : k' = k
    · subst h; simp [replace]
    · have hk : ¬ k = k' := fun h' => h h'.symm
      simp only [replace, if_neg h, List.map_cons, ih, List.mem_cons, hk, false_or]
      split <;> rfl

theorem find?_replace (k k' : κ) (v : α) (es : List (κ × α)) :
    find? k' (replace k v es) = if k = k' then some v else find? k' es := by
  induction es with
  | nil => simp only [replace, find?]
  | cons e es ih =>
    obtain ⟨k₁, v₁⟩ := e
    by_cases h : k₁ = k
    · subst h
      simp only [replace, if_pos, find?]
      by_cases h' : k₁ = k' <;> simp [h']
    · simp only [replace, if_neg h, find?, ih]
      by_cases h' : k₁ = k'
      · subst h'
        have : ¬ k = k₁ := fun h' => h h'.symm
        simp [this]
      · simp [h']

theorem find?_eq_none (k : κ) (es : List (κ × α)) : find? k es = none ↔ k ∉ es.map Prod.fst := by
  induction es with
  | nil => simp [find?]
  | cons e es ih =>
    obtain ⟨k', v⟩ := e
    by_cases h : k' = k
    · simp [find?, h]
    · have hk : ¬ k = k' := fun h' => h h'.symm
      simp [find?, h, hk, ih]

theorem mem_of_find?_eq_some {k : κ} {v : α} {es : List (κ × α)} (h : find? k es = some v) :
    (k, v) ∈ es := by
  induction es with
  | nil => cases h
  | cons e es ih =>
    obtain ⟨k', v'⟩ := e
    rw [find?] at h
    split at h
    · rename_i hk
      obtain rfl := Option.some.inj h
      exact hk ▸ List.mem_cons_self
    · exact List.mem_cons_of_mem _ (ih h)

/-! ## Operations -/

/-- The table with no entries. -/
def empty : Table κ α := ⟨[], by simp⟩

instance : Inhabited (Table κ α) := ⟨empty⟩

/-- The keys in the order of first insertion. -/
def keys (t : Table κ α) : List κ := t.entries.map Prod.fst

/-- The number of keys. -/
def size (t : Table κ α) : Nat := t.entries.length

/-- The value of a key. -/
def get? (t : Table κ α) (k : κ) : Option α := find? k t.entries

/-- The table with a value for a key, whatever it held for that key before. -/
def put (t : Table κ α) (k : κ) (v : α) : Table κ α where
  entries := replace k v t.entries
  distinct := by
    rw [map_fst_replace]
    split
    · exact t.distinct
    · rename_i h
      refine List.nodup_append.2 ⟨t.distinct, by simp, ?_⟩
      intro a ha b hb
      rw [List.mem_singleton] at hb
      rintro rfl
      exact h (hb ▸ ha)

theorem get?_put_self (t : Table κ α) (k : κ) (v : α) : (t.put k v).get? k = some v := by
  simp [get?, put, find?_replace]

theorem get?_put_of_ne {t : Table κ α} {k k' : κ} {v : α} (h : k ≠ k') :
    (t.put k v).get? k' = t.get? k' := by
  simp [get?, put, find?_replace, h]

/-- A new key goes behind the others, a known one stays where it is. -/
theorem keys_put (t : Table κ α) (k : κ) (v : α) :
    (t.put k v).keys = if k ∈ t.keys then t.keys else t.keys ++ [k] :=
  map_fst_replace k v t.entries

theorem get?_eq_none {t : Table κ α} {k : κ} : t.get? k = none ↔ k ∉ t.keys :=
  find?_eq_none k t.entries

theorem mem_entries_of_get? {t : Table κ α} {k : κ} {v : α} (h : t.get? k = some v) :
    (k, v) ∈ t.entries :=
  mem_of_find?_eq_some h

omit [DecidableEq κ] in
/-- Tables with the same keys have the same size. -/
theorem size_eq_of_keys {β : Type} {t : Table κ α} {u : Table κ β}
    (h : ∀ k, k ∈ t.keys ↔ k ∈ u.keys) : t.size = u.size := by
  have hp := (List.perm_ext_iff_of_nodup t.distinct u.distinct).2 h
  simpa [size] using hp.length_eq

end Table

end SignGloss
