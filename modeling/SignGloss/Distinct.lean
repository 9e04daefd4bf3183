/-
  First occurrences.

  * `distinctBy key xs` are the members of `xs` whose key no earlier member has,
    in order.

  Main statements: the keys of the result are distinct (`nodup_distinctBy`), they
  are the keys of the list (`mem_map_distinctBy`), and the first occurrences keep
  their order (`pairwise_distinct`).
-/
namespace SignGloss

variable {α κ : Type} [DecidableEq κ]

/-- The members of a list whose key is neither in `seen` nor that of an earlier
    member. -/
def distinctAfter (key : α → κ) (seen : List κ) : List α → List α
  | [] => []
  | x :: xs =>
    if key x ∈ seen then distinctAfter key seen xs
    else x :: distinctAfter key (key x :: seen) xs

/-- The first members of a list with their keys. -/
def distinctBy (key : α → κ) (xs : List α) : List α := distinctAfter key [] xs

/-- The first occurrences in a list. -/
def distinct (xs : List κ) : List κ := distinctBy id xs

theorem mem_map_distinctAfter (key : α → κ) (k : κ) (seen : List κ) (xs : List α) :
    k ∈ (distinctAfter key seen xs).map key ↔ k ∈ xs.map key ∧ k ∉ seen := by
  induction xs generalizing seen with
  | nil => simp [distinctAfter]
  | cons x xs ih =>
    rw [distinctAfter]
    by_cases h : key x ∈ seen
    · rw [if_pos h, ih, List.map_cons, List.mem_cons]
      constructor
      · rintro ⟨h₁, h₂⟩; exact ⟨Or.inr h₁, h₂⟩
      · rintro ⟨h₁ | h₁, h₂⟩
        · exact absurd (h₁ ▸ h) h₂
        · exact ⟨h₁, h₂⟩
    · rw [if_neg h, List.map_cons, List.mem_cons, ih, List.map_cons, List.mem_cons, List.mem_cons]
      by_cases hk : k = key x
      · subst hk; simp [h]
      · simp [hk]

theorem nodup_distinctAfter (key : α → κ) (seen : List κ) (xs : List α) :
    ((distinctAfter key seen xs).map key).Nodup := by
  induction xs generalizing seen with
  | nil => simp [distinctAfter]
  | cons x xs ih =>
    rw [distinctAfter]
    split
    · exact ih seen
    · rw [List.map_cons, List.nodup_cons]
      refine ⟨fun h => ?_, ih _⟩
      exact ((mem_map_distinctAfter key _ _ xs).1 h).2 (by simp)

theorem mem_map_distinctBy (key : α → κ) (k : κ) (xs : List α) :
    k ∈ (distinctBy key xs).map key ↔ k ∈ xs.map key := by
  simp [distinctBy, mem_map_distinctAfter]

theorem nodup_distinctBy (key : α → κ) (xs : List α) : ((distinctBy key xs).map key).Nodup :=
  nodup_distinctAfter key [] xs

theorem mem_distinct (k : κ) (xs : List κ) : k ∈ distinct xs ↔ k ∈ xs := by
  simpa [distinct] using mem_map_distinctBy id k xs

theorem nodup_distinct (xs : List κ) : (distinct xs).Nodup := by
  simpa [distinct] using nodup_distinctBy id xs

theorem pairwise_distinctAfter (seen xs : List κ) :
    (distinctAfter id seen xs).Pairwise fun a b => xs.idxOf a < xs.idxOf b := by
  induction xs generalizing seen with
  | nil => exact .nil
  | cons x xs ih =>
    -- what has been seen is not among the members, so they are found behind `x`
    have hlater : ∀ seen', x ∈ seen' → ∀ a ∈ distinctAfter id seen' xs,
        (x :: xs).idxOf a = xs.idxOf a + 1 := fun seen' hx a ha => by
      have hmem := (mem_map_distinctAfter id a seen' xs).1 (by simpa using ha)
      have hne : (x == a) = false := beq_eq_false_iff_ne.2 fun hxa => hmem.2 (hxa ▸ hx)
      simp [List.idxOf_cons, hne]
    have hpairs : ∀ seen', x ∈ seen' → (distinctAfter id seen' xs).Pairwise
        fun a b => (x :: xs).idxOf a < (x :: xs).idxOf b := fun seen' hx =>
      (ih seen').imp_of_mem fun ha hb hlt => by
        rw [hlater seen' hx _ ha, hlater seen' hx _ hb]
        omega
    rw [distinctAfter]
    split
    · rename_i hx
      exact hpairs seen hx
    · refine List.pairwise_cons.2 ⟨fun b hb => ?_, hpairs _ (by simp)⟩
      rw [hlater _ (by simp) b hb, List.idxOf_cons_self]
      omega

/-- The first occurrences come in the order of the list. -/
theorem pairwise_distinct (xs : List κ) :
    (distinct xs).Pairwise fun a b => xs.idxOf a < xs.idxOf b :=
  pairwise_distinctAfter [] xs

end SignGloss
