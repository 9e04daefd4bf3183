/-
  The order of priorities.

  Priorities are ordered totally (`Priority.le_iff` and what follows from it), so
  a list whose members differ in priority has one sorted form
  (`sortByPriority_eq_of_perm`), and the first member of it with a property is
  the one that the order puts first (`find?_sortByPriority`).
-/
import SignGloss.Priority

namespace SignGloss

namespace Priority

variable {a b c : Priority}

theorem le_iff : a.le b = true ↔ b.weight < a.weight ∨ (a.weight = b.weight ∧ a.id ≤ b.id) := by
  simp only [le, compare, compareOfLessAndEq, Int32.lt_iff_toInt_lt, UInt32.lt_iff_toNat_lt,
    UInt32.le_iff_toNat_le, ← Int32.toInt_inj, ← UInt32.toNat_inj]
  rcases Int.lt_trichotomy b.weight.toInt a.weight.toInt with hw | hw | hw
  · simp [hw, Ordering.isLE]
  · rcases Nat.lt_trichotomy a.id.toNat b.id.toNat with hi | hi | hi
    · simp [hw, hi, Nat.le_of_lt hi, Ordering.isLE]
    · simp [hw, hi, Ordering.isLE]
    · simp [hw, Nat.not_lt_of_lt hi, Nat.ne_of_gt hi, Ordering.isLE, hi]
  · simp [Int.not_lt.2 (Int.le_of_lt hw), Int.ne_of_gt hw, Int.ne_of_lt hw, Ordering.isLE]

/-- The order in terms of integers. -/
theorem le_iff_toInt : a.le b = true ↔ b.weight.toInt < a.weight.toInt ∨
    (a.weight.toInt = b.weight.toInt ∧ a.id.toNat ≤ b.id.toNat) := by
  rw [le_iff, Int32.lt_iff_toInt_lt, UInt32.le_iff_toNat_le, Int32.toInt_inj]

theorem le_refl (a : Priority) : a.le a = true := le_iff.2 (Or.inr ⟨rfl, Nat.le_refl _⟩)

theorem le_trans (h₁ : a.le b = true) (h₂ : b.le c = true) : a.le c = true := by
  rw [le_iff_toInt] at *
  omega

theorem le_total (a b : Priority) : a.le b = true ∨ b.le a = true := by
  rw [le_iff_toInt, le_iff_toInt]
  omega

theorem le_antisymm (h₁ : a.le b = true) (h₂ : b.le a = true) : a = b := by
  rw [le_iff_toInt] at *
  have hw : a.weight.toInt = b.weight.toInt := by omega
  have hi : a.id.toNat = b.id.toNat := by omega
  cases a; cases b
  rw [Int32.toInt_inj] at hw
  rw [UInt32.toNat_inj] at hi
  exact congr (congrArg _ hw) hi

end Priority

/-! ## Sorted lists -/

variable {α : Type} {key : α → Priority} {xs ys : List α}

theorem sortByPriority_perm (key : α → Priority) (xs : List α) : (sortByPriority key xs).Perm xs :=
  List.mergeSort_perm _ _

theorem mem_sortByPriority {x : α} : x ∈ sortByPriority key xs ↔ x ∈ xs :=
  (sortByPriority_perm key xs).mem_iff

theorem pairwise_sortByPriority (key : α → Priority) (xs : List α) :
    (sortByPriority key xs).Pairwise fun x y => (key x).le (key y) = true := by
  unfold sortByPriority
  refine List.pairwise_mergeSort (fun x y z => ?_) (fun x y => ?_) xs
  · exact Priority.le_trans
  · rw [Bool.or_eq_true]
    exact Priority.le_total _ _

/-- **A list whose members differ in priority has one sorted form.** -/
theorem sortByPriority_eq_of_perm (h : xs.Perm ys)
    (hk : ∀ x ∈ xs, ∀ y ∈ xs, key x = key y → x = y) :
    sortByPriority key xs = sortByPriority key ys := by
  have hs := (sortByPriority_perm key xs).trans (h.trans (sortByPriority_perm key ys).symm)
  refine hs.eq_of_pairwise (fun x y hx hy h₁ h₂ => ?_) (pairwise_sortByPriority key xs)
    (pairwise_sortByPriority key ys)
  exact hk x (mem_sortByPriority.1 hx) y (h.mem_iff.2 (mem_sortByPriority.1 hy))
    (Priority.le_antisymm h₁ h₂)

/-- What is found first is not after anything else that could be found. -/
theorem le_of_find?_sortByPriority {p : α → Bool} {x y : α}
    (h : (sortByPriority key xs).find? p = some x) (hy : y ∈ xs) (hp : p y = true) :
    (key x).le (key y) = true := by
  obtain ⟨-, as, bs, he, has⟩ := List.find?_eq_some_iff_append.1 h
  have hs := pairwise_sortByPriority key xs
  rw [← (sortByPriority_perm key xs).mem_iff, he] at hy
  rw [he] at hs
  rcases List.mem_append.1 hy with hy | hy
  · have := has y hy
    rw [hp] at this
    cases this
  · rcases List.mem_cons.1 hy with rfl | hy
    · exact Priority.le_refl _
    · exact (List.pairwise_cons.1 (List.pairwise_append.1 hs).2.1).1 y hy

/-- **The first member with a property** is the one that the order puts first. -/
theorem find?_sortByPriority {p : α → Bool} {x : α}
    (hk : ∀ x ∈ xs, ∀ y ∈ xs, key x = key y → x = y) :
    (sortByPriority key xs).find? p = some x ↔
      x ∈ xs ∧ p x = true ∧ ∀ y ∈ xs, p y = true → (key x).le (key y) = true := by
  constructor
  · intro h
    exact ⟨mem_sortByPriority.1 (List.mem_of_find?_eq_some h), List.find?_some h,
      fun y hy hp => le_of_find?_sortByPriority h hy hp⟩
  · rintro ⟨hx, hp, hf⟩
    cases h : (sortByPriority key xs).find? p with
    | none => exact absurd hp (List.find?_eq_none.1 h x (mem_sortByPriority.2 hx))
    | some y =>
      have hy := mem_sortByPriority.1 (List.mem_of_find?_eq_some h)
      have he := Priority.le_antisymm (hf y hy (List.find?_some h))
        (le_of_find?_sortByPriority h hx hp)
      rw [hk x hx y hy he]

end SignGloss
