/-
  What the distance of two texts counts.

  * `Edited a b n`: the text `b` comes from `a` by `n` edits from left to right, each of
    which replaces, deletes or inserts a character, where characters in between are kept;
  * `Fewest a b n`: no fewer than `n` edits turn `a` into `b`;
  * `IsRow p q b row`: the fewest edits that turn `p` into `q`, and into `q` with one more
    character of `b` at a time.

  Edits may be made from right to left as well (`Edited.reverse`), so that a last
  character is edited after all others.  Hence three entries of a table of distances give
  the next one (`Fewest.next`), and a row gives the next row (`IsRow.rowRest`).

  Main statements: the distance of two texts is the least number of edits
  (`fewest_distance`), and it is 0 for a text and itself only (`distance_eq_zero_iff`).
-/
import Mathlib.Order.MinMax
import SignGloss.Text.Distance

namespace SignGloss.Text

/-- The second text comes from the first by a number of edits. -/
inductive Edited : List Char → List Char → Nat → Prop
  | nil : Edited [] [] 0
  | keep {a b n} (c : Char) : Edited a b n → Edited (c :: a) (c :: b) n
  | replace {a b n} (c d : Char) : Edited a b n → Edited (c :: a) (d :: b) (n + 1)
  | delete {a b n} (c : Char) : Edited a b n → Edited (c :: a) b (n + 1)
  | insert {a b n} (d : Char) : Edited a b n → Edited a (d :: b) (n + 1)

/-- The least number of edits. -/
structure Fewest (a b : List Char) (n : Nat) : Prop where
  edited : Edited a b n
  le : ∀ {m}, Edited a b m → n ≤ m

/-- The least numbers of edits from `p` to `q`, and to `q` with more and more of `b`
    behind it. -/
inductive IsRow (p : List Char) : List Char → List Char → List Nat → Prop
  | last {q n} : Fewest p q n → IsRow p q [] [n]
  | more {q d b n row} : Fewest p q n → IsRow p (q ++ [d]) b row → IsRow p q (d :: b) (n :: row)

variable {a b a' b' p q : List Char} {c d : Char} {n m x : Nat} {row : List Nat}

/-! ## Edits -/

namespace Edited

theorem append (h : Edited a b n) (h' : Edited a' b' m) :
    Edited (a ++ a') (b ++ b') (n + m) := by
  induction h with
  | nil => simpa using h'
  | keep c _ ih => exact ih.keep c
  | replace c d _ ih => exact Nat.succ_add _ m ▸ ih.replace c d
  | delete c _ ih => exact Nat.succ_add _ m ▸ ih.delete c
  | insert d _ ih => exact Nat.succ_add _ m ▸ ih.insert d

/-- The same edits can be made from the other end. -/
theorem reverse (h : Edited a b n) : Edited a.reverse b.reverse n := by
  induction h with
  | nil => exact .nil
  | keep c _ ih => simpa using ih.append (nil.keep c)
  | replace c d _ ih => simpa using ih.append (nil.replace c d)
  | delete c _ ih => simpa using ih.append (nil.delete c)
  | insert d _ ih => simpa using ih.append (nil.insert d)

theorem of_reverse (h : Edited a.reverse b.reverse n) : Edited a b n := by
  simpa using h.reverse

theorem refl (a : List Char) : Edited a a 0 := by
  induction a with
  | nil => exact .nil
  | cons c a ih => exact ih.keep c

theorem deleted (a : List Char) : Edited a [] a.length := by
  induction a with
  | nil => exact .nil
  | cons c a ih => exact ih.delete c

theorem inserted (b : List Char) : Edited [] b b.length := by
  induction b with
  | nil => exact .nil
  | cons d b ih => exact ih.insert d

/-- No edit changes the length by more than one. -/
theorem length_le (h : Edited a b n) : a.length ≤ b.length + n ∧ b.length ≤ a.length + n := by
  induction h with
  | nil => exact ⟨le_rfl, le_rfl⟩
  | keep | replace | delete | insert => grind

theorem eq_of_none (h : Edited a b 0) : a = b := by
  induction a generalizing b with
  | nil => cases h; rfl
  | cons c a ih =>
    cases h with
    | keep _ h => rw [ih h]

/-- How a last character is edited. -/
theorem last_cases (h : Edited (a ++ [c]) (b ++ [d]) n) :
    (c = d ∧ Edited a b n) ∨
      ∃ m, n = m + 1 ∧ (Edited a b m ∨ Edited a (b ++ [d]) m ∨ Edited (a ++ [c]) b m) := by
  have hr := h.reverse
  rw [List.reverse_concat, List.reverse_concat] at hr
  cases hr with
  | keep _ hr => exact Or.inl ⟨rfl, hr.of_reverse⟩
  | replace _ _ hr => exact Or.inr ⟨_, rfl, Or.inl hr.of_reverse⟩
  | delete _ hr => exact Or.inr ⟨_, rfl, Or.inr (Or.inl (of_reverse (by simpa using hr)))⟩
  | insert _ hr => exact Or.inr ⟨_, rfl, Or.inr (Or.inr (of_reverse (by simpa using hr)))⟩

end Edited

/-! ## The table of distances -/

namespace Fewest

theorem unique (h : Fewest a b n) (h' : Fewest a b m) : n = m :=
  Nat.le_antisymm (h.le h'.edited) (h'.le h.edited)

theorem of_deleted (p : List Char) : Fewest p [] p.length :=
  ⟨.deleted p, fun h => by simpa using h.length_le.1⟩

theorem of_inserted (q : List Char) : Fewest [] q q.length :=
  ⟨.inserted q, fun h => by simpa using h.length_le.2⟩

/-- An entry from those to the left of it, above it, and above the left one. -/
theorem next {left up corner : Nat} (hcorner : Fewest p q corner) (hup : Fewest p (q ++ [d]) up)
    (hleft : Fewest (p ++ [c]) q left) : Fewest (p ++ [c]) (q ++ [d])
      (min (min (left + 1) (up + 1)) (corner + if c = d then 0 else 1)) := by
  constructor
  · -- each of the three is a number of edits, and so is the least of them
    have hinsert : Edited (p ++ [c]) (q ++ [d]) (left + 1) := by
      simpa using hleft.edited.append (Edited.nil.insert d)
    have hdelete : Edited (p ++ [c]) (q ++ [d]) (up + 1) := by
      simpa using hup.edited.append (Edited.nil.delete c)
    have hdirect : Edited (p ++ [c]) (q ++ [d]) (corner + if c = d then 0 else 1) := by
      split
      · next heq => exact heq ▸ hcorner.edited.append (Edited.nil.keep c)
      · exact hcorner.edited.append (Edited.nil.replace c d)
    rcases min_choice (min (left + 1) (up + 1)) (corner + if c = d then 0 else 1) with h | h
    · rw [h]
      rcases min_choice (left + 1) (up + 1) with h | h <;> rwa [h]
    · rwa [h]
  · intro m hm
    rcases hm.last_cases with ⟨heq, hm⟩ | ⟨m, rfl, hm | hm | hm⟩
    · have := hcorner.le hm
      rw [if_pos heq]
      omega
    · have := hcorner.le hm
      split <;> omega
    · have := hup.le hm
      omega
    · have := hleft.le hm
      omega

end Fewest

namespace IsRow

theorem exists_cons (h : IsRow p q b row) : ∃ n row', row = n :: row' ∧ Fewest p q n := by
  cases h with
  | last h => exact ⟨_, _, rfl, h⟩
  | more h _ => exact ⟨_, _, rfl, h⟩

/-- The last entry is for the whole of the text. -/
theorem fewest_getLastD (h : IsRow p q b row) (x : Nat) : Fewest p (q ++ b) (row.getLastD x) := by
  induction h generalizing x with
  | last h => simpa using h
  | @more q d b n row _ _ ih =>
    have hlast := ih n
    rwa [List.append_assoc, List.singleton_append, ← List.getLastD_cons] at hlast

/-- The row of the empty text. -/
theorem range (q b : List Char) : IsRow [] q b (List.range' q.length (b.length + 1)) := by
  induction b generalizing q with
  | nil => exact .last (.of_inserted q)
  | cons d b ih =>
    refine .more (.of_inserted q) ?_
    simpa using ih (q ++ [d])

/-- The row of a text with one more character, behind an entry of it. -/
theorem rowRest {left : Nat} (h : IsRow p q b row) (hleft : Fewest (p ++ [c]) q left) :
    IsRow (p ++ [c]) q b (left :: Text.rowRest c left row b) := by
  induction h generalizing left with
  | last => exact .last hleft
  | @more q d b corner row hcorner hrow ih =>
    obtain ⟨up, row, rfl, hup⟩ := hrow.exists_cons
    exact .more hleft (ih (hcorner.next hup hleft))

theorem nextRow (h : IsRow p [] b row) : IsRow (p ++ [c]) [] b (Text.nextRow b row c) := by
  obtain ⟨n, row', rfl, hn⟩ := h.exists_cons
  have hfirst : n + 1 = (p ++ [c]).length := by
    rw [hn.unique (.of_deleted p), List.length_append, List.length_singleton]
  exact h.rowRest (hfirst ▸ .of_deleted (p ++ [c]))

theorem foldl (h : IsRow p [] b row) (a : List Char) :
    IsRow (p ++ a) [] b (a.foldl (Text.nextRow b) row) := by
  induction a generalizing p row with
  | nil => simpa using h
  | cons c a ih => simpa using ih (h.nextRow (c := c))

end IsRow

/-- **The distance of two texts is the least number of edits.** -/
theorem fewest_distance (a b : List Char) : Fewest a b (distance a b) := by
  have hrange := IsRow.range [] b
  rw [List.length_nil, ← List.range_eq_range'] at hrange
  exact (hrange.foldl a).fewest_getLastD 0

theorem distance_eq_zero_iff : distance a b = 0 ↔ a = b := by
  constructor
  · intro h
    exact (h ▸ (fewest_distance a b).edited).eq_of_none
  · rintro rfl
    exact Nat.le_zero.1 ((fewest_distance a a).le (.refl a))

end SignGloss.Text
