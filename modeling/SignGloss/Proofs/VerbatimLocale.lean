/-
  Texts that are no locale tags.

  A row of exclamation marks is no tag, so its canonical form is itself
  (`canonical_marks`).  There are infinitely many such rows, hence finitely many
  tags leave a locale that none of them names (`exists_unnamed`).
-/
import Mathlib.Data.Set.Finite.Lattice
import SignGloss.Locale

namespace SignGloss.Locale

/-- A row of exclamation marks. -/
def marks (n : Nat) : String := String.ofList (List.replicate n '!')

theorem marks_injective : Function.Injective marks := by
  intro m n h
  have := congrArg (fun s => s.toList.length) h
  simpa [marks] using this

theorem trim_marks (n : Nat) : Text.trim (marks n) = marks n := by
  have hb : Text.isBlank '!' = false := by decide
  have hd : ∀ n, (List.replicate n '!').dropWhile Text.isBlank = List.replicate n '!' := by
    intro n
    cases n with
    | zero => rfl
    | succ n => simp [List.replicate_succ, hb]
  simp [Text.trim, Text.trimChars, Text.trimStart, Text.trimEnd, marks, hd]

theorem pieces_marks (n : Nat) :
    Text.pieces '-' (List.replicate n '!') = [List.replicate n '!'] := by
  induction n with
  | zero => rfl
  | succ n ih => simp [List.replicate_succ, Text.pieces, ih]

theorem parse?_marks (n : Nat) : parse? (marks n) = none := by
  have hl : Subtag.isLanguage (List.replicate n '!') = false := by
    cases n with
    | zero => rfl
    | succ n => simp [Subtag.isLanguage, List.replicate_succ]
  simp [parse?, marks, pieces_marks, ofSubtags?, LanguageTag.read?, hl]

theorem canonical_marks (n : Nat) : canonical (marks n) = marks n := by
  simp only [canonical, trim_marks, parse?_marks]

/-- **Some locale is named by none of finitely many tags.** -/
theorem exists_unnamed (tags : List String) :
    ∃ locale, ∀ s ∈ tags, canonical s ≠ canonical locale := by
  obtain ⟨l, ⟨n, rfl⟩, hn⟩ := (Set.infinite_range_of_injective marks_injective).exists_notMem_finset
    (tags.map canonical).toFinset
  refine ⟨marks n, fun s hs h => hn ?_⟩
  rw [List.mem_toFinset, ← canonical_marks, ← h]
  exact List.mem_map_of_mem hs

end SignGloss.Locale
