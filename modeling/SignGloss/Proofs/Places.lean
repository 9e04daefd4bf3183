/-
  Offsets, lines and columns.

  * `upTo s n` are the characters of `s` that end at the offset `n` or before it,
    `lastLine s` is what `s` has behind its last line feed, and `pairedEnds s`
    counts the lines of `s` that end with a carriage return and a line feed;
  * the place of an offset, in terms of the text before it (`Place.of_eq`);
  * the way back from a line and a column loses one byte for each paired end
    before the offset (`offsetAt_place`), since the lines that it adds up have
    lost their carriage returns;
  * on a screen the place is the same, where no carriage return is before the
    offset (`Place.shown_eq_of`).

  Main statement: where a diagnostic points (`Diagnostic.IsFor.offset_add_pairedEnds`).
-/
import Mathlib.Data.List.DropRight
import SignGloss.Command.Diagnostic

namespace SignGloss.Text

/-- The characters that end at the offset or before it. -/
def upTo : List Char → Nat → List Char
  | [], _ => []
  | c :: s, n => if c.utf8Size ≤ n then c :: upTo s (n - c.utf8Size) else []

/-- What is behind the last line feed. -/
def lastLine (s : List Char) : List Char := s.rtakeWhile (· ≠ '\n')

/-- The number of lines that end with a carriage return and a line feed. -/
def pairedEnds : List Char → Nat
  | [] => 0
  | c :: s => (if c = '\r' ∧ s.head? = some '\n' then 1 else 0) + pairedEnds s

variable {s r l : List Char} {n : Nat}

theorem size_eq_zero : size s = 0 ↔ s = [] := by
  cases s with
  | nil => simp
  | cons c s => simp [Nat.ne_of_gt c.utf8Size_pos]

theorem size_le_of_isPrefix (h : s <+: r) : size s ≤ size r := by
  obtain ⟨t, rfl⟩ := h
  rw [size_append]
  exact Nat.le_add_right _ _

theorem size_le_of_isSuffix (h : s <:+ r) : size s ≤ size r := by
  obtain ⟨t, rfl⟩ := h
  rw [size_append]
  exact Nat.le_add_left _ _

/-! ## The text before an offset -/

theorem upTo_append (p r : List Char) : upTo (p ++ r) (size p) = p := by
  induction p with
  | nil =>
    cases r with
    | nil => rfl
    | cons c r => simp [upTo, Nat.ne_of_gt c.utf8Size_pos]
  | cons c p ih => simp [upTo, ih]

theorem upTo_prefix (s : List Char) (n : Nat) : upTo s n <+: s := by
  induction s generalizing n with
  | nil => exact List.prefix_rfl
  | cons c s ih =>
    rw [upTo]
    split
    · exact List.cons_prefix_cons.2 ⟨rfl, ih _⟩
    · exact List.nil_prefix

theorem size_upTo_le (s : List Char) (n : Nat) : size (upTo s n) ≤ n := by
  induction s generalizing n with
  | nil => exact Nat.zero_le n
  | cons c s ih =>
    rw [upTo]
    split
    · have := ih (n - c.utf8Size)
      rw [size_cons]
      omega
    · exact Nat.zero_le n

/-! ## Lines, one by one -/

/-- A text is a line, or a line with its line feed and a text. -/
theorem induction_on_lines {motive : List Char → Prop} (last : ∀ l, '\n' ∉ l → motive l)
    (cons : ∀ l s, '\n' ∉ l → motive s → motive (l ++ '\n' :: s)) (s : List Char) : motive s := by
  by_cases h : '\n' ∈ s
  · obtain ⟨l, r, hs, hl⟩ := List.eq_append_cons_of_mem h
    rw [hs]
    exact cons l r hl (induction_on_lines last cons r)
  · exact last s h
termination_by s.length
decreasing_by
  rw [hs, List.length_append, List.length_cons]
  omega

theorem lastLine_eq_self (h : '\n' ∉ l) : lastLine l = l := by
  rw [lastLine, List.rtakeWhile_eq_self_iff]
  intro c hc
  simp only [ne_eq, decide_eq_true_eq]
  rintro rfl
  exact h hc

theorem lastLine_concat (s : List Char) (c : Char) :
    lastLine (s ++ [c]) = if c = '\n' then [] else lastLine s ++ [c] := by
  rw [lastLine, List.rtakeWhile_concat]
  by_cases hc : c = '\n' <;> simp [hc, lastLine]

theorem lastLine_append_cons (l s : List Char) : lastLine (l ++ '\n' :: s) = lastLine s := by
  induction s using List.reverseRecOn with
  | nil => rw [lastLine_concat, if_pos rfl]; rfl
  | append_singleton s c ih =>
    rw [← List.cons_append, ← List.append_assoc, lastLine_concat, lastLine_concat, ih]

theorem pairedEnds_eq_zero (h : '\n' ∉ l) : pairedEnds l = 0 := by
  induction l with
  | nil => rfl
  | cons c l ih =>
    rw [List.mem_cons, not_or] at h
    rw [pairedEnds, ih h.2, if_neg]
    rintro ⟨-, hl⟩
    exact h.2 (List.mem_of_head? hl)

theorem pairedEnds_append_cons (h : '\n' ∉ l) (s : List Char) :
    pairedEnds (l ++ '\n' :: s) = (if l.getLast? = some '\r' then 1 else 0) + pairedEnds s := by
  induction l with
  | nil => simp [pairedEnds]
  | cons c l ih =>
    rw [List.mem_cons, not_or] at h
    rw [List.cons_append, pairedEnds, ih h.2]
    cases l with
    | nil => simp
    | cons d l =>
      have hd : d ≠ '\n' := fun hd => h.2 (by simp [hd])
      simp [hd, List.getLast?_cons_cons]

theorem size_dropReturn (l : List Char) :
    size (dropReturn l) + (if l.getLast? = some '\r' then 1 else 0) = size l := by
  unfold dropReturn
  split
  · rename_i h
    obtain ⟨l, rfl⟩ := List.getLast?_eq_some_iff.1 h
    rw [List.dropLast_concat, size_append]
    rfl
  · rfl

theorem pieces_eq_singleton {sep : Char} (h : sep ∉ l) : pieces sep l = [l] := by
  induction l with
  | nil => rfl
  | cons c l ih =>
    rw [List.mem_cons, not_or] at h
    rw [pieces, if_neg (Ne.symm h.1), ih h.2]

theorem pieces_append_cons {sep : Char} (h : sep ∉ l) (s : List Char) :
    pieces sep (l ++ sep :: s) = l :: pieces sep s := by
  induction l with
  | nil => simp [pieces]
  | cons c l ih =>
    rw [List.mem_cons, not_or] at h
    rw [List.cons_append, pieces, if_neg (Ne.symm h.1), ih h.2]

theorem lines_append_cons (h : '\n' ∉ l) (s : List Char) :
    lines (l ++ '\n' :: s) = dropReturn l :: lines s := by
  rw [lines, pieces_append_cons h, lines]
  cases hp : pieces '\n' s with
  | nil => exact absurd hp (pieces_ne_nil _ s)
  | cons q qs => rfl

/-- The lines before a place, each with one more byte, and the part of its own line
    before it have all the bytes before it but those of paired ends. -/
theorem linesSize_take (s r : List Char) :
    linesSize ((lines (s ++ r)).take (s.count '\n')) + size (lastLine s) + pairedEnds s = size s := by
  induction s using induction_on_lines with
  | last l hl =>
    rw [List.count_eq_zero.2 hl, lastLine_eq_self hl, pairedEnds_eq_zero hl]
    simp [linesSize]
  | cons l s hl ih =>
    have hcount : (l ++ '\n' :: s).count '\n' = s.count '\n' + 1 := by
      rw [List.count_append, List.count_eq_zero.2 hl, List.count_cons_self, Nat.zero_add]
    have hline := size_dropReturn l
    rw [hcount, List.append_assoc, List.cons_append, lines_append_cons hl, List.take_succ_cons,
      linesSize, lastLine_append_cons, pairedEnds_append_cons hl, size_append, size_cons]
    have : '\n'.utf8Size = 1 := rfl
    omega

/-! ## Places -/

namespace Place

theorem advance_eq (p : Place) (h : n ≤ size s) :
    p.advance s n = ⟨((upTo s n).foldl next p).line,
      ((upTo s n).foldl next p).column + (n - size (upTo s n))⟩ := by
  induction s generalizing p n with
  | nil =>
    obtain rfl : n = 0 := Nat.le_zero.1 h
    rfl
  | cons c s ih =>
    rw [advance, upTo]
    split
    · rename_i hc
      rw [size_cons] at h
      rw [ih (p.next c) (by omega), List.foldl_cons, size_cons, Nat.sub_sub]
    · rfl

theorem foldl_next (s : List Char) :
    s.foldl next ⟨0, 0⟩ = ⟨s.count '\n', size (lastLine s)⟩ := by
  induction s using List.reverseRecOn with
  | nil => rfl
  | append_singleton s c ih =>
    rw [List.foldl_concat, ih, lastLine_concat, List.count_append, next]
    by_cases hc : c = '\n' <;> simp [hc]

/-- **The place of an offset** by the text before it.  An offset inside a character
    counts the bytes before it. -/
theorem of_eq (h : n ≤ size s) :
    of s n = ⟨(upTo s n).count '\n', size (lastLine (upTo s n)) + (n - size (upTo s n))⟩ := by
  rw [of, advance_eq _ h, foldl_next]

theorem of_append (p r : List Char) : of (p ++ r) (size p) = ⟨p.count '\n', size (lastLine p)⟩ := by
  rw [of_eq (by simp), upTo_append, Nat.sub_self, Nat.add_zero]

theorem advance_zero (p : Place) (s : List Char) : p.advance s 0 = p := by
  cases s with
  | nil => rfl
  | cons c s => rw [advance, if_neg (Nat.not_le.2 c.utf8Size_pos)]; rfl

theorem advanceShown_eq (p : Place) (h : '\r' ∉ upTo s n) : p.advanceShown s n = p.advance s n := by
  have hreturn : ∀ (s : List Char) (n : Nat), n ≠ 0 → '\r' ∈ upTo ('\r' :: s) n := fun s n hn => by
    have hle : '\r'.utf8Size ≤ n := Nat.one_le_iff_ne_zero.2 hn
    rw [upTo, if_pos hle]
    exact List.mem_cons_self
  fun_induction advanceShown p s n with
  | case1 p n => rfl
  | case2 p s n hn ih => exact absurd (hreturn _ n (by omega)) h
  | case3 p s n hn =>
    have h0 : n = 0 := by
      by_contra h0
      exact h (hreturn _ n h0)
    rw [h0, advance_zero]
  | case4 p c s hcs => rw [advance_zero]
  | case5 p c s n hcs hn hc ih =>
    rcases hc with rfl | rfl
    · exact absurd (hreturn s n hn) h
    · have hle : '\n'.utf8Size ≤ n := Nat.one_le_iff_ne_zero.2 hn
      rw [upTo, if_pos hle, List.mem_cons, not_or] at h
      rw [advance, if_pos hle, next, if_pos rfl]
      exact ih h.2
  | case6 p c s n hcs hn hc hle ih =>
    rw [upTo, if_pos hle, List.mem_cons, not_or] at h
    rw [advance, if_pos hle, next, if_neg fun hl => hc (Or.inr hl)]
    exact ih h.2
  | case7 p c s n hcs hn hc hle => rw [advance, if_neg hle]

theorem shown_eq_of (h : '\r' ∉ upTo s n) : shown s n = of s n := advanceShown_eq _ h

end Place

/-- **The way back** loses one byte for each paired end before the offset. -/
theorem offsetAt_place (h : n ≤ size s) :
    offsetAt s ((Place.of s n).line + 1) ((Place.of s n).column + 1) + pairedEnds (upTo s n) = n := by
  obtain ⟨r, hr⟩ := upTo_prefix s n
  have hlines := linesSize_take (upTo s n) r
  have hsize := size_upTo_le s n
  rw [hr] at hlines
  rw [offsetAt, Place.of_eq h, Nat.add_sub_cancel, Nat.add_sub_cancel]
  dsimp only
  omega

/-- No paired end is before an offset that has no carriage return before it. -/
theorem pairedEnds_eq_zero_of_no_return (h : '\r' ∉ s) : pairedEnds s = 0 := by
  induction s with
  | nil => rfl
  | cons c s ih =>
    rw [List.mem_cons, not_or] at h
    rw [pairedEnds, ih h.2, if_neg fun hc => h.1 hc.1.symm]

end SignGloss.Text

namespace SignGloss.Command.Diagnostic

open Text

/-- The diagnostic is made for the place of an offset. -/
structure IsFor (d : Diagnostic) (n : Nat) : Prop where
  le_size : n ≤ size d.content.toList
  line : d.line = (Place.of d.content.toList n).line + 1
  column : d.column = (Place.of d.content.toList n).column + 1

variable {d : Diagnostic} {n : Nat}

/-- **Where a diagnostic points.**  Made for an offset, it points one byte before it
    for each line before it that ends with a carriage return and a line feed, so at
    the offset iff there is no such line.  With no carriage return before the offset
    the header names the line and column that were given. -/
theorem IsFor.offset_add_pairedEnds (h : d.IsFor n) :
    d.offset + pairedEnds (upTo d.content.toList n) = n ∧
      (d.offset = n ↔ pairedEnds (upTo d.content.toList n) = 0) ∧
      ('\r' ∉ upTo d.content.toList n →
        d.header = "╭─[" ++ d.source ++ ":" ++ toString d.line ++ ":" ++ toString d.column ++ "]") := by
  have hback : d.offset + pairedEnds (upTo d.content.toList n) = n := by
    rw [offset, h.line, h.column]
    exact offsetAt_place h.le_size
  refine ⟨hback, by omega, fun hr => ?_⟩
  have hn : d.offset = n := by rw [← hback, pairedEnds_eq_zero_of_no_return hr, Nat.add_zero]
  rw [header, hn, Place.shown_eq_of hr, h.line, h.column]

/-- Behind an accent and a line feed, in front of a paired end. -/
theorem offset_add_pairedEnds_accent :
    let d : Diagnostic := ⟨"rule 7 pattern", "[Ñ]\n [B] x\r\n", 2, 6, "expected '[TAG]'", none⟩
    d.IsFor 10 ∧ d.offset = 10 ∧ d.header = "╭─[rule 7 pattern:2:6]" := by
  intro d
  have hd : d.IsFor 10 := ⟨by decide, by decide, by decide⟩
  obtain ⟨-, hoffset, hheader⟩ := hd.offset_add_pairedEnds
  exact ⟨hd, hoffset.2 (by decide), (hheader (by decide)).trans (by decide)⟩

/-- Behind a paired end the diagnostic points into the line end. -/
theorem offset_behind_paired_end :
    let d : Diagnostic := ⟨"rule 1 pattern", "[A]\r\nx", 2, 1, "expected '[TAG]', found 'x'", none⟩
    d.IsFor 5 ∧ d.offset = 4 ∧ d.header = "╭─[rule 1 pattern:1:4]" := by
  intro d
  exact ⟨⟨by decide, by decide, by decide⟩, by decide, by decide⟩

end SignGloss.Command.Diagnostic
