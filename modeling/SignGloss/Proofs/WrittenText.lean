/-
  Strings are read as they were written.

  * `Blank w`: the text `w` is space, as at the start of a line, and is skipped
    (`skip_blank_append`);
  * a character is written as an escape by letter, as an escape by code, or as it
    stands (`escaped_cases`), and each of these is read as the character.

  Main statement: `readText_escaped`, for all strings and whatever is behind the
  closing quote.
-/
import SignGloss.Json.Lexical
import SignGloss.Json.Value

namespace SignGloss.Json

variable {c : Char} {s t r w : List Char}

/-! ## Space -/

/-- The text is space. -/
def Blank (w : List Char) : Prop := ∀ c ∈ w, isSpace c = true

theorem blank_nil : Blank [] := fun _ h => absurd h List.not_mem_nil

theorem blank_lineStart (d : Spread) : Blank d.lineStart := by
  cases d with
  | none => exact blank_nil
  | some n =>
    intro c hc
    rcases List.mem_cons.1 hc with rfl | hc
    · rfl
    · rw [List.eq_of_mem_replicate hc]
      rfl

theorem skip_blank_append (hw : Blank w) (hc : isSpace c = false) :
    skip (w ++ c :: s) = c :: s := by
  rw [skip, List.dropWhile_append_of_pos hw]
  simp [hc]

theorem skip_cons (hc : isSpace c = false) : skip (c :: s) = c :: s :=
  skip_blank_append blank_nil hc

/-! ## Escapes -/

/-- The ways in which a character is written. -/
theorem escaped_cases (c : Char) :
    (∃ l, escaped c = ['\\', l] ∧ l ≠ 'u' ∧ letterEscape? l = some c) ∨
    (c.toNat < 0x20 ∧ escaped c =
      ['\\', 'u', '0', '0', Nat.digitChar (c.toNat / 16), Nat.digitChar (c.toNat % 16)]) ∨
    (c ≠ '"' ∧ c ≠ '\\' ∧ isControl c = false ∧ escaped c = [c]) := by
  unfold escaped
  split
  case h_1 => exact Or.inl ⟨'"', rfl, by decide, rfl⟩
  case h_2 => exact Or.inl ⟨'\\', rfl, by decide, rfl⟩
  case h_3 => exact Or.inl ⟨'b', rfl, by decide, rfl⟩
  case h_4 => exact Or.inl ⟨'f', rfl, by decide, rfl⟩
  case h_5 => exact Or.inl ⟨'n', rfl, by decide, rfl⟩
  case h_6 => exact Or.inl ⟨'r', rfl, by decide, rfl⟩
  case h_7 => exact Or.inl ⟨'t', rfl, by decide, rfl⟩
  case h_8 hquote hslash _ _ _ _ _ =>
    split
    · rename_i h
      exact Or.inr (Or.inl ⟨h, rfl⟩)
    · rename_i h
      exact Or.inr (Or.inr ⟨hquote, hslash, decide_eq_false h, rfl⟩)

theorem hexDigit?_digitChar {n : Nat} (h : n < 16) : hexDigit? (Nat.digitChar n) = some n := by
  have hall : ∀ n < 16, hexDigit? (Nat.digitChar n) = some n := by decide
  exact hall n h

/-- Four characters have enough bytes for four digits. -/
theorem readHex_cons {a b c d : Char} {n : Nat} (h : hexValue? a b c d = some n) :
    readHex (a :: b :: c :: d :: r) = .ok (n, r) := by
  have hsize : ¬ Text.size ((a :: b :: c :: d :: r).take 4) < 4 := by
    have ha := a.utf8Size_pos
    have hb := b.utf8Size_pos
    have hc := c.utf8Size_pos
    have hd := d.utf8Size_pos
    simp only [List.take, Text.size_cons, Text.size_nil]
    omega
  rw [readHex, if_neg hsize]
  simp only [h]

/-- A control character is read by its code. -/
theorem readCode_control (h : c.toNat < 0x20) :
    readCode ('0' :: '0' :: Nat.digitChar (c.toNat / 16) :: Nat.digitChar (c.toNat % 16) :: r) =
      .ok (c, r) := by
  have hvalue : hexValue? '0' '0' (Nat.digitChar (c.toNat / 16)) (Nat.digitChar (c.toNat % 16)) =
      some c.toNat := by
    have hzero : hexDigit? '0' = some 0 := by decide
    have hhigh := hexDigit?_digitChar (show c.toNat / 16 < 16 by omega)
    have hlow := hexDigit?_digitChar (show c.toNat % 16 < 16 by omega)
    have hsum : c.toNat / 16 * 16 + c.toNat % 16 = c.toNat := Nat.div_add_mod' _ _
    simp [hexValue?, hzero, hhigh, hlow, hsum]
  have htrailing : isTrailing c.toNat = false := by simp [isTrailing]; omega
  have hleading : isLeading c.toNat = false := by simp [isLeading]; omega
  simp only [readCode, readHex_cons hvalue, htrailing, hleading, Bool.false_eq_true, if_false,
    Char.ofNat_toNat]

theorem readEscape_letter {l : Char} (hu : l ≠ 'u') (hl : letterEscape? l = some c) :
    readEscape (l :: r) = .ok (c, r) := by
  rw [readEscape, if_neg hu, hl]

theorem readEscape_code (h : readCode s = .ok (c, r)) : readEscape ('u' :: s) = .ok (c, r) := by
  rw [readEscape, if_pos rfl, h]

/-! ## Strings -/

theorem readText_quote : readText ('"' :: r) = .ok ([], r) := by
  rw [readText]
  rfl

theorem readText_of_escape (h : readEscape s = .ok (c, r)) {u : List Char}
    (ht : readText r = .ok (t, u)) : readText ('\\' :: s) = .ok (c :: t, u) := by
  rw [readText, if_neg (by decide), if_pos rfl]
  split
  · rename_i hs
    rw [h] at hs
    cases hs
  · rename_i hs
    rw [h] at hs
    cases hs
    simp only [ht]

theorem readText_of_plain (hquote : c ≠ '"') (hslash : c ≠ '\\') (hc : isControl c = false)
    {u : List Char} (ht : readText s = .ok (t, u)) : readText (c :: s) = .ok (c :: t, u) := by
  rw [readText, if_neg hquote, if_neg hslash, hc]
  simp [ht]

/-- **A string is read as it was written.** -/
theorem readText_escaped (t r : List Char) :
    readText (t.flatMap escaped ++ '"' :: r) = .ok (t, r) := by
  induction t with
  | nil => exact readText_quote
  | cons c t ih =>
    rw [List.flatMap_cons, List.append_assoc]
    rcases escaped_cases c with ⟨l, he, hu, hl⟩ | ⟨hc, he⟩ | ⟨hquote, hslash, hc, he⟩
    · rw [he]
      exact readText_of_escape (readEscape_letter hu hl) ih
    · rw [he]
      exact readText_of_escape (readEscape_code (readCode_control hc)) ih
    · rw [he]
      exact readText_of_plain hquote hslash hc ih

theorem writeText_append (s : String) (r : List Char) :
    writeText s ++ r = '"' :: (s.toList.flatMap escaped ++ '"' :: r) := by
  simp [writeText]

end SignGloss.Json
