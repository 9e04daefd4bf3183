/-
  Where a text stops being a pattern.

  * a text is `Accepted` if it is a pattern and `Viable` if it can be continued to
    one, and `Longest P s p` says that `p` is the longest start of `s` with the
    property `P`;
  * `Stops p r`: the text `p` is the start of a tag in brackets, and `r` does not go
    on with it.  Just then a first tag is not read and `r` is left
    (`readTag_eq_error_iff`).  Of `r` the first character matters only.

  Main statement: a text that is no pattern is blank, or is reported behind the
  longest pattern that it starts with, or, if there is none, behind its longest
  start that can be continued to a pattern (`parse_error_place`).
-/
import SignGloss.Proofs.PatternGrammar
import SignGloss.Proofs.Places

namespace SignGloss.Pattern

open Text

/-- The text is a pattern. -/
def Accepted (s : List Char) : Prop := ∃ p, parse (String.ofList s) = .ok p

/-- The text can be continued to a pattern. -/
def Viable (s : List Char) : Prop := ∃ t, Accepted (s ++ t)

/-- The text `p` is the longest start of `s` that has the property `P`. -/
structure Longest (P : List Char → Prop) (s p : List Char) : Prop where
  start : p <+: s
  holds : P p
  le : ∀ q, q <+: s → P q → size q ≤ size p

theorem accepted_iff {s : List Char} :
    Accepted s ↔ ∃ ts, ts ≠ [] ∧ (∀ t ∈ ts, t.Bracketable) ∧ Spells s ts := by
  constructor
  · rintro ⟨⟨ts⟩, h⟩
    rw [parse_eq_ok_iff, String.toList_ofList] at h
    exact ⟨ts, h⟩
  · rintro ⟨ts, h⟩
    exact ⟨⟨ts⟩, by rwa [parse_eq_ok_iff, String.toList_ofList]⟩

/-! ## A tag that goes wrong -/

/-- The first text is the start of a tag in brackets, and the second does not go on with it. -/
inductive Stops : List Char → List Char → Prop
  /-- no bracket is opened -/
  | noBracket {r} : (∀ c ∈ r.head?, c ≠ '[') → Stops [] r
  /-- no name begins behind the bracket and its space -/
  | noName {w r} : Spaces w → (∀ c ∈ r.head?, isSpace c = false ∧ isTagChar c = false) →
      Stops ('[' :: w) r
  /-- behind the name and its space, the bracket is not closed -/
  | noEnd {w l w' r} : Spaces w → l ≠ [] → (∀ c ∈ l, isTagChar c = true) → Spaces w' →
      (∀ c ∈ r.head?, isSpace c = false ∧ c ≠ ']' ∧ (w' = [] → isTagChar c = false)) →
      Stops ('[' :: (w ++ (l ++ w'))) r

variable {s p r : List Char}

theorem Stops.of_head?_eq (h : Stops p r) (r' : List Char) (hr : r.head? = r'.head?) :
    Stops p r' := by
  cases h with
  | noBracket hc => exact .noBracket (hr ▸ hc)
  | noName hw hc => exact .noName hw (hr ▸ hc)
  | noEnd hw hne hl hw' hc => exact .noEnd hw hne hl hw' (hr ▸ hc)

theorem readTag_of_stops (h : Stops p r) : readTag (p ++ r) = .error r := by
  cases h with
  | noBracket hc =>
    rw [List.nil_append]
    unfold readTag
    split
    · exact absurd rfl (hc '[' rfl)
    · rfl
  | noName hw hc =>
    have hs := dropWhile_spaces hw fun c h => (hc c h).1
    obtain ⟨htake, hdrop⟩ := run_eq (l := []) (p := isTagChar) (by simp) fun c h => (hc c h).2
    rw [List.nil_append] at htake hdrop
    simp only [readTag, List.cons_append, skipSpaces, hs, htake, hdrop, List.isEmpty_nil, if_true]
  | @noEnd w l w' r hw hne hl hw' hc =>
    obtain ⟨hname, hrest⟩ := spacedName_eq (p := isTagChar) (r := r)
      (fun c h => (isTagChar_iff.1 h).1) hw hw' hne hl fun c h => ⟨(hc c h).1, (hc c h).2.2⟩
    simp only [readTag, List.cons_append, List.append_assoc, skipSpaces, hname, hrest,
      List.isEmpty_iff, hne, if_false]
    split
    · exact absurd rfl (hc ']' rfl).2.1
    · rfl

theorem stops_of_readTag (h : readTag s = .error r) : ∃ p, s = p ++ r ∧ Stops p r := by
  unfold readTag at h
  split at h
  · rename_i s'
    simp only [skipSpaces, List.isEmpty_iff] at h
    split at h
    · rename_i hne
      obtain ⟨w, hw, hs⟩ := exists_spaces s'
      obtain ⟨hsplit, -, hend⟩ := of_run_eq hne (Except.error.inj h)
      rw [List.nil_append] at hsplit
      rw [hsplit] at hs
      refine ⟨'[' :: w, by rw [hs, List.cons_append], .noName hw fun c hc => ⟨?_, hend c hc⟩⟩
      exact of_head?_dropWhile (by rw [hsplit]; exact hc)
    · rename_i hne
      split at h
      · cases h
      · rename_i r' hno
        obtain rfl := Except.error.inj h
        obtain ⟨hname, w, w', hw, hw', hend, hs⟩ := of_spacedName_eq (p := isTagChar) (s := s') rfl rfl
        refine ⟨_, ?_, .noEnd hw hne hname hw' fun c hc => ⟨(hend c hc).1, ?_, (hend c hc).2⟩⟩
        · simpa using hs
        · rintro rfl
          obtain ⟨r, hr⟩ := List.head?_eq_some_iff.1 hc
          exact hno r hr
  · rename_i hs
    obtain rfl := Except.error.inj h
    refine ⟨[], rfl, .noBracket fun c hc => ?_⟩
    rintro rfl
    obtain ⟨r, hr⟩ := List.head?_eq_some_iff.1 hc
    exact hs r hr

/-- **A tag is not read** iff the text stops being one where the rest begins. -/
theorem readTag_eq_error_iff : readTag s = .error r ↔ ∃ p, s = p ++ r ∧ Stops p r := by
  constructor
  · exact stops_of_readTag
  · rintro ⟨p, rfl, h⟩
    exact readTag_of_stops h

/-- What stops is the start of a tag all the same. -/
theorem Stops.exists_row (h : Stops p r) : ∃ t u, Tag.Bracketable u ∧ Row [u] (p ++ t) := by
  have hA : Tag.Bracketable ⟨"A"⟩ := by decide
  cases h with
  | noBracket => exact ⟨"[A]".toList, _, hA, .cons Spaces.nil Spaces.nil Spaces.nil .nil⟩
  | noName hw =>
    refine ⟨"A]".toList, _, hA, ?_⟩
    simpa using Row.cons (t := ⟨"A"⟩) hw Spaces.nil Spaces.nil .nil
  | @noEnd w l w' r hw hne hl hw' =>
    refine ⟨[']'], ⟨String.ofList l⟩, ⟨?_, fun c hc => ?_⟩, ?_⟩
    · simpa using hne
    · exact isTagChar_iff.1 (hl c (by simpa using hc))
    · simpa using Row.cons (t := ⟨String.ofList l⟩) hw hw' Spaces.nil .nil

/-! ## Longest starts -/

/-- Of two starts of a text the one is not larger, or it is the other and more. -/
theorem size_le_or_exists {q : List Char} (hp : p <+: s) (hq : q <+: s) :
    size q ≤ size p ∨ ∃ c t, q = p ++ c :: t := by
  rcases List.prefix_or_prefix_of_prefix hp hq with ⟨t, rfl⟩ | h
  · cases t with
    | nil => exact Or.inl (by simp)
    | cons c t => exact Or.inr ⟨c, t, rfl⟩
  · exact Or.inl (size_le_of_isPrefix h)

theorem skipSpaces_suffix (s : List Char) : skipSpaces s <:+ s := List.dropWhile_suffix _

/-- An accepted start of a text is read before anything else. -/
theorem Accepted.readTags_append {q : List Char} (h : Accepted q) (t : List Char) :
    ∃ ts, ts ≠ [] ∧ readTags (skipSpaces (q ++ t)) =
      (ts ++ (readTags (skipSpaces t)).1, (readTags (skipSpaces t)).2) := by
  obtain ⟨ts, hne, hts, w, x, hw, hrow, rfl⟩ := accepted_iff.1 h
  refine ⟨ts, hne, ?_⟩
  have hskip : skipSpaces (w ++ x ++ t) = x ++ t := by
    rw [List.append_assoc]
    refine dropWhile_spaces hw fun c hc => ?_
    rw [List.head?_append_of_ne_nil _ (hrow.ne_nil hne)] at hc
    exact hrow.head? c hc
  rw [hskip, readTags_append_of_row hrow hne hts]

/-- Where a tag has been read, what is left stands behind the longest accepted start. -/
theorem longest_accepted {ts : List Tag} (h : readTags (skipSpaces s) = (ts, r)) (hne : ts ≠ []) :
    ∃ p, s = p ++ r ∧ Longest Accepted s p := by
  obtain ⟨hts, x, hrow, hx⟩ := row_of_readTags h
  obtain ⟨w, hw, hs⟩ := exists_spaces s
  have hs : s = (w ++ x) ++ r := by rw [List.append_assoc, ← hx]; exact hs
  refine ⟨w ++ x, hs, ⟨r, hs.symm⟩, accepted_iff.2 ⟨ts, hne, hts, w, x, hw, hrow, rfl⟩, ?_⟩
  rintro q ⟨t, ht⟩ hq
  obtain ⟨us, -, hread⟩ := hq.readTags_append t
  rw [ht, h] at hread
  obtain ⟨-, y, -, hy⟩ := row_of_readTags (s := skipSpaces t) rfl
  rw [← (Prod.mk.inj hread).2] at hy
  have hle : size r ≤ size t := by
    refine Nat.le_trans ?_ (size_le_of_isSuffix (skipSpaces_suffix t))
    rw [hy, size_append]
    exact Nat.le_add_left _ _
  have hsize : size q + size t = size (w ++ x) + size r := by
    rw [← size_append, ← size_append, ht, ← hs]
  omega

/-- Where no tag has been read, no start is accepted, and what is left stands behind
    the longest viable start. -/
theorem longest_viable (h : readTag (skipSpaces s) = .error r) :
    (∀ q, q <+: s → ¬ Accepted q) ∧ ∃ p, s = p ++ r ∧ Longest Viable s p := by
  constructor
  · rintro q ⟨t, rfl⟩ hq
    obtain ⟨ts, hne, hread⟩ := hq.readTags_append t
    rw [readTags_of_error h] at hread
    have hnil := (Prod.mk.inj hread).1
    exact hne (List.append_eq_nil_iff.1 hnil.symm).1
  · obtain ⟨x, hx, hstops⟩ := stops_of_readTag h
    obtain ⟨w, hw, hs⟩ := exists_spaces s
    have hs : s = (w ++ x) ++ r := by rw [List.append_assoc, ← hx]; exact hs
    refine ⟨w ++ x, hs, ⟨r, hs.symm⟩, ?_, ?_⟩
    · obtain ⟨t, u, hu, hrow⟩ := hstops.exists_row
      exact ⟨t, accepted_iff.2 ⟨[u], by simp, by simpa using hu, w, x ++ t, hw, hrow, by simp⟩⟩
    · rintro q hq ⟨t, ht⟩
      rcases size_le_or_exists ⟨r, hs.symm⟩ hq with hle | ⟨c, t', rfl⟩
      · exact hle
      · -- a start with one more character stops where `x` does, whatever comes behind it
        have hc : r.head? = some c := by
          rw [hs, List.prefix_append_right_inj] at hq
          obtain ⟨y, hy⟩ := hq
          rw [← hy]
          rfl
        have hread := readTag_of_stops (hstops.of_head?_eq (c :: (t' ++ t)) hc)
        have hskip : skipSpaces (w ++ x ++ c :: t' ++ t) = x ++ c :: (t' ++ t) := by
          rw [List.append_assoc, List.append_assoc, List.cons_append]
          refine dropWhile_spaces hw fun d hd => ?_
          refine of_head?_dropWhile (s := s) (p := isSpace) ?_
          rw [show s.dropWhile isSpace = x ++ r from hx]
          rw [List.head?_append] at hd ⊢
          rwa [hc]
        obtain ⟨ts, hne, hts⟩ := ht.readTags_append []
        rw [List.append_nil, hskip, readTags_of_error hread] at hts
        exact absurd (List.append_eq_nil_iff.1 (Prod.mk.inj hts).1.symm).1 hne

/-! ## The error -/

theorem stopped_append (p r : List Char) :
    PatternError.stopped (p ++ r) r =
      .noTag (p.count '\n' + 1) (size (lastLine p) + 1) r.head? := by
  have hsize : size (p ++ r) - size r = size p := by rw [size_append, Nat.add_sub_cancel]
  simp only [PatternError.stopped, hsize, Place.of_append]

theorem detail_eq (found : Option Char) : PatternError.detail found =
    "expected '[TAG]'" ++ found.elim "" fun c => ", found '" ++ String.singleton c ++ "'" := by
  have hfound : "expected '[TAG]', found '" = "expected '[TAG]'" ++ ", found '" := by decide
  cases found with
  | none =>
    rw [Option.elim_none, String.append_empty]
    rfl
  | some c =>
    rw [Option.elim_some, ← String.append_assoc, ← String.append_assoc, ← hfound]
    rfl

/-- What is left of a text that is not blank stands behind its longest accepted
    start, or else behind its longest viable one. -/
theorem exists_longest_of_parse_error {s : String} {e : PatternError} (h : parse s = .error e)
    (hb : ¬ s.toList.all isBlank = true) : ∃ p r, s.toList = p ++ r ∧
      e = .noTag (p.count '\n' + 1) (size (lastLine p) + 1) r.head? ∧
      (Longest Accepted s.toList p ∨
        (∀ q, q <+: s.toList → ¬ Accepted q) ∧ Longest Viable s.toList p) := by
  simp only [parse, if_neg hb] at h
  cases hread : readTag (skipSpaces s.toList) with
  | error r =>
    rw [hread] at h
    obtain ⟨hnone, p, hp, hlong⟩ := longest_viable hread
    refine ⟨p, r, hp, ?_, Or.inr ⟨hnone, hlong⟩⟩
    rw [← stopped_append, ← hp]
    exact (Except.error.inj h).symm
  | ok found =>
    obtain ⟨t, r⟩ := found
    rw [hread] at h
    dsimp only at h
    split at h
    · cases h
    · rename_i ts rest hne hrest
      obtain ⟨p, hp, hlong⟩ := longest_accepted (readTags_of_ok hread) (by simp)
      refine ⟨p, rest, by rw [hp, hrest], ?_, Or.inl hlong⟩
      rw [← stopped_append]
      rw [hrest] at hp
      rw [← hp]
      exact (Except.error.inj h).symm

/-- **Where a text that is no pattern is reported.**  A blank text is reported as
    such.  Any other is reported behind the longest pattern that it starts with, or,
    if it starts with none, behind its longest start that can be continued to a
    pattern, by line, column and the character that is there. -/
theorem parse_error_place {s : String} {e : PatternError} (h : parse s = .error e) :
    (e = .blank ↔ trim s = "") ∧
      (trim s ≠ "" → ∃ p r, s.toList = p ++ r ∧
        ((∃ q, q <+: s.toList ∧ Accepted q) → Longest Accepted s.toList p) ∧
        ((∀ q, q <+: s.toList → ¬ Accepted q) → Longest Viable s.toList p) ∧
        e = .noTag (p.count '\n' + 1) (size (lastLine p) + 1) r.head? ∧
        (r.head? = none ↔ size p = size s.toList) ∧
        e.message = "syntax error at " ++ toString (p.count '\n' + 1) ++ ":" ++
          toString (size (lastLine p) + 1) ++ ": " ++ ("expected '[TAG]'" ++
            r.head?.elim "" fun c => ", found '" ++ String.singleton c ++ "'")) := by
  rw [ne_eq, trim_eq_empty_iff]
  by_cases hb : s.toList.all isBlank = true
  · simp only [parse, if_pos hb] at h
    exact ⟨⟨fun _ => hb, fun _ => (Except.error.inj h).symm⟩, fun hn => absurd hb hn⟩
  · obtain ⟨p, r, hs, he, hlong⟩ := exists_longest_of_parse_error h hb
    refine ⟨⟨fun hblank => ?_, fun hn => absurd hn hb⟩, fun _ => ⟨p, r, hs, ?_, ?_, he, ?_, ?_⟩⟩
    · rw [he] at hblank
      cases hblank
    · rintro ⟨q, hq, hacc⟩
      exact hlong.resolve_right fun hnone => hnone.1 q hq hacc
    · intro hnone
      rcases hlong with hlong | ⟨-, hlong⟩
      · exact absurd hlong.holds (hnone p hlong.start)
      · exact hlong
    · rw [hs, size_append, List.head?_eq_none_iff, ← size_eq_zero]
      omega
    · rw [he, ← detail_eq]
      rfl

/-- The second tag has a space inside, and is reported at its start. -/
theorem parse_error_place_second_tag :
    let s := "[Ñ]\n [B C]"
    parse s = .error (.noTag 2 2 (some '[')) ∧ trim s ≠ "" ∧
      ∃ p r, s.toList = p ++ r ∧ Longest Accepted s.toList p ∧ p.count '\n' = 1 ∧
        size (lastLine p) = 1 ∧ r.head? = some '[' := by
  intro s
  have herror : parse s = .error (.noTag 2 2 (some '[')) := by decide +kernel
  have hblank : trim s ≠ "" := by decide
  have hacc : Accepted "[Ñ]".toList := ⟨⟨[⟨"Ñ"⟩]⟩, by decide +kernel⟩
  obtain ⟨-, hplace⟩ := parse_error_place herror
  obtain ⟨p, r, hs, hlong, -, he, -, -⟩ := hplace hblank
  obtain ⟨hline, hcolumn, hfound⟩ := PatternError.noTag.inj he
  refine ⟨herror, hblank, p, r, hs, hlong ⟨_, ?_, hacc⟩, ?_, ?_, hfound.symm⟩
  · exact ⟨"\n [B C]".toList, by decide⟩
  · omega
  · omega

end SignGloss.Pattern
