/-
  Values are read as they were written.

  * `Codec.Restores c a`: however the value `a` is spread over lines and whatever is
    around it, the codec `c` reads it as it wrote it;
  * strings, truth values and integers are restored (`restores_text` and others), and so are
    optional values, values of another type and lists, if their parts are.

  Main statement: a codec that restores every value is `Codec.Lossless`
  (`Codec.lossless_of_restores`).
-/
import SignGloss.Json.Codec
import SignGloss.Proofs.WrittenIntegers

namespace SignGloss.Json

variable {α β : Type} {w r : List Char}

/-- The value is read as it was written.  Its text starts with neither space nor
    a closing bracket, so that it may be an element of a list. -/
structure Codec.Restores (c : Codec α) (a : α) : Prop where
  starts : ∀ d, ∃ ch t, (c.value a).write d = ch :: t ∧ isSpace ch = false ∧ ch ≠ ']'
  reads : ∀ d {w r}, Blank w → Ended r →
    c.reader.run (w ++ ((c.value a).write d ++ r)) = .ok (a, r)

namespace Codec

/-! ## Values without parts -/

theorem restores_text (s : String) : text.Restores s where
  starts d := ⟨_, _, rfl, by decide, by decide⟩
  reads d {w r} hw hr := by
    have hskip : skip (w ++ ((text.value s).write d ++ r)) =
        '"' :: (s.toList.flatMap escaped ++ '"' :: r) := by
      rw [text, Value.write, writeText_append, skip_blank_append hw (by decide)]
    simp only [text, Reader.text] at hskip ⊢
    simp only [hskip, readText_escaped, String.ofList_toList]

theorem restores_boolean (b : Bool) : boolean.Restores b where
  starts d := by cases b <;> exact ⟨_, _, rfl, by decide, by decide⟩
  reads d {w r} hw hr := by
    cases b with
    | true =>
      have hskip : skip (w ++ ((boolean.value true).write d ++ r)) = ['t', 'r', 'u', 'e'] ++ r :=
        skip_blank_append hw (by decide)
      simp only [boolean, Reader.boolean] at hskip ⊢
      simp [hskip, readWord]
    | false =>
      have hskip : skip (w ++ ((boolean.value false).write d ++ r)) =
          ['f', 'a', 'l', 's', 'e'] ++ r := skip_blank_append hw (by decide)
      simp only [boolean, Reader.boolean] at hskip ⊢
      simp [hskip, readWord]

/-! ## Integers -/

/-- An integer of 64 bits is read as it was written, where it is accepted. -/
theorem run_number {expected : String} {accept : Number → Except Cause α} {z : Int} {a : α}
    (hnatural : ∀ n : Nat, z = n → accept (.natural n) = .ok a)
    (hnegative : ∀ n : Nat, z = -n → accept (.negative n) = .ok a)
    (hlow : -(mostNegative : Int) ≤ z) (hhigh : z < UInt64.size) (hw : Blank w) (hr : Ended r) :
    (Reader.number expected accept).run (w ++ (writeInteger z ++ r)) = .ok (a, r) := by
  rcases writeInteger_cases z with ⟨n, c, ds, hz, hwrite, hds, hc⟩ | ⟨n, hpos, hz, hwrite⟩
  · have hn : n < UInt64.size := by omega
    have hskip : skip (w ++ (writeInteger z ++ r)) = c :: (ds ++ r) := by
      rw [hwrite, hds]
      exact skip_blank_append hw (isSpace_of_isDigit hc)
    have hread := readNumber_toDigits false hn hr
    rw [hds, List.cons_append] at hread
    simp only [Reader.number, hskip]
    split
    · rename_i hminus
      exact absurd (List.cons.inj hminus).1 (ne_of_isDigit hc (by decide))
    · rename_i hnil
      cases hnil
    · rename_i hcons
      obtain ⟨rfl, rfl⟩ := List.cons.inj hcons
      rw [if_pos hc, hread]
      have hplus : integerOf false n = .natural n := rfl
      simp only [takeNumber, hplus, hnatural n hz]
  · have hn : n < UInt64.size := by simp only [mostNegative] at hlow; simp only [UInt64.size]; omega
    have hskip : skip (w ++ (writeInteger z ++ r)) = '-' :: (Nat.toDigits 10 n ++ r) := by
      rw [hwrite]
      exact skip_blank_append hw (by decide)
    have hminus : integerOf true n = .negative n := by
      have hmost : n ≤ mostNegative := by omega
      simp [integerOf, hpos, hmost]
    simp only [Reader.number, hskip, readNumber_toDigits true hn hr, takeNumber, hminus,
      hnegative n hz]

/-- Integers within bounds that other values are read from. -/
theorem restores_integer {expected : String} {low high : Int} {f : Int → α} {g : α → Int} {a : α}
    (hlow : -(mostNegative : Int) ≤ low) (hhigh : high < UInt64.size) (ha : low ≤ g a ∧ g a ≤ high)
    (hfg : f (g a) = a) :
    (⟨(Reader.integer expected low high).map f, fun a => .integer (g a)⟩ : Codec α).Restores a where
  starts d := by
    rcases writeInteger_cases (g a) with ⟨n, c, ds, hz, hwrite, hds, hc⟩ | ⟨n, hpos, hz, hwrite⟩
    · exact ⟨c, ds, hwrite.trans hds, isSpace_of_isDigit hc, ne_of_isDigit hc (by decide)⟩
    · exact ⟨_, _, hwrite, by decide, by decide⟩
  reads d {w r} hw hr := by
    have hrun : (Reader.integer expected low high).run (w ++ (writeInteger (g a) ++ r)) =
        .ok (g a, r) := by
      refine run_number (fun n hn => ?_) (fun n hn => ?_) (by omega) (by omega) hw hr
      · rw [acceptInteger, if_pos (by omega), hn]
      · rw [acceptInteger, if_pos (by omega), hn]
    simp only [Reader.map, Value.write, hrun, hfg]

theorem restores_natural8 (n : UInt8) : natural8.Restores n :=
  restores_integer (g := fun n : UInt8 => n.toNat) (by decide) (by decide)
    ⟨Int.natCast_nonneg _, Int.ofNat_le.2 (Nat.le_of_lt_succ n.toNat_lt)⟩ (by simp)

theorem restores_natural32 (n : UInt32) : natural32.Restores n :=
  restores_integer (g := fun n : UInt32 => n.toNat) (by decide) (by decide)
    ⟨Int.natCast_nonneg _, Int.ofNat_le.2 (Nat.le_of_lt_succ n.toNat_lt)⟩ (by simp)

theorem restores_integer32 (n : Int32) : integer32.Restores n :=
  restores_integer (g := Int32.toInt) (by decide) (by decide)
    ⟨n.le_toInt, Int.le_of_lt_add_one n.toInt_lt⟩ n.ofInt_toInt

/-! ## Values with parts -/

section
variable {c : Codec α} {a : α}

theorem restores_none (c : Codec α) : c.optional.Restores none where
  starts d := ⟨_, _, rfl, by decide, by decide⟩
  reads d {w r} hw hr := by
    have hskip : skip (w ++ ((c.optional.value none).write d ++ r)) = ['n', 'u', 'l', 'l'] ++ r :=
      skip_blank_append hw (by decide)
    simp only [optional, Reader.optional] at hskip ⊢
    simp [hskip, readWord]

/-- A value that does not look like `null` is restored as the value that is there. -/
theorem Restores.some (h : c.Restores a) (hnull : ∀ d t, (c.value a).write d ≠ 'n' :: t) :
    c.optional.Restores (some a) where
  starts := h.starts
  reads d {w r} hw hr := by
    obtain ⟨ch, t, hwrite, hspace, -⟩ := h.starts d
    have hne : ch ≠ 'n' := by
      rintro rfl
      exact hnull d t hwrite
    have hread := h.reads d hw hr
    have hskip : skip (w ++ ((c.value a).write d ++ r)) = ch :: (t ++ r) := by
      rw [hwrite]
      exact skip_blank_append hw hspace
    simp only [optional, Reader.optional]
    split
    · rename_i hn
      rw [hskip] at hn
      exact absurd (List.cons.inj hn).1 hne
    · simp only [Reader.map, hread]

theorem restores_optional_text (s : Option String) : text.optional.Restores s := by
  cases s with
  | none => exact restores_none _
  | some s => exact (restores_text s).some fun d t h => absurd (List.cons.inj h).1 (by decide)

theorem restores_optional_natural8 (n : Option UInt8) : natural8.optional.Restores n := by
  cases n with
  | none => exact restores_none _
  | some n =>
    refine (restores_natural8 n).some fun d t h => ?_
    rcases writeInteger_cases n.toNat with ⟨m, ch, ds, -, hwrite, hds, hc⟩ | ⟨m, hpos, hz, -⟩
    · exact ne_of_isDigit hc (by decide) (List.cons.inj ((hwrite.trans hds).symm.trans h)).1
    · omega

theorem Restores.map {f : α → β} {g : β → α} {b : β} (h : c.Restores (g b)) (hfg : f (g b) = b) :
    (c.map f g).Restores b where
  starts := h.starts
  reads d {w r} hw hr := by
    simp only [Codec.map, Reader.map, h.reads d hw hr, hfg]

end

/-! ### Lists -/

section
variable {x : Reader α} {first : Bool} {s r r' : List Char} {a : α} {as : List α}

theorem readElements_of_end (h : nextElement first s = .ok (false, r)) :
    readElements x first s = .ok ([], r) := by
  rw [readElements]
  split
  · rename_i hn
    cases h.symm.trans hn
  · rename_i hn
    cases h.symm.trans hn
    rfl
  · rename_i hn
    cases h.symm.trans hn

theorem readElements_cons (h : nextElement first s = .ok (true, r)) (ha : x.run r = .ok (a, r')) :
    readElements x first s = (readElements x false r').map fun p => (a :: p.1, p.2) := by
  rw [readElements]
  split
  · rename_i hn
    cases h.symm.trans hn
  · rename_i hn
    cases h.symm.trans hn
  · rename_i hn
    cases h.symm.trans hn
    split
    · rename_i hx
      cases ha.symm.trans hx
    · rename_i hx
      cases ha.symm.trans hx
      cases readElements x false r' <;> rfl

theorem readElements_of_element (h : nextElement first s = .ok (true, r))
    (ha : x.run r = .ok (a, r')) {u : List Char} (has : readElements x false r' = .ok (as, u)) :
    readElements x first s = .ok (a :: as, u) := by
  rw [readElements_cons h ha, has]
  rfl

/-- The elements of a list behind the first one, up to the end of the list. -/
def laterItems (d : Spread) (vs : List Value) : List Char := commaBefore vs ++ Value.writeItems d vs

theorem write_list (d : Spread) (v : Value) (vs : List Value) :
    (Value.list (v :: vs)).write d = '[' :: (d.deeper.lineStart ++ (v.write d.deeper ++
      (laterItems d.deeper vs ++ (d.lineStart ++ [']'])))) := by
  simp [Value.write, Value.writeItems, laterItems]

theorem laterItems_cons (d : Spread) (v : Value) (vs : List Value) :
    laterItems d (v :: vs) = ',' :: (d.lineStart ++ (v.write d ++ laterItems d vs)) := by
  simp [laterItems, commaBefore, Value.writeItems]

/-- A list goes on with a comma, or with space and its closing bracket. -/
theorem ended_laterItems (d : Spread) (vs : List Value) (hw : Blank w) :
    Ended (laterItems d vs ++ (w ++ ']' :: r)) := by
  cases vs with
  | nil => exact ended_closing hw (Or.inl rfl)
  | cons v vs =>
    rw [laterItems_cons]
    exact ended_comma _

/-- The elements behind the first are read as they were written. -/
theorem readElements_laterItems {c : Codec α} (d : Spread) (hw : Blank w)
    (h : ∀ a ∈ as, c.Restores a) :
    readElements c.reader false (laterItems d (as.map c.value) ++ (w ++ ']' :: r)) =
      .ok (as, r) := by
  induction as with
  | nil =>
    refine readElements_of_end ?_
    have hskip : skip (w ++ ']' :: r) = ']' :: r := skip_blank_append hw (by decide)
    simp [nextElement, laterItems, commaBefore, Value.writeItems, hskip]
  | cons a as ih =>
    obtain ⟨ha, has⟩ := List.forall_mem_cons.1 h
    obtain ⟨ch, t, hwrite, hspace, hne⟩ := ha.starts d
    refine readElements_of_element ?_
      (ha.reads d blank_nil (ended_laterItems d (as.map c.value) hw)) (ih has)
    have hskip : ∀ t', skip (d.lineStart ++ ch :: t') = ch :: t' := fun t' =>
      skip_blank_append (blank_lineStart d) hspace
    have hcomma : ∀ t', skip (',' :: t') = ',' :: t' := fun t' => skip_cons (by decide)
    rw [List.map_cons, laterItems_cons, hwrite]
    simp [nextElement, hcomma, hskip, hne]

theorem restores_list {c : Codec α} (h : ∀ a ∈ as, c.Restores a) : c.list.Restores as where
  starts d := by
    cases as with
    | nil => exact ⟨_, _, rfl, by decide, by decide⟩
    | cons a as =>
      exact ⟨_, _, write_list d (c.value a) (as.map c.value), by decide, by decide⟩
  reads d {w r} hw hr := by
    cases as with
    | nil =>
      have hskip : skip (w ++ ((c.list.value []).write d ++ r)) = '[' :: ']' :: r :=
        skip_blank_append hw (by decide)
      have hend : skip (']' :: r) = ']' :: r := skip_cons (by decide)
      simp only [list, Reader.list] at hskip ⊢
      simp only [hskip]
      exact readElements_of_end (by simp [nextElement, hend])
    | cons a as =>
      obtain ⟨ha, has⟩ := List.forall_mem_cons.1 h
      obtain ⟨ch, t, hwrite, hspace, hne⟩ := ha.starts d.deeper
      have hskip : skip (w ++ ((c.list.value (a :: as)).write d ++ r)) =
          '[' :: (d.deeper.lineStart ++ ((c.value a).write d.deeper ++
            (laterItems d.deeper (as.map c.value) ++ (d.lineStart ++ ']' :: r)))) := by
        have hlist := write_list d (c.value a) (as.map c.value)
        simp only [list, List.map_cons, hlist]
        rw [List.cons_append, skip_blank_append hw (by decide)]
        simp
      simp only [list, Reader.list] at hskip ⊢
      simp only [hskip]
      refine readElements_of_element ?_
        (ha.reads d.deeper blank_nil (ended_laterItems _ (as.map c.value) (blank_lineStart d)))
        (readElements_laterItems d.deeper (blank_lineStart d) has)
      have hspace' : ∀ t', skip (d.deeper.lineStart ++ ch :: t') = ch :: t' := fun t' =>
        skip_blank_append (blank_lineStart _) hspace
      rw [hwrite]
      simp [nextElement, hspace', hne]

end

/-! ## Whole texts -/

theorem readAll_eq_ok_iff {x : Reader α} {s : List Char} {a : α} :
    readAll x s = .ok a ↔ ∃ r, x.run s = .ok (a, r) ∧ skip r = [] := by
  constructor
  · intro h
    unfold readAll at h
    split at h
    · cases h
    · rename_i b r hrun
      split at h
      · rename_i hskip
        cases h
        exact ⟨r, hrun, hskip⟩
      · cases h
  · rintro ⟨r, hrun, hskip⟩
    simp only [readAll, hrun, hskip]

/-- A text is decoded to the value at its start, if nothing but space is behind it. -/
theorem decode_eq_ok_iff_run {c : Codec α} {text : String} {a : α} :
    c.decode text = .ok a ↔ ∃ r, c.reader.run text.toList = .ok (a, r) ∧ skip r = [] := by
  rw [← readAll_eq_ok_iff, decode, read]
  cases readAll c.reader text.toList with
  | error f => exact ⟨nofun, nofun⟩
  | ok b => exact ⟨fun h => congrArg _ (Except.ok.inj h), fun h => congrArg _ (Except.ok.inj h)⟩

/-- What is restored is what the whole text is read as, however it is spread over lines. -/
theorem Restores.decode_write {c : Codec α} {a : α} (h : c.Restores a) (d : Spread) :
    c.decode (String.ofList ((c.value a).write d)) = .ok a := by
  have hread := h.reads d blank_nil ended_nil
  rw [List.nil_append, List.append_nil] at hread
  refine decode_eq_ok_iff_run.2 ⟨[], ?_, rfl⟩
  rw [String.toList_ofList, hread]

/-- Every value is read back, written on one line or over several. -/
def Lossless (c : Codec α) : Prop :=
  ∀ a, c.decode (c.encode a) = .ok a ∧ c.decode (c.value a).indented = .ok a

/-- **A codec that restores every value loses none.** -/
theorem lossless_of_restores {c : Codec α} (h : ∀ a, c.Restores a) : c.Lossless :=
  fun a => ⟨(h a).decode_write none, (h a).decode_write (some 0)⟩

end Codec

end SignGloss.Json
