/-
  What stands between the braces of a placeholder.

  * a text is `Plain` if it has no braces;
  * `paramsOf l` are the parameters of a list `l`: it is cut at the commas, each
    piece is cut at its first `=`, both sides are trimmed, and what has no key is
    dropped;
  * `Inside c p`: the text `c` makes the placeholder `p`, with spaces around the
    tag and, if there is a colon, parameters behind it.

  Main statement: a placeholder is read iff the text up to the next brace makes it
  and that brace is a closing one (`readPlaceholder_eq_some_iff`).
-/
import Mathlib.Data.List.TakeWhile
import SignGloss.Template.Scan
import SignGloss.Proofs.Runs

namespace SignGloss.Template

open Text

/-- No braces. -/
def Plain (c : List Char) : Prop := ∀ d ∈ c, isPlain d = true

instance (c : List Char) : Decidable (Plain c) := List.decidableBAll (isPlain · = true) c

/-- The parameter that a text without commas gives. -/
def paramOf (t : List Char) : Param where
  key := String.ofList (trimChars (t.takeWhile (· != '=')))
  value := String.ofList (trimChars ((t.dropWhile (· != '=')).drop 1))

/-- The parameters of a list of them. -/
def paramsOf (l : List Char) : List Param := ((l.splitOn ',').map paramOf).filter (·.key ≠ "")

/-- What may follow the tag and its spaces. -/
inductive Tail : List Char → List Param → Prop
  | none : Tail [] []
  | list (l) : Tail (':' :: l) (paramsOf l)

/-- A text that makes a placeholder if braces are put around it.  The tag is a
    maximal run, as it is followed by a space, a colon or the end. -/
structure Inside (c : List Char) (p : Placeholder) : Prop where
  name_ne_empty : p.tag.name ≠ ""
  name_chars : ∀ d ∈ p.tag.name.toList, isBlank d = false ∧ d ≠ ':'
  parts : ∃ w w' tail, Spaces w ∧ Spaces w' ∧ Tail tail p.params ∧
    c = w ++ (p.tag.name.toList ++ (w' ++ tail))

/-! ## Characters -/

theorem isPlain_iff {c : Char} : isPlain c = true ↔ c ≠ '{' ∧ c ≠ '}' := by simp [isPlain]

theorem isPlain_of_isSpace {c : Char} (h : isSpace c = true) : isPlain c = true := by
  refine isPlain_iff.2 ⟨?_, ?_⟩ <;> rintro rfl <;> exact absurd h (by decide)

theorem isTagChar_iff {c : Char} :
    isTagChar c = true ↔ (isBlank c = false ∧ c ≠ ':') ∧ isPlain c = true := by
  simp [isTagChar, isPlain, and_assoc]

theorem isValueChar_iff {c : Char} : isValueChar c = true ↔ c ≠ ',' ∧ isPlain c = true := by
  simp [isValueChar, isPlain, and_assoc]

theorem isKeyChar_iff {c : Char} : isKeyChar c = true ↔ c ≠ '=' ∧ isValueChar c = true := by
  simp [isKeyChar, isValueChar, and_assoc]

theorem Plain.append {c d : List Char} (hc : Plain c) (hd : Plain d) : Plain (c ++ d) := by
  intro x hx
  rcases List.mem_append.1 hx with hx | hx
  · exact hc x hx
  · exact hd x hx

theorem Plain.of_append {c d : List Char} (h : Plain (c ++ d)) : Plain c ∧ Plain d :=
  ⟨fun x hx => h x (by simp [hx]), fun x hx => h x (by simp [hx])⟩

/-- The plain text before a brace is the run at the start. -/
theorem plain_run {c r : List Char} (hc : Plain c) :
    (c ++ '}' :: r).takeWhile isPlain = c ∧ (c ++ '}' :: r).dropWhile isPlain = '}' :: r :=
  run_eq hc fun d hd => by
    obtain rfl : '}' = d := Option.some.inj hd
    decide

/-! ## Parameters -/

theorem paramOf_append {k v : List Char} (hk : ∀ c ∈ k, c ≠ '=') :
    paramOf (k ++ '=' :: v) = ⟨String.ofList (trimChars k), String.ofList (trimChars v)⟩ := by
  obtain ⟨htake, hdrop⟩ := run_eq (p := (· != '=')) (l := k) (m := '=' :: v)
    (fun c hc => by simpa using hk c hc) (by simp)
  simp only [paramOf, htake, hdrop, List.drop_succ_cons, List.drop_zero]

theorem paramOf_of_no_value {k : List Char} (hk : ∀ c ∈ k, c ≠ '=') :
    paramOf k = ⟨String.ofList (trimChars k), ""⟩ := by
  obtain ⟨htake, hdrop⟩ := run_eq (p := (· != '=')) (l := k) (m := [])
    (fun c hc => by simpa using hk c hc) (by simp)
  rw [List.append_nil] at htake hdrop
  simp only [paramOf, htake, hdrop]
  rfl

/-- A parameter is read from the text up to the next comma or brace. -/
theorem readParam_eq (s : List Char) :
    readParam s = (paramOf (s.takeWhile isValueChar), s.dropWhile isValueChar) := by
  have hne : ∀ c ∈ s.takeWhile isKeyChar, c ≠ '=' := fun c hc =>
    (isKeyChar_iff.1 (of_mem_takeWhile hc)).1
  unfold readParam
  split
  · rename_i r hr
    obtain ⟨htake, hdrop⟩ := longer_run_of_eq (fun _ => isKeyChar_iff) (by decide) hr
    rw [htake, hdrop, paramOf_append hne]
  · rename_i hr
    obtain ⟨htake, hdrop⟩ := longer_run_of_ne (fun _ => isKeyChar_iff) hr
    rw [htake, hdrop, paramOf_of_no_value hne]

/-- Parameters are read from the text up to the next brace, cut at its commas. -/
theorem readParams_eq (s : List Char) :
    readParams s = (((s.takeWhile isPlain).splitOn ',').map paramOf, s.dropWhile isPlain) := by
  have hcomma : ∀ t : List Char, ',' ∉ t.takeWhile isValueChar := fun t ht =>
    absurd (of_mem_takeWhile ht) (by decide)
  fun_induction readParams s with
  | case1 s p r h _ ps r' hr ih =>
    obtain ⟨hp, hrest⟩ := Prod.mk.inj (h.symm.trans (readParam_eq s))
    obtain ⟨hps, hr'⟩ := Prod.mk.inj (hr.symm.trans ih)
    obtain ⟨htake, hdrop⟩ := longer_run_of_eq (fun _ => isValueChar_iff) (by decide) hrest.symm
    rw [htake, hdrop, List.splitOn_append_cons_self_of_not_mem (hcomma s), List.map_cons, ← hp,
      ← hps, ← hr']
  | case2 s p r hr h =>
    obtain ⟨hp, hrest⟩ := Prod.mk.inj (h.symm.trans (readParam_eq s))
    obtain ⟨htake, hdrop⟩ := longer_run_of_ne (fun _ => isValueChar_iff) (hrest ▸ hr)
    rw [htake, hdrop, List.splitOn_eq_singleton (hcomma s), List.map_singleton, ← hp, ← hrest]

/-! ## Placeholders -/

theorem plain_of_spaces {w : List Char} (hw : Spaces w) : Plain w := fun c hc =>
  isPlain_of_isSpace (hw c hc)

/-- What is read behind a tag goes up to the next brace. -/
theorem tail_of_readParamList {m rest : List Char} (hm : ∀ c ∈ m.head?, isSpace c = false)
    (h : (readParamList m).2.dropWhile isSpace = '}' :: rest) :
    ∃ tail, Plain tail ∧ Tail tail ((readParamList m).1.filter (·.key ≠ "")) ∧
      m = tail ++ '}' :: rest := by
  unfold readParamList at h ⊢
  split
  · rename_i l
    simp only [readParams_eq] at h ⊢
    have hbrace : ∀ c ∈ (l.dropWhile isPlain).head?, isSpace c = false := fun c hc => by
      cases hs : isSpace c with
      | false => rfl
      | true => exact absurd (isPlain_of_isSpace hs) (by simp [of_head?_dropWhile hc])
    rw [dropWhile_isSpace_eq_self hbrace] at h
    exact ⟨':' :: l.takeWhile isPlain, List.forall_mem_cons.2 ⟨by decide, fun c => of_mem_takeWhile⟩,
      .list _, by rw [List.cons_append, ← h, List.takeWhile_append_dropWhile]⟩
  · simp only at h ⊢
    rw [dropWhile_isSpace_eq_self hm] at h
    exact ⟨[], by simp [Plain], .none, h⟩

theorem readParamList_of_tail {tail : List Char} {ps : List Param} (hp : Plain tail)
    (h : Tail tail ps) (rest : List Char) :
    (readParamList (tail ++ '}' :: rest)).1.filter (·.key ≠ "") = ps ∧
      (readParamList (tail ++ '}' :: rest)).2 = '}' :: rest := by
  cases h with
  | none => exact ⟨rfl, rfl⟩
  | list l =>
    obtain ⟨htake, hdrop⟩ := plain_run (List.forall_mem_cons.1 hp).2 (r := rest)
    simp only [List.cons_append, readParamList, readParams_eq, htake, hdrop, and_true]
    rfl

/-- Neither a tag nor the spaces behind it go on there. -/
theorem Tail.head? {tail : List Char} {ps : List Param} (h : Tail tail ps) (rest : List Char) :
    ∀ d ∈ (tail ++ '}' :: rest).head?, isTagChar d = false ∧ isSpace d = false := by
  intro d hd
  cases h with
  | none =>
    obtain rfl : '}' = d := Option.some.inj hd
    decide
  | list l =>
    obtain rfl : ':' = d := Option.some.inj hd
    decide

/-- What has been read as a placeholder is a text that makes it. -/
theorem inside_of_readPlaceholder {s r : List Char} {p : Placeholder}
    (h : readPlaceholder s = some (p, r)) :
    ∃ c, Plain c ∧ Inside c p ∧ s = c ++ '}' :: r := by
  unfold readPlaceholder at h
  simp only [List.isEmpty_iff] at h
  split at h
  · cases h
  rename_i hne
  split at h
  · rename_i r' hr'
    obtain ⟨rfl, rfl⟩ := Prod.mk.inj (Option.some.inj h)
    obtain ⟨hname, w, w', hw, hw', -, hs⟩ := of_spacedName_eq (p := isTagChar) (s := s) rfl rfl
    obtain ⟨tail, htail, hps, hm⟩ := tail_of_readParamList (fun c => of_head?_dropWhile) hr'
    have hplain : Plain ((s.dropWhile isSpace).takeWhile isTagChar) := fun c hc =>
      (isTagChar_iff.1 (hname c hc)).2
    refine ⟨w ++ ((s.dropWhile isSpace).takeWhile isTagChar ++ (w' ++ tail)), ?_, ⟨?_, ?_, ?_⟩, ?_⟩
    · exact (plain_of_spaces hw).append (hplain.append ((plain_of_spaces hw').append htail))
    · simpa using hne
    · intro d hd
      exact (isTagChar_iff.1 (hname d (by simpa using hd))).1
    · exact ⟨w, w', tail, hw, hw', hps, by rw [String.toList_ofList]⟩
    · rw [hm] at hs
      simpa using hs
  · cases h

/-- A text that makes a placeholder is read as it. -/
theorem readPlaceholder_of_inside {c : List Char} {p : Placeholder} (hc : Plain c)
    (h : Inside c p) (r : List Char) : readPlaceholder (c ++ '}' :: r) = some (p, r) := by
  obtain ⟨w, w', tail, hw, hw', htail, rfl⟩ := h.parts
  have hne : p.tag.name.toList ≠ [] := fun h' => h.name_ne_empty (String.toList_eq_nil_iff.1 h')
  obtain ⟨-, hplain⟩ := hc.of_append
  obtain ⟨hname, hplain⟩ := hplain.of_append
  obtain ⟨-, hplain⟩ := hplain.of_append
  obtain ⟨htag, hrest⟩ := spacedName_eq (p := isTagChar) (r := tail ++ '}' :: r)
    (fun d hd => (isTagChar_iff.1 hd).1.1) hw hw' hne
    (fun d hd => isTagChar_iff.2 ⟨h.name_chars d hd, hname d hd⟩)
    (fun d hd => ⟨(htail.head? r d hd).2, fun _ => (htail.head? r d hd).1⟩)
  obtain ⟨hps, hr⟩ := readParamList_of_tail hplain htail r
  have hs : w ++ (p.tag.name.toList ++ (w' ++ tail)) ++ '}' :: r =
      w ++ (p.tag.name.toList ++ (w' ++ (tail ++ '}' :: r))) := by simp
  have hend : ('}' :: r).dropWhile isSpace = '}' :: r := List.dropWhile_cons_of_neg (by decide)
  rw [hs]
  simp only [readPlaceholder, htag, hrest, List.isEmpty_iff, hne, if_false, hr, hend, hps,
    String.ofList_toList]

/-- **A placeholder is read iff the text up to the next brace makes it** and this
    brace is a closing one. -/
theorem readPlaceholder_eq_some_iff {s r : List Char} {p : Placeholder} :
    readPlaceholder s = some (p, r) ↔ ∃ c, Plain c ∧ Inside c p ∧ s = c ++ '}' :: r := by
  constructor
  · exact inside_of_readPlaceholder
  · rintro ⟨c, hc, h, rfl⟩
    exact readPlaceholder_of_inside hc h r

end SignGloss.Template
