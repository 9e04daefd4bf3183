/-
  Writing templates and reading them back.

  * a parameter or placeholder is `Writable` if nothing in it would be read as a
    separator or lost at the ends;
  * `Atom.text` is an atom as it is written;
  * `opening s` is the plain text at the start of `s` and the brace behind it:
    on that alone depends whether a brace before `s` is a stray one.

  Main statements: merged segments without stray braces are read back from their
  text, and so is every template that has been read (`text_round_trip`).
-/
import SignGloss.Proofs.TemplateGrammar
import SignGloss.Proofs.Words

namespace SignGloss

open Text Template

/-! ## What can be written -/

/-- A parameter with a key, which reading does not cut or trim further. -/
structure Param.Writable (p : Param) : Prop where
  key_ne_empty : p.key ≠ ""
  key_trimmed : trimChars p.key.toList = p.key.toList
  key_chars : ∀ c ∈ p.key.toList, c ≠ '=' ∧ c ≠ ',' ∧ c ≠ '{' ∧ c ≠ '}'
  value_trimmed : trimChars p.value.toList = p.value.toList
  value_chars : ∀ c ∈ p.value.toList, c ≠ ',' ∧ c ≠ '{' ∧ c ≠ '}'

instance (p : Param) : Decidable p.Writable :=
  decidable_of_iff
    (p.key ≠ "" ∧ trimChars p.key.toList = p.key.toList ∧
      (p.key.toList.all fun c => c ≠ '=' ∧ c ≠ ',' ∧ c ≠ '{' ∧ c ≠ '}') ∧
      trimChars p.value.toList = p.value.toList ∧
      p.value.toList.all fun c => c ≠ ',' ∧ c ≠ '{' ∧ c ≠ '}')
    ⟨fun ⟨h₁, h₂, h₃, h₄, h₅⟩ => ⟨h₁, h₂, by simpa using h₃, h₄, by simpa using h₅⟩,
      fun ⟨h₁, h₂, h₃, h₄, h₅⟩ => ⟨h₁, h₂, by simpa using h₃, h₄, by simpa using h₅⟩⟩

/-- A placeholder with a tag that is read as one run, and parameters that can be
    written. -/
structure Placeholder.Writable (p : Placeholder) : Prop where
  name_ne_empty : p.tag.name ≠ ""
  name_chars : ∀ c ∈ p.tag.name.toList, isBlank c = false ∧ c ≠ ':' ∧ c ≠ '{' ∧ c ≠ '}'
  params : ∀ q ∈ p.params, q.Writable

instance (p : Placeholder) : Decidable p.Writable :=
  decidable_of_iff
    (p.tag.name ≠ "" ∧
      (p.tag.name.toList.all fun c => isBlank c = false ∧ c ≠ ':' ∧ c ≠ '{' ∧ c ≠ '}') ∧
      ∀ q ∈ p.params, q.Writable)
    ⟨fun ⟨h₁, h₂, h₃⟩ => ⟨h₁, by simpa using h₂, h₃⟩,
      fun ⟨h₁, h₂, h₃⟩ => ⟨h₁, by simpa using h₂, h₃⟩⟩

/-- An atom as it is written. -/
def Atom.text : Atom → List Char
  | char c => literalChar c
  | placeholder p => placeholderText p
  | stray c => [c]

namespace Template

/-! ## Parameters -/

theorem of_mem_splitOn {x : Char} {t s : List Char} (h : t ∈ s.splitOn x) : x ∉ t ∧ t ⊆ s := by
  induction s generalizing t with
  | nil =>
    obtain rfl : t = [] := by simpa using h
    simp
  | cons c s ih =>
    rw [List.splitOn_cons_eq_if_modifyHead] at h
    split at h
    · rcases List.mem_cons.1 h with rfl | h
      · simp
      · exact ⟨(ih h).1, List.subset_cons_of_subset c (ih h).2⟩
    · rename_i hc
      -- the first piece goes on with the character, the others are those of the rest
      cases hs : s.splitOn x with
      | nil => exact absurd hs (List.splitOn_ne_nil x s)
      | cons u us =>
        rw [hs] at h ih
        rcases List.mem_cons.1 h with rfl | h
        · obtain ⟨hx, hsub⟩ := ih (t := u) (by simp)
          refine ⟨fun hxc => ?_, List.cons_subset_cons c hsub⟩
          rcases List.mem_cons.1 hxc with rfl | hxu
          · exact hc (beq_self_eq_true x)
          · exact hx hxu
        · obtain ⟨hx, hsub⟩ := ih (t := t) (List.mem_cons_of_mem u h)
          exact ⟨hx, List.subset_cons_of_subset c hsub⟩

theorem plain_of_isValueChar {l : List Char} (h : ∀ c ∈ l, isValueChar c = true) : Plain l :=
  fun c hc => (isValueChar_iff.1 (h c hc)).2

/-- The text of a parameter stands between commas. -/
theorem paramText_chars {q : Param} (h : q.Writable) : ∀ c ∈ paramText q, isValueChar c = true := by
  intro c hc
  rw [isValueChar_iff, isPlain_iff]
  simp only [paramText, List.mem_append, List.mem_singleton] at hc
  rcases hc with (hc | rfl) | hc
  · exact (h.key_chars c hc).2
  · decide
  · exact h.value_chars c hc

theorem paramOf_paramText {q : Param} (h : q.Writable) : paramOf (paramText q) = q := by
  have hne : ∀ c ∈ q.key.toList, c ≠ '=' := fun c hc => (h.key_chars c hc).1
  rw [paramText, List.append_assoc, List.singleton_append, paramOf_append hne, h.key_trimmed,
    h.value_trimmed, String.ofList_toList, String.ofList_toList]

/-- Parameters are read back from their texts with commas between them. -/
theorem paramsOf_intercalate {ps : List Param} (hne : ps ≠ []) (h : ∀ q ∈ ps, q.Writable) :
    paramsOf ([','].intercalate (ps.map paramText)) = ps := by
  have hcomma : ∀ t ∈ ps.map paramText, ',' ∉ t := fun t ht hc => by
    obtain ⟨q, hq, rfl⟩ := List.mem_map.1 ht
    exact absurd (paramText_chars (h q hq) ',' hc) (by decide)
  have hread : (ps.map paramText).map paramOf = ps := by
    rw [List.map_map]
    exact (List.map_congr_left fun q hq => paramOf_paramText (h q hq)).trans (List.map_id ps)
  rw [paramsOf, List.splitOn_intercalate ',' hcomma (by simpa using hne), hread,
    List.filter_eq_self]
  exact fun q hq => decide_eq_true (h q hq).key_ne_empty

/-- What is read as a parameter, and has a key, can be written. -/
theorem writable_of_mem_paramsOf {l : List Char} {q : Param} (hl : Plain l) (h : q ∈ paramsOf l) :
    q.Writable := by
  obtain ⟨hq, hkey⟩ := List.mem_filter.1 h
  obtain ⟨t, ht, rfl⟩ := List.mem_map.1 hq
  obtain ⟨hcomma, hsub⟩ := of_mem_splitOn ht
  have hchars : ∀ c ∈ t, c ≠ ',' ∧ c ≠ '{' ∧ c ≠ '}' := fun c hc =>
    ⟨fun he => hcomma (he ▸ hc), isPlain_iff.1 (hl c (hsub hc))⟩
  refine ⟨of_decide_eq_true hkey, ?_, fun c hc => ?_, ?_, fun c hc => ?_⟩
  · rw [paramOf, String.toList_ofList, trimChars_trimChars]
  · rw [paramOf, String.toList_ofList] at hc
    have hrun := mem_of_mem_trimChars hc
    have hne : c ≠ '=' := by simpa using of_mem_takeWhile hrun
    exact ⟨hne, hchars c ((List.takeWhile_prefix _).subset hrun)⟩
  · rw [paramOf, String.toList_ofList, trimChars_trimChars]
  · rw [paramOf, String.toList_ofList] at hc
    have hrest := List.mem_of_mem_drop (mem_of_mem_trimChars hc)
    exact hchars c ((List.dropWhile_suffix _).subset hrest)

/-! ## Placeholders -/

/-- What stands between the braces of a placeholder as it is written. -/
def insideText (p : Placeholder) : List Char :=
  p.tag.name.toList ++
    if p.params.isEmpty then [] else ':' :: [','].intercalate (p.params.map paramText)

theorem placeholderText_eq (p : Placeholder) (r : List Char) :
    placeholderText p ++ r = '{' :: (insideText p ++ '}' :: r) := by
  simp [placeholderText, insideText]

/-- A placeholder that can be written is read back. -/
theorem inside_of_writable {p : Placeholder} (h : p.Writable) :
    Plain (insideText p) ∧ Inside (insideText p) p := by
  have hname : Plain p.tag.name.toList := fun c hc => isPlain_iff.2 (h.name_chars c hc).2.2
  have hblank : ∀ c ∈ p.tag.name.toList, isBlank c = false ∧ c ≠ ':' := fun c hc =>
    ⟨(h.name_chars c hc).1, (h.name_chars c hc).2.1⟩
  unfold insideText
  cases hps : p.params with
  | nil =>
    refine ⟨by simpa using hname, h.name_ne_empty, hblank, [], [], [], .nil, .nil, ?_, by simp⟩
    rw [hps]
    exact .none
  | cons q qs =>
    have hparams : ∀ q' ∈ q :: qs, q'.Writable := fun q' hq' => h.params q' (hps ▸ hq')
    have hlist : Plain ([','].intercalate ((q :: qs).map paramText)) :=
      forall_mem_intercalate (by simp [isPlain]) fun t ht => by
        obtain ⟨q', hq', rfl⟩ := List.mem_map.1 ht
        exact plain_of_isValueChar (paramText_chars (hparams q' hq'))
    refine ⟨hname.append (List.forall_mem_cons.2 ⟨by decide, hlist⟩), h.name_ne_empty, hblank,
      [], [], _, .nil, .nil, ?_, rfl⟩
    rw [hps]
    have htail := Tail.list ([','].intercalate ((q :: qs).map paramText))
    rwa [paramsOf_intercalate (List.cons_ne_nil q qs) hparams] at htail

/-- What is read as a placeholder can be written. -/
theorem writable_of_inside {c : List Char} {p : Placeholder} (hc : Plain c) (h : Inside c p) :
    p.Writable := by
  obtain ⟨w, w', tail, -, -, htail, rfl⟩ := h.parts
  obtain ⟨hname, hrest⟩ := hc.of_append.2.of_append
  refine ⟨h.name_ne_empty, fun d hd => ?_, ?_⟩
  · exact ⟨(h.name_chars d hd).1, (h.name_chars d hd).2, isPlain_iff.1 (hname d hd)⟩
  have hplain := hrest.of_append.2
  generalize p.params = ps at htail
  cases htail with
  | none => simp
  | list l => exact fun q hq => writable_of_mem_paramsOf (List.forall_mem_cons.1 hplain).2 hq

/-! ## Atoms -/

variable {s t : List Char} {as : List Atom}

theorem segmentText_eq (seg : Segment) : segmentText seg = seg.atoms.flatMap Atom.text := by
  cases seg with
  | literal t => simp [segmentText, Segment.atoms, List.flatMap_map, Atom.text]
  | placeholder p => simp [segmentText, Segment.atoms, Atom.text]
  | stray c => simp [segmentText, Segment.atoms, Atom.text]

/-- The text of a template is that of its atoms. -/
theorem toList_text (t : Template) :
    t.text.toList = (t.segments.flatMap Segment.atoms).flatMap Atom.text := by
  rw [text, String.toList_ofList, List.flatMap_assoc]
  exact congrArg t.segments.flatMap (funext segmentText_eq)

theorem piece_char (c : Char) (r : List Char) : Piece ((Atom.char c).text ++ r) (.char c) r := by
  rw [Atom.text, literalChar]
  split
  · rename_i h
    rcases h with rfl | rfl
    · exact .opening
    · exact .closing
  · rename_i h
    exact .plain (isPlain_iff.2 (by simpa using h))

theorem piece_placeholder {p : Placeholder} (h : p.Writable) (r : List Char) :
    Piece ((Atom.placeholder p).text ++ r) (.placeholder p) r := by
  rw [Atom.text, placeholderText_eq]
  exact .placeholder (inside_of_writable h).1 (inside_of_writable h).2

/-- Atoms without stray braces are read back. -/
theorem reads_text (hstray : as.any Atom.isStray = false)
    (hw : ∀ p, Atom.placeholder p ∈ as → p.Writable) : Reads (as.flatMap Atom.text) as := by
  induction as with
  | nil => exact .nil
  | cons a as ih =>
    rw [List.any_cons, Bool.or_eq_false_iff] at hstray
    have hreads := ih hstray.2 fun p hp => hw p (List.mem_cons_of_mem a hp)
    rw [List.flatMap_cons]
    cases a with
    | char c => exact .cons (piece_char c _) hreads
    | placeholder p => exact .cons (piece_placeholder (hw p (by simp)) _) hreads
    | stray c => cases hstray.1

/-! ## Stray braces -/

/-- The plain text at the start of a text, and the brace behind it. -/
def opening (s : List Char) : List Char × Option Char :=
  (s.takeWhile isPlain, (s.dropWhile isPlain).head?)

theorem opening_eq_iff {c : List Char} {b : Char} (hc : Plain c) (hb : isPlain b = false) :
    opening s = (c, some b) ↔ ∃ r, s = c ++ b :: r := by
  constructor
  · intro h
    obtain ⟨htake, hhead⟩ := Prod.mk.inj h
    obtain ⟨r, hr⟩ := List.head?_eq_some_iff.1 hhead
    exact ⟨r, by rw [← htake, ← hr, List.takeWhile_append_dropWhile]⟩
  · rintro ⟨r, rfl⟩
    obtain ⟨htake, hdrop⟩ := run_eq (m := b :: r) hc fun d hd => by
      obtain rfl : b = d := Option.some.inj hd
      exact hb
    rw [opening, htake, hdrop]
    rfl

theorem opening_eq_brace_iff {b : Char} (hb : isPlain b = false) :
    opening s = ([], some b) ↔ s.head? = some b := by
  rw [opening_eq_iff (by simp [Plain]) hb]
  exact List.head?_eq_some_iff.symm

theorem opening_brace {b : Char} (hb : isPlain b = false) : opening (b :: s) = ([], some b) :=
  (opening_eq_brace_iff hb).2 rfl

/-- Behind a brace the opening does not go on. -/
theorem opening_brace_congr {b : Char} (hb : isPlain b = false) (s t : List Char) :
    opening (b :: s) = opening (b :: t) := by
  rw [opening_brace hb, opening_brace hb]

theorem opening_cons {c : Char} (hc : isPlain c = true) :
    opening (c :: s) = (c :: (opening s).1, (opening s).2) := by
  rw [opening, List.takeWhile_cons_of_pos hc, List.dropWhile_cons_of_pos hc]
  rfl

/-- A brace before a text is a stray one before another text with the same opening. -/
theorem piece_stray {b : Char} {r : List Char} (h : Piece s (.stray b) r)
    (ho : opening r = opening t) : Piece (b :: t) (.stray b) t := by
  cases h with
  | strayOpening hd hn =>
    refine .strayOpening (fun ht => ?_) fun c p t' hc hi ht => ?_
    · rw [(opening_eq_brace_iff (by decide)).2 ht] at ho
      exact hd ((opening_eq_brace_iff (by decide)).1 ho)
    · rw [(opening_eq_iff hc (by decide)).2 ⟨t', ht⟩] at ho
      obtain ⟨r', rfl⟩ := (opening_eq_iff hc (by decide)).1 ho
      exact hn c p r' hc hi rfl
  | strayClosing hd =>
    refine .strayClosing fun ht => ?_
    rw [(opening_eq_brace_iff (by decide)).2 ht] at ho
    exact hd ((opening_eq_brace_iff (by decide)).1 ho)

/-- What has been read is read back from its text, which has the same opening. -/
theorem Reads.text (h : Reads s as) :
    Reads (as.flatMap Atom.text) as ∧ opening s = opening (as.flatMap Atom.text) := by
  induction h with
  | nil => exact ⟨.nil, rfl⟩
  | cons hp _ ih =>
    obtain ⟨hreads, hopen⟩ := ih
    rw [List.flatMap_cons]
    cases hp with
    | opening =>
      exact ⟨.cons (piece_char '{' _) hreads, opening_brace_congr (by decide) _ _⟩
    | closing =>
      exact ⟨.cons (piece_char '}' _) hreads, opening_brace_congr (by decide) _ _⟩
    | placeholder hc hi =>
      refine ⟨.cons (piece_placeholder (writable_of_inside hc hi) _) hreads, ?_⟩
      rw [Atom.text, placeholderText_eq]
      exact opening_brace_congr (by decide) _ _
    | strayOpening hd hn =>
      exact ⟨.cons (piece_stray (.strayOpening hd hn) hopen) hreads,
        opening_brace_congr (by decide) _ _⟩
    | strayClosing hd =>
      exact ⟨.cons (piece_stray (.strayClosing hd) hopen) hreads,
        opening_brace_congr (by decide) _ _⟩
    | plain hc =>
      refine ⟨.cons (piece_char _ _) hreads, ?_⟩
      have htext : ∀ c, isPlain c = true → literalChar c = [c] := fun c hc =>
        if_neg (by simpa [not_or] using isPlain_iff.1 hc)
      rw [Atom.text, htext _ hc, List.singleton_append, opening_cons hc, opening_cons hc, hopen]

/-! ## Templates -/

theorem mem_placeholders_of_atom {t : Template} {p : Placeholder}
    (h : Atom.placeholder p ∈ t.segments.flatMap Segment.atoms) : p ∈ t.placeholders := by
  obtain ⟨seg, hseg, hp⟩ := List.mem_flatMap.1 h
  refine List.mem_filterMap.2 ⟨seg, hseg, ?_⟩
  cases seg with
  | literal t =>
    obtain ⟨c, -, hc⟩ := List.mem_map.1 hp
    cases hc
  | placeholder q =>
    obtain rfl : p = q := by simpa [Segment.atoms] using hp
    rfl
  | stray c => simp [Segment.atoms] at hp

theorem parse_eq_of_reads {t : Template} {s : String} (h : Merged t.segments)
    (hr : Reads s.toList (t.segments.flatMap Segment.atoms)) : parse s = t := by
  have hsegs := segments_parse_eq_iff.2 ⟨h, hr⟩
  cases t
  exact congrArg Template.mk hsegs

/-- **Writing a template and reading it are inverse.**  Merged segments without stray
    braces, with placeholders that can be written, are read back from their text.
    Whatever text a template has been read from, stray braces included, reading what
    is written for it gives the same template. -/
theorem text_round_trip :
    (∀ t : Template, Merged t.segments → t.hasStray = false →
      (∀ p ∈ t.placeholders, p.Writable) → parse t.text = t) ∧
    ∀ s : String, parse (parse s).text = parse s := by
  constructor
  · intro t hmerged hstray hw
    refine parse_eq_of_reads hmerged ?_
    rw [toList_text]
    refine reads_text ?_ fun p hp => hw p (mem_placeholders_of_atom hp)
    rw [any_isStray_atoms]
    exact hstray
  · intro s
    refine parse_eq_of_reads (segments_parse_eq_iff.1 rfl).1 ?_
    rw [toList_text]
    exact (reads_parse s).text.1

/-- Doubled braces on both sides of a placeholder, and stray ones around another. -/
theorem text_round_trip_braces :
    parse "\x7b\x7b\x7bV:k=v=w,l=\x7d\x7d\x7d\x7bA\x7d" =
      ⟨[.literal "\x7b", .placeholder ⟨⟨"V"⟩, [⟨"k", "v=w"⟩, ⟨"l", ""⟩]⟩, .literal "\x7d",
        .placeholder ⟨⟨"A"⟩, []⟩]⟩ ∧
    parse (parse "\x7b \x7bA:, x \x7d\x7d\x7d \x7d").text =
      parse "\x7b \x7bA:, x \x7d\x7d\x7d \x7d" := by
  refine ⟨Eq.trans (congrArg parse ?_) (text_round_trip.1 _ ⟨?_, ?_⟩ rfl ?_), text_round_trip.2 _⟩
  all_goals decide

end Template

end SignGloss
