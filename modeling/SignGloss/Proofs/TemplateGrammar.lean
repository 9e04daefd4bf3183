/-
  Reading a template position by position.

  * an `Atom` is what one position of a template gives: a character of literal
    text, a placeholder or a stray brace;
  * `Piece s a r`: the text `s` starts with the atom `a`, and `r` is left of it;
  * `Reads s as`: the text `s` is the atoms `as`, each read where the one before
    ends;
  * segments are `Merged` if no literal is empty and no two are neighbours.

  There is one way to read a text (`Reads.unique`), and merged segments are known
  by their atoms (`Merged.eq_of_atoms`).

  Main statement: the segments of a template are the merged ones with the atoms
  of its text, all of the text is read, and there is a stray brace iff the text
  does not fall into plain characters, doubled braces and placeholders
  (`parse_eq_reference`).
-/
import Mathlib.Data.List.Chain
import SignGloss.Proofs.PlaceholderGrammar

namespace SignGloss

open Text

/-- What a position of a template gives. -/
inductive Atom where
  /-- a character of literal text -/
  | char (c : Char)
  | placeholder (p : Placeholder)
  | stray (brace : Char)
deriving DecidableEq

/-- A character of literal text. -/
def Atom.isChar : Atom → Bool
  | char _ => true
  | _ => false

/-- The atom is a stray brace. -/
def Atom.isStray : Atom → Bool
  | stray _ => true
  | _ => false

/-- The atoms of a segment. -/
def Segment.atoms : Segment → List Atom
  | literal t => t.toList.map .char
  | placeholder p => [.placeholder p]
  | stray c => [.stray c]

namespace Template

/-! ## The grammar -/

/-- A text starts with an atom, and the rest is left. -/
inductive Piece : List Char → Atom → List Char → Prop
  | opening {s} : Piece ('{' :: '{' :: s) (.char '{') s
  | closing {s} : Piece ('}' :: '}' :: s) (.char '}') s
  | placeholder {c p s} : Plain c → Inside c p → Piece ('{' :: (c ++ '}' :: s)) (.placeholder p) s
  | strayOpening {s} : s.head? ≠ some '{' →
      (∀ c p r, Plain c → Inside c p → s ≠ c ++ '}' :: r) → Piece ('{' :: s) (.stray '{') s
  | strayClosing {s} : s.head? ≠ some '}' → Piece ('}' :: s) (.stray '}') s
  | plain {c s} : isPlain c = true → Piece (c :: s) (.char c) s

/-- A text is read atom by atom. -/
inductive Reads : List Char → List Atom → Prop
  | nil : Reads [] []
  | cons {s a r as} : Piece s a r → Reads r as → Reads s (a :: as)

/-- A literal. -/
def isLiteral : Segment → Bool
  | .literal _ => true
  | _ => false

/-- No literal is empty, and no two are neighbours. -/
structure Merged (segs : List Segment) : Prop where
  nonempty : ∀ seg ∈ segs, seg ≠ .literal ""
  apart : segs.IsChain fun a b => ¬ (isLiteral a = true ∧ isLiteral b = true)

/-- A stretch of a template without stray braces. -/
inductive Part : List Char → Prop
  | opening : Part ['{', '{']
  | closing : Part ['}', '}']
  | placeholder {c p} : Plain c → Inside c p → Part ('{' :: (c ++ ['}']))
  | plain {c} : isPlain c = true → Part [c]

/-! ## One way to read -/

variable {s r : List Char} {a : Atom} {as : List Atom}

/-- An opening brace behind plain text is not its closing one. -/
theorem cons_opening_ne {c : List Char} (hc : Plain c) (r t : List Char) :
    '{' :: t ≠ c ++ '}' :: r := by
  cases c with
  | nil => simp
  | cons d c =>
    rintro h
    obtain ⟨rfl, -⟩ := List.cons.inj h
    exact absurd (hc '{' (by simp)) (by decide)

theorem piece_opening_iff : Piece ('{' :: s) a r ↔ (s = '{' :: r ∧ a = .char '{') ∨
    (∃ c p, Plain c ∧ Inside c p ∧ s = c ++ '}' :: r ∧ a = .placeholder p) ∨
      (s.head? ≠ some '{' ∧ (∀ c p r, Plain c → Inside c p → s ≠ c ++ '}' :: r) ∧
        a = .stray '{' ∧ r = s) := by
  constructor
  · intro h
    cases h with
    | opening => exact Or.inl ⟨rfl, rfl⟩
    | placeholder hc hi => exact Or.inr (Or.inl ⟨_, _, hc, hi, rfl, rfl⟩)
    | strayOpening hd hn => exact Or.inr (Or.inr ⟨hd, hn, rfl, rfl⟩)
    | plain hc => exact absurd hc (by decide)
  · rintro (⟨rfl, rfl⟩ | ⟨c, p, hc, hi, rfl, rfl⟩ | ⟨hd, hn, rfl, rfl⟩)
    · exact .opening
    · exact .placeholder hc hi
    · exact .strayOpening hd hn

theorem piece_closing_iff : Piece ('}' :: s) a r ↔
    (s = '}' :: r ∧ a = .char '}') ∨ (s.head? ≠ some '}' ∧ a = .stray '}' ∧ r = s) := by
  constructor
  · intro h
    cases h with
    | closing => exact Or.inl ⟨rfl, rfl⟩
    | strayClosing hd => exact Or.inr ⟨hd, rfl, rfl⟩
    | plain hc => exact absurd hc (by decide)
  · rintro (⟨rfl, rfl⟩ | ⟨hd, rfl, rfl⟩)
    · exact .closing
    · exact .strayClosing hd

theorem piece_plain_iff {c : Char} (hc : isPlain c = true) :
    Piece (c :: s) a r ↔ a = .char c ∧ r = s := by
  constructor
  · intro h
    cases h with
    | opening | closing | placeholder | strayOpening | strayClosing => exact absurd hc (by decide)
    | plain => exact ⟨rfl, rfl⟩
  · rintro ⟨rfl, rfl⟩
    exact .plain hc

/-- A text starts with one atom at most. -/
theorem Piece.unique {a' : Atom} {r' : List Char} (h : Piece s a r) (h' : Piece s a' r') :
    a = a' ∧ r = r' := by
  cases h with
  | opening =>
    rcases piece_opening_iff.1 h' with ⟨h, rfl⟩ | ⟨c, p, hc, -, h, -⟩ | ⟨hd, -⟩
    · exact ⟨rfl, (List.cons.inj h).2⟩
    · exact absurd h (cons_opening_ne hc _ _)
    · exact absurd rfl hd
  | placeholder hc hi =>
    rcases piece_opening_iff.1 h' with ⟨h, -⟩ | ⟨c, p, hc', hi', h, rfl⟩ | ⟨-, hn, -⟩
    · exact absurd h.symm (cons_opening_ne hc _ _)
    · have hread := readPlaceholder_of_inside hc hi r
      rw [h, readPlaceholder_of_inside hc' hi'] at hread
      obtain ⟨rfl, rfl⟩ := Prod.mk.inj (Option.some.inj hread)
      exact ⟨rfl, rfl⟩
    · exact absurd rfl (hn _ _ _ hc hi)
  | strayOpening hd hn =>
    rcases piece_opening_iff.1 h' with ⟨rfl, -⟩ | ⟨c, p, hc, hi, h, -⟩ | ⟨-, -, rfl, rfl⟩
    · exact absurd rfl hd
    · exact absurd h (hn _ _ _ hc hi)
    · exact ⟨rfl, rfl⟩
  | closing =>
    rcases piece_closing_iff.1 h' with ⟨h, rfl⟩ | ⟨hd, -⟩
    · exact ⟨rfl, (List.cons.inj h).2⟩
    · exact absurd rfl hd
  | strayClosing hd =>
    rcases piece_closing_iff.1 h' with ⟨rfl, -⟩ | ⟨-, rfl, rfl⟩
    · exact absurd rfl hd
    · exact ⟨rfl, rfl⟩
  | plain hc =>
    obtain ⟨rfl, rfl⟩ := (piece_plain_iff hc).1 h'
    exact ⟨rfl, rfl⟩

/-- **There is one way to read a text.** -/
theorem Reads.unique {as' : List Atom} (h : Reads s as) (h' : Reads s as') : as = as' := by
  induction h generalizing as' with
  | nil =>
    cases h' with
    | nil => rfl
    | cons hp _ => cases hp
  | cons hp _ ih =>
    cases h' with
    | nil => cases hp
    | cons hp' hr' =>
      obtain ⟨rfl, rfl⟩ := hp.unique hp'
      rw [ih hr']

/-! ## Segments -/

theorem reads_plain {t : List Char} (ht : Plain t) (h : Reads r as) :
    Reads (t ++ r) (t.map Atom.char ++ as) := by
  induction t with
  | nil => exact h
  | cons c t ih =>
    obtain ⟨hc, ht⟩ := List.forall_mem_cons.1 ht
    exact .cons (.plain hc) (ih ht)

/-- A brace that starts nothing else is a stray one. -/
theorem piece_of_readBrace {seg : Segment} (hesc : readEscape s = none) (hslot : readSlot s = none)
    (h : readBrace s = some (seg, r)) : ∃ b, seg = .stray b ∧ Piece s (.stray b) r := by
  unfold readBrace at h
  split at h
  · rename_i b t
    split at h
    · cases h
    rename_i hb
    obtain ⟨rfl, rfl⟩ := Prod.mk.inj (Option.some.inj h)
    have hne : b = '{' ∨ b = '}' := by
      rw [isPlain_iff] at hb
      tauto
    refine ⟨b, rfl, ?_⟩
    rcases hne with rfl | rfl
    · refine .strayOpening (fun ht => ?_) fun c p r' hc hi ht => ?_
      · obtain ⟨t', rfl⟩ := List.head?_eq_some_iff.1 ht
        cases hesc
      · rw [ht, readSlot, readPlaceholder_of_inside hc hi] at hslot
        cases hslot
    · refine .strayClosing fun ht => ?_
      obtain ⟨t', rfl⟩ := List.head?_eq_some_iff.1 ht
      cases hesc
  · cases h

/-- A segment is read as its atoms. -/
theorem reads_of_readSegment {seg : Segment} (h : readSegment s = some (seg, r))
    (hr : Reads r as) : Reads s (seg.atoms ++ as) ∧ seg ≠ .literal "" := by
  rcases readSegment_eq_some.1 h with h | ⟨hesc, h | ⟨hslot, h | ⟨-, h⟩⟩⟩
  · unfold readEscape at h
    split at h
    · obtain ⟨rfl, rfl⟩ := Prod.mk.inj (Option.some.inj h)
      exact ⟨.cons .opening hr, by decide⟩
    · obtain ⟨rfl, rfl⟩ := Prod.mk.inj (Option.some.inj h)
      exact ⟨.cons .closing hr, by decide⟩
    · cases h
  · unfold readSlot at h
    split at h
    · obtain ⟨⟨p, r'⟩, hp, he⟩ := Option.map_eq_some_iff.1 h
      obtain ⟨rfl, rfl⟩ := Prod.mk.inj he
      obtain ⟨c, hc, hi, rfl⟩ := readPlaceholder_eq_some_iff.1 hp
      exact ⟨.cons (.placeholder hc hi) hr, by simp⟩
    · cases h
  · obtain ⟨b, rfl, hp⟩ := piece_of_readBrace hesc hslot h
    exact ⟨.cons hp hr, by simp⟩
  · unfold readText at h
    simp only [List.isEmpty_iff] at h
    split at h
    · cases h
    · rename_i hne
      obtain ⟨rfl, rfl⟩ := Prod.mk.inj (Option.some.inj h)
      refine ⟨?_, by simpa using hne⟩
      have hread := reads_plain (t := s.takeWhile isPlain) (fun c => of_mem_takeWhile) hr
      rw [List.takeWhile_append_dropWhile] at hread
      simpa [Segment.atoms] using hread

/-- Some segment is read unless the text is at its end. -/
theorem readSegment_eq_none (h : readSegment s = none) : s = [] := by
  simp only [readSegment, Option.orElse_eq_orElse, Option.orElse_eq_or, Option.or_eq_none_iff] at h
  obtain ⟨-, -, hbrace, htext⟩ := h
  cases s with
  | nil => rfl
  | cons c s =>
    cases hc : isPlain c with
    | false => simp [readBrace, hc] at hbrace
    | true => simp [readText, hc] at htext

/-- Segments are read to the end of the text. -/
theorem reads_readSegments (s : List Char) : (readSegments s).2 = [] ∧
    Reads s ((readSegments s).1.flatMap Segment.atoms) ∧
      ∀ seg ∈ (readSegments s).1, seg ≠ .literal "" := by
  fun_induction readSegments s with
  | case1 s h =>
    obtain rfl := readSegment_eq_none h
    exact ⟨rfl, .nil, by simp⟩
  | case2 s seg r h _ segs left hr ih =>
    rw [hr] at ih
    obtain ⟨hleft, hreads, hne⟩ := ih
    obtain ⟨hreads', hne'⟩ := reads_of_readSegment h hreads
    exact ⟨hleft, hreads', List.forall_mem_cons.2 ⟨hne', hne⟩⟩

/-! ## Merging -/

theorem Merged.nil : Merged [] := ⟨by simp, .nil⟩

theorem merged_cons_iff {seg : Segment} {segs : List Segment} : Merged (seg :: segs) ↔
    seg ≠ .literal "" ∧ (∀ seg' ∈ segs.head?, ¬ (isLiteral seg = true ∧ isLiteral seg' = true)) ∧
      Merged segs := by
  constructor
  · rintro ⟨hne, hap⟩
    rw [List.isChain_cons] at hap
    rw [List.forall_mem_cons] at hne
    exact ⟨hne.1, hap.1, hne.2, hap.2⟩
  · rintro ⟨hne, hhead, hs⟩
    exact ⟨List.forall_mem_cons.2 ⟨hne, hs.nonempty⟩, List.isChain_cons.2 ⟨hhead, hs.apart⟩⟩

theorem atoms_mergeLiterals (segs : List Segment) :
    (mergeLiterals segs).flatMap Segment.atoms = segs.flatMap Segment.atoms := by
  fun_induction mergeLiterals segs with
  | case1 => rfl
  | case2 t segs u segs' h ih =>
    rw [h] at ih
    simp only [List.flatMap_cons] at ih ⊢
    rw [← ih]
    simp [Segment.atoms]
  | case3 t segs h ih | case4 t segs h ih => rw [List.flatMap_cons, List.flatMap_cons, ih]

theorem isLiteral_iff {seg : Segment} : isLiteral seg = true ↔ ∃ t, seg = .literal t := by
  cases seg <;> simp [isLiteral]

theorem merged_mergeLiterals {segs : List Segment} (h : ∀ seg ∈ segs, seg ≠ .literal "") :
    Merged (mergeLiterals segs) := by
  fun_induction mergeLiterals segs with
  | case1 => exact .nil
  | case2 t segs u segs' hm ih =>
    obtain ⟨ht, hs⟩ := List.forall_mem_cons.1 h
    have hmerged := ih hs
    rw [hm] at hmerged
    obtain ⟨-, hhead, hs'⟩ := merged_cons_iff.1 hmerged
    refine merged_cons_iff.2 ⟨fun he => ?_, hhead, hs'⟩
    have htu : t ++ u = "" := Segment.literal.inj he
    exact ht (by rw [(String.append_eq_empty_iff.1 htu).1])
  | case3 t segs hm ih =>
    obtain ⟨ht, hs⟩ := List.forall_mem_cons.1 h
    refine merged_cons_iff.2 ⟨ht, fun seg' hseg' hlit => ?_, ih hs⟩
    obtain ⟨u, rfl⟩ := isLiteral_iff.1 hlit.2
    obtain ⟨segs', hsegs'⟩ := List.head?_eq_some_iff.1 hseg'
    exact hm u segs' hsegs'
  | case4 seg segs hseg ih =>
    obtain ⟨hne, hs⟩ := List.forall_mem_cons.1 h
    refine merged_cons_iff.2 ⟨hne, fun seg' _ hlit => ?_, ih hs⟩
    obtain ⟨t, rfl⟩ := isLiteral_iff.1 hlit.1
    exact hseg t rfl

/-- Merged segments go on behind a literal with an atom that is no character. -/
theorem head?_atoms {segs : List Segment} {t : String} (h : Merged (.literal t :: segs)) :
    ∀ a ∈ (segs.flatMap Segment.atoms).head?, a.isChar = false := by
  obtain ⟨-, hhead, -⟩ := merged_cons_iff.1 h
  intro a ha
  cases segs with
  | nil => cases ha
  | cons seg segs =>
    cases seg with
    | literal u => exact absurd ⟨rfl, rfl⟩ (hhead _ rfl)
    | placeholder p =>
      obtain rfl : Atom.placeholder p = a := Option.some.inj ha
      rfl
    | stray c =>
      obtain rfl : Atom.stray c = a := Option.some.inj ha
      rfl

/-- The characters at the start of the atoms of merged segments are its first literal. -/
theorem literal_run {segs : List Segment} {t : String} (h : Merged (.literal t :: segs)) :
    ((Segment.literal t :: segs).flatMap Segment.atoms).takeWhile Atom.isChar =
        t.toList.map Atom.char ∧
      ((Segment.literal t :: segs).flatMap Segment.atoms).dropWhile Atom.isChar =
        segs.flatMap Segment.atoms := by
  rw [List.flatMap_cons]
  refine run_eq (fun a ha => ?_) (head?_atoms h)
  obtain ⟨c, -, rfl⟩ := List.mem_map.1 ha
  rfl

theorem exists_atom_of_ne {seg : Segment} (h : seg ≠ .literal "") :
    ∃ a as, seg.atoms = a :: as ∧ a.isChar = isLiteral seg := by
  cases seg with
  | literal t =>
    cases ht : t.toList with
    | nil => exact absurd (congrArg Segment.literal (String.toList_eq_nil_iff.1 ht)) h
    | cons c l => exact ⟨.char c, l.map .char, by simp [Segment.atoms, ht], rfl⟩
  | placeholder p => exact ⟨.placeholder p, [], rfl, rfl⟩
  | stray c => exact ⟨.stray c, [], rfl, rfl⟩

/-- **Merged segments are known by their atoms.** -/
theorem Merged.eq_of_atoms {segs segs' : List Segment} (h : Merged segs) (h' : Merged segs')
    (ha : segs.flatMap Segment.atoms = segs'.flatMap Segment.atoms) : segs = segs' := by
  induction segs generalizing segs' with
  | nil =>
    cases segs' with
    | nil => rfl
    | cons seg' segs' =>
      obtain ⟨a, as, has, -⟩ := exists_atom_of_ne (merged_cons_iff.1 h').1
      simp [has] at ha
  | cons seg segs ih =>
    obtain ⟨hne, -, hs⟩ := merged_cons_iff.1 h
    obtain ⟨a, as, has, hac⟩ := exists_atom_of_ne hne
    cases segs' with
    | nil => simp [has] at ha
    | cons seg' segs' =>
      obtain ⟨hne', -, hs'⟩ := merged_cons_iff.1 h'
      obtain ⟨a', as', has', hac'⟩ := exists_atom_of_ne hne'
      have hlit : isLiteral seg = isLiteral seg' := by
        rw [List.flatMap_cons, List.flatMap_cons, has, has'] at ha
        rw [← hac, ← hac', (List.cons.inj ha).1]
      -- a literal takes all characters at the start, any other segment the first atom
      cases seg with
      | literal t =>
        obtain ⟨t', rfl⟩ := isLiteral_iff.1 (hlit.symm.trans rfl)
        obtain ⟨htake, hdrop⟩ := literal_run h
        obtain ⟨htake', hdrop'⟩ := literal_run h'
        rw [ha, htake'] at htake
        rw [ha, hdrop'] at hdrop
        have ht : t'.toList = t.toList :=
          List.map_injective_iff.2 (fun _ _ => Atom.char.inj) htake
        rw [ih hs hs' hdrop.symm, String.toList_inj.1 ht]
      | placeholder p =>
        cases seg' with
        | literal t => cases hlit
        | placeholder p' =>
          obtain ⟨hp, hrest⟩ := List.cons.inj ha
          rw [Atom.placeholder.inj hp, ih hs hs' hrest]
        | stray c => cases (List.cons.inj ha).1
      | stray c =>
        cases seg' with
        | literal t => cases hlit
        | placeholder p => cases (List.cons.inj ha).1
        | stray c' =>
          obtain ⟨hc, hrest⟩ := List.cons.inj ha
          rw [Atom.stray.inj hc, ih hs hs' hrest]

/-! ## Templates -/

theorem segments_parse (s : String) :
    (parse s).segments = mergeLiterals (readSegments s.toList).1 := by
  simp [parse, (reads_readSegments s.toList).1]

/-- **The segments of a template are the merged ones with the atoms of its text.** -/
theorem segments_parse_eq_iff {s : String} {segs : List Segment} :
    (parse s).segments = segs ↔ Merged segs ∧ Reads s.toList (segs.flatMap Segment.atoms) := by
  obtain ⟨-, hreads, hne⟩ := reads_readSegments s.toList
  rw [← atoms_mergeLiterals, ← segments_parse] at hreads
  have hmerged : Merged (parse s).segments := by
    rw [segments_parse]
    exact merged_mergeLiterals hne
  constructor
  · rintro rfl
    exact ⟨hmerged, hreads⟩
  · rintro ⟨hs, hr⟩
    exact hmerged.eq_of_atoms hs (hreads.unique hr)

theorem reads_parse (s : String) : Reads s.toList ((parse s).segments.flatMap Segment.atoms) :=
  (segments_parse_eq_iff.1 rfl).2

/-! ## Stray braces -/

theorem any_isStray_atoms (segs : List Segment) :
    (segs.flatMap Segment.atoms).any Atom.isStray = segs.any isStray := by
  induction segs with
  | nil => rfl
  | cons seg segs ih =>
    rw [List.flatMap_cons, List.any_append, List.any_cons, ih]
    congr 1
    cases seg with
    | literal t => simp [Segment.atoms, Atom.isStray, isStray]
    | placeholder p => rfl
    | stray c => rfl

/-- A stretch without stray braces is read as one atom, whatever comes behind it. -/
theorem Part.exists_piece {t : List Char} (h : Part t) :
    ∃ a : Atom, a.isStray = false ∧ ∀ r, Piece (t ++ r) a r := by
  cases h with
  | opening => exact ⟨.char '{', rfl, fun r => .opening⟩
  | closing => exact ⟨.char '}', rfl, fun r => .closing⟩
  | placeholder hc hi =>
    exact ⟨.placeholder _, rfl, fun r => by simpa using Piece.placeholder (s := r) hc hi⟩
  | plain hc => exact ⟨.char _, rfl, fun r => .plain hc⟩

/-- Any other atom than a stray brace is read from such a stretch. -/
theorem Piece.exists_part (h : Piece s a r) (ha : a.isStray = false) :
    ∃ t, Part t ∧ s = t ++ r := by
  cases h with
  | opening => exact ⟨_, .opening, rfl⟩
  | closing => exact ⟨_, .closing, rfl⟩
  | placeholder hc hi => exact ⟨_, .placeholder hc hi, by simp⟩
  | strayOpening => cases ha
  | strayClosing => cases ha
  | plain hc => exact ⟨_, .plain hc, rfl⟩

/-- A text is read without stray braces iff it falls into stretches without them. -/
theorem reads_without_stray_iff : (∃ as, Reads s as ∧ as.any Atom.isStray = false) ↔
    ∃ ts : List (List Char), (∀ t ∈ ts, Part t) ∧ s = ts.flatten := by
  constructor
  · rintro ⟨as, h, ha⟩
    induction h with
    | nil => exact ⟨[], by simp, rfl⟩
    | cons hp _ ih =>
      rw [List.any_cons, Bool.or_eq_false_iff] at ha
      obtain ⟨t, ht, rfl⟩ := hp.exists_part ha.1
      obtain ⟨ts, hts, rfl⟩ := ih ha.2
      exact ⟨t :: ts, List.forall_mem_cons.2 ⟨ht, hts⟩, rfl⟩
  · rintro ⟨ts, hts, rfl⟩
    induction ts with
    | nil => exact ⟨[], .nil, rfl⟩
    | cons t ts ih =>
      obtain ⟨ht, hts⟩ := List.forall_mem_cons.1 hts
      obtain ⟨a, ha, hp⟩ := ht.exists_piece
      obtain ⟨as, h, has⟩ := ih hts
      exact ⟨a :: as, .cons (hp _) h, by rw [List.any_cons, ha, has]; rfl⟩

theorem hasStray_parse_iff {s : String} : (parse s).hasStray = true ↔
    ¬ ∃ ts : List (List Char), (∀ t ∈ ts, Part t) ∧ s.toList = ts.flatten := by
  rw [← reads_without_stray_iff, hasStray, ← any_isStray_atoms]
  constructor
  · rintro hstray ⟨as, h, has⟩
    rw [(reads_parse s).unique h, has] at hstray
    cases hstray
  · intro hn
    by_contra hstray
    exact hn ⟨_, reads_parse s, Bool.eq_false_iff.2 hstray⟩

/-- **Reading a template is reading it position by position.**  There is one way to
    do that, and the segments are the merged ones with its atoms.  Nothing of the
    text is left, every segment takes something of it, and there is a stray brace
    iff the text does not fall into plain characters, doubled braces and
    placeholders. -/
theorem parse_eq_reference (s : String) :
    (∃! as, Reads s.toList as) ∧
    (∀ segs, (parse s).segments = segs ↔
      Merged segs ∧ Reads s.toList (segs.flatMap Segment.atoms)) ∧
    ((readSegments s.toList).2 = [] ∧
      ∀ t seg r, readSegment t = some (seg, r) → r.length < t.length) ∧
    ((parse s).hasStray = true ↔
      ¬ ∃ ts : List (List Char), (∀ t ∈ ts, Part t) ∧ s.toList = ts.flatten) :=
  ⟨⟨_, reads_parse s, fun _ h => h.unique (reads_parse s)⟩, fun _ => segments_parse_eq_iff,
    ⟨(reads_readSegments s.toList).1, fun _ _ _ => length_of_readSegment⟩, hasStray_parse_iff⟩

/-- A doubled brace, then a placeholder with spaces and parameters, then a stray brace. -/
example : (parse "\x7b\x7b\x7b VERB : k = v ,=x,w\x7d\x7d").segments =
    [.literal "\x7b", .placeholder ⟨⟨"VERB"⟩, [⟨"k", "v"⟩, ⟨"w", ""⟩]⟩, .stray '}'] := by
  decide +kernel

end Template

end SignGloss
