/-
  Templates one behind the other.

  * `joined segs segs'`: segments and more of them behind, where two literals that
    meet become one;
  * an atom other than a stray brace is read whatever comes behind it
    (`Piece.whatever_follows`), and so is a text without stray braces (`Reads.append`).

  Main statement: behind a template without stray braces another one is read as it is
  by itself, and so they are rendered one after the other.  Any template goes on up
  to its first stray brace as if nothing came behind it (`parse_append`).
-/
import SignGloss.Proofs.RawText
import SignGloss.Proofs.TemplateGrammar

namespace SignGloss.Template

open Text

/-- Segments with more of them behind.  Literals that meet are made one. -/
def joined : List Segment → List Segment → List Segment
  | [], segs' => segs'
  | [.literal t], .literal u :: segs' => .literal (t ++ u) :: segs'
  | seg :: segs, segs' => seg :: joined segs segs'

/-- The segments up to the first stray brace. -/
def settled (t : Template) : List Segment := t.segments.takeWhile (!isStray ·)

/-- The first stray brace and what comes behind it. -/
def unsettled (t : Template) : List Segment := t.segments.dropWhile (!isStray ·)

variable {s t r : List Char} {a : Atom} {as bs : List Atom} {segs segs' : List Segment}

/-! ## Reading -/

/-- An atom other than a stray brace is read whatever comes behind it. -/
theorem Piece.whatever_follows (h : Piece s a r) (ha : a.isStray = false) :
    ∃ t, s = t ++ r ∧ ∀ r', Piece (t ++ r') a r' := by
  obtain ⟨t, ht, rfl⟩ := h.exists_part ha
  obtain ⟨a', -, hpiece⟩ := ht.exists_piece
  obtain ⟨rfl, -⟩ := h.unique (hpiece r)
  exact ⟨t, rfl, hpiece⟩

/-- Behind a text without stray braces another one is read as it is by itself. -/
theorem Reads.append (h : Reads s as) (hstray : as.any Atom.isStray = false) (h' : Reads t bs) :
    Reads (s ++ t) (as ++ bs) := by
  induction h with
  | nil => exact h'
  | @cons _ a r as hp _ ih =>
    rw [List.any_cons, Bool.or_eq_false_iff] at hstray
    obtain ⟨u, rfl, hpiece⟩ := hp.whatever_follows hstray.1
    rw [List.append_assoc]
    exact .cons (hpiece _) (ih hstray.2)

/-- A text falls into what is read before a place and what is read behind it, if there
    is no stray brace before it. -/
theorem Reads.exists_of_append (h : Reads s (as ++ bs)) (hstray : as.any Atom.isStray = false) :
    ∃ s₁ s₂, s = s₁ ++ s₂ ∧ Reads s₁ as ∧ Reads s₂ bs := by
  induction as generalizing s with
  | nil => exact ⟨[], s, rfl, .nil, h⟩
  | cons a as ih =>
    rw [List.any_cons, Bool.or_eq_false_iff] at hstray
    cases h with
    | cons hp hr =>
      obtain ⟨u, rfl, hpiece⟩ := hp.whatever_follows hstray.1
      obtain ⟨r₁, r₂, rfl, h₁, h₂⟩ := ih hr hstray.2
      exact ⟨u ++ r₁, r₂, (List.append_assoc ..).symm, .cons (hpiece r₁) h₁, h₂⟩

/-! ## Segments -/

theorem atoms_joined (segs segs' : List Segment) : (joined segs segs').flatMap Segment.atoms =
    segs.flatMap Segment.atoms ++ segs'.flatMap Segment.atoms := by
  fun_induction joined segs segs' with
  | case1 segs' => rfl
  | case2 t u segs' => simp [Segment.atoms]
  | case3 seg segs segs' _ ih => simp only [List.flatMap_cons, ih, List.append_assoc]

/-- A first literal stays one, and no other segment becomes one. -/
theorem isLiteral_head?_joined {seg seg' : Segment}
    (h : seg' ∈ (joined (seg :: segs) segs').head?) : isLiteral seg' = isLiteral seg := by
  generalize hsegs : seg :: segs = l at h
  fun_cases Template.joined l segs' with
  | case1 => cases hsegs
  | case2 t u rest =>
    obtain ⟨rfl, -⟩ := List.cons.inj hsegs
    obtain rfl := Option.some.inj h
    rfl
  | case3 seg₁ segs₁ _ hseam =>
    obtain ⟨rfl, -⟩ := List.cons.inj hsegs
    rw [joined.eq_3 _ _ _ hseam] at h
    obtain rfl := Option.some.inj h
    rfl

theorem Merged.joined (h : Merged segs) (h' : Merged segs') : Merged (joined segs segs') := by
  fun_induction Template.joined segs segs' with
  | case1 segs' => exact h'
  | case2 t u segs' =>
    obtain ⟨hne, -, -⟩ := merged_cons_iff.1 h
    obtain ⟨-, hhead, hsegs'⟩ := merged_cons_iff.1 h'
    refine merged_cons_iff.2 ⟨fun he => hne ?_, hhead, hsegs'⟩
    rw [(String.append_eq_empty_iff.1 (Segment.literal.inj he)).1]
  | case3 seg segs segs' hseam ih =>
    obtain ⟨hne, hhead, hsegs⟩ := merged_cons_iff.1 h
    refine merged_cons_iff.2 ⟨hne, fun seg' hseg' hlit => ?_, ih hsegs h'⟩
    cases segs with
    | nil =>
      obtain ⟨t, rfl⟩ := isLiteral_iff.1 hlit.1
      obtain ⟨u, rfl⟩ := isLiteral_iff.1 hlit.2
      obtain ⟨rest, rfl⟩ := List.head?_eq_some_iff.1 hseg'
      exact hseam t u rest rfl rfl rfl
    | cons seg₂ segs =>
      rw [isLiteral_head?_joined hseg'] at hlit
      exact hhead seg₂ rfl hlit

theorem Merged.of_append (h : Merged (segs ++ segs')) : Merged segs ∧ Merged segs' := by
  obtain ⟨hne, hap⟩ := h
  rw [List.isChain_append] at hap
  rw [List.forall_mem_append] at hne
  exact ⟨⟨hne.1, hap.1⟩, ⟨hne.2, hap.2.1⟩⟩

theorem segments_parse_append {a b : String} (h : (parse a).hasStray = false) :
    (parse (a ++ b)).segments = joined (parse a).segments (parse b).segments := by
  obtain ⟨hmerged, hreads⟩ := segments_parse_eq_iff.1 (rfl : (parse a).segments = _)
  obtain ⟨hmerged', hreads'⟩ := segments_parse_eq_iff.1 (rfl : (parse b).segments = _)
  have hstray : ((parse a).segments.flatMap Segment.atoms).any Atom.isStray = false := by
    rw [any_isStray_atoms]
    exact h
  refine segments_parse_eq_iff.2 ⟨hmerged.joined hmerged', ?_⟩
  rw [String.toList_append, atoms_joined]
  exact hreads.append hstray hreads'

theorem any_isStray_settled (t : Template) : t.settled.any isStray = false := by
  rw [List.any_eq_false]
  intro seg hseg
  simpa using of_mem_takeWhile hseg

/-- A text falls into what is read up to the first stray brace and what is read from
    there. -/
theorem exists_settled (a : String) :
    ∃ c d, a = c ++ d ∧ (parse c).segments = (parse a).settled ∧
      (parse d).segments = (parse a).unsettled := by
  obtain ⟨hmerged, hreads⟩ := segments_parse_eq_iff.1 (rfl : (parse a).segments = _)
  have hsplit : (parse a).settled ++ (parse a).unsettled = (parse a).segments :=
    List.takeWhile_append_dropWhile
  rw [← hsplit] at hmerged hreads
  rw [List.flatMap_append] at hreads
  have hstray : ((parse a).settled.flatMap Segment.atoms).any Atom.isStray = false := by
    rw [any_isStray_atoms, any_isStray_settled]
  obtain ⟨s₁, s₂, hs, h₁, h₂⟩ := hreads.exists_of_append hstray
  refine ⟨String.ofList s₁, String.ofList s₂, ?_, ?_, ?_⟩
  · rw [← String.ofList_append, ← hs, String.ofList_toList]
  · exact segments_parse_eq_iff.2 ⟨hmerged.of_append.1, by rwa [String.toList_ofList]⟩
  · exact segments_parse_eq_iff.2 ⟨hmerged.of_append.2, by rwa [String.toList_ofList]⟩

/-! ## Rendering -/

variable {form : Morphology} {ws : List Word}

/-- Joining changes nothing of the raw text. -/
theorem renderRaw_joined (segs segs' : List Segment) :
    renderRaw form ws (joined segs segs') = renderRaw form ws (segs ++ segs') := by
  fun_induction joined segs segs' with
  | case1 segs' => rfl
  | case2 t u segs' =>
    simp only [List.cons_append, List.nil_append, renderRaw_cons, renderSegment, pure_bind,
      bind_assoc, String.append_assoc]
  | case3 seg segs segs' _ ih => rw [List.cons_append, renderRaw_cons, renderRaw_cons, ih]

theorem renderRaw_joined_of_ok {text : String} (h : (renderRaw form ws segs).result = .ok text) :
    renderRaw form ws (joined segs segs') =
      ⟨(renderRaw form ws segs).queries ++ (renderRaw form ws segs').queries,
        (renderRaw form ws segs').result.map (text ++ ·)⟩ := by
  rw [renderRaw_joined, renderRaw_append]
  simp only [Consultation.bind_pure_comp_eq]
  rw [Consultation.bind_def, Consultation.bind, h]

theorem renderRaw_joined_of_error {e : LookupFailure}
    (h : (renderRaw form ws segs).result = .error e) :
    renderRaw form ws (joined segs segs') = renderRaw form ws segs := by
  rw [renderRaw_joined, renderRaw_append]
  generalize renderRaw form ws segs = x at h ⊢
  obtain ⟨qs, r⟩ := x
  obtain rfl : r = .error e := h
  rfl

/-- **Templates compose.**  Behind a template without stray braces another one is read
    as it is by itself, where two literals that meet become one.  So its raw text
    comes behind that of the first template, and its queries are made behind those
    of the first one, unless one of these fails and ends both.

    Any template is read up to its first stray brace whatever comes behind it, which
    changes the reading from that brace on only. -/
theorem parse_append (form : Morphology) (ws : List Word) (a b : String) :
    let raw := fun s => renderRaw form ws (parse s).segments
    ((parse a).hasStray = false →
      (parse (a ++ b)).segments = joined (parse a).segments (parse b).segments ∧
      (∀ text, (raw a).result = .ok text →
        (raw (a ++ b)).result = (raw b).result.map (text ++ ·) ∧
        (raw (a ++ b)).queries = (raw a).queries ++ (raw b).queries) ∧
      ∀ e, (raw a).result = .error e → raw (a ++ b) = raw a) ∧
    ∃ c d, a = c ++ d ∧ (parse c).segments = (parse a).settled ∧
      (parse d).segments = (parse a).unsettled ∧
      (parse (a ++ b)).segments = joined (parse a).settled (parse (d ++ b)).segments := by
  intro raw
  constructor
  · intro hstray
    have hsegs := segments_parse_append (b := b) hstray
    have hraw : raw (a ++ b) = renderRaw form ws (joined (parse a).segments (parse b).segments) :=
      congrArg (renderRaw form ws) hsegs
    refine ⟨hsegs, fun text htext => ?_, fun e he => ?_⟩
    · rw [hraw, renderRaw_joined_of_ok htext]
      exact ⟨rfl, rfl⟩
    · rw [hraw, renderRaw_joined_of_error he]
  · obtain ⟨c, d, rfl, hc, hd⟩ := exists_settled a
    have hstray : (parse c).hasStray = false := by
      rw [hasStray, hc, any_isStray_settled]
    refine ⟨c, d, rfl, hc, hd, ?_⟩
    rw [String.append_assoc, segments_parse_append hstray, hc]

/-- Doubled braces and a placeholder in front of a template with a stray brace, and
    a stray brace that what comes behind it makes a doubled one. -/
theorem parse_append_braces :
    let form : Morphology := fun _ code _ => .ok (some code)
    let ws : List Word := [⟨"S", ⟨"IR", .verb, none⟩, .ofRatio false 1 2⟩]
    let a := "x\x7b\x7b\x7bVERB\x7d y"
    let b := "z\x7d\x7d\x7bVERB:conj=pres\x7d\x7b"
    (parse (a ++ b)).segments = [.literal "x\x7b", .placeholder ⟨.verb, []⟩, .literal " yz\x7d",
      .placeholder ⟨.verb, [⟨"conj", "pres"⟩]⟩, .stray '{'] ∧
    (renderRaw form ws (parse (a ++ b)).segments).result = .ok "x\x7binfinitive yz\x7dpres\x7b" ∧
    (parse ("n\x7b" ++ "\x7bm\x7d")).segments = [.literal "n\x7bm", .stray '}'] := by
  intro form ws a b
  have hstray : (parse a).hasStray = false := by decide +kernel
  obtain ⟨hsegs, hraw, -⟩ := (parse_append form ws a b).1 hstray
  have htext : (renderRaw form ws (parse a).segments).result = .ok "x\x7binfinitive y" := by
    decide +kernel
  have hrest : (renderRaw form ws (parse b).segments).result = .ok "z\x7dpres\x7b" := by
    decide +kernel
  refine ⟨?_, ?_, by decide +kernel⟩
  · rw [hsegs]
    decide +kernel
  · rw [(hraw _ htext).1, hrest]
    rfl

end SignGloss.Template
