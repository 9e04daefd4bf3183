/-
  Rules that change nothing but blanks.

  * a tag is `Usable` if it can stand in a pattern and in a placeholder;
  * `Template.slotsText ts`: the placeholders for the tags `ts`, with spaces between
    them; it is read as the segments `Template.slots ts` (`parse_slotsText`).

  Main statement: for words of different parts of speech, the rule with their pattern
  and their placeholders is chosen, and gives the words as they are without a rule,
  with single spaces between them (`neutral_rule_agrees`).
-/
import Mathlib.Data.List.Nodup
import SignGloss.Proofs.FirstWords
import SignGloss.Proofs.Outcomes
import SignGloss.Proofs.PatternGrammar
import SignGloss.Proofs.RawText
import SignGloss.Proofs.TemplateText

namespace SignGloss

/-- The tag can stand in a pattern and in a placeholder. -/
structure Tag.Usable (t : Tag) : Prop where
  ne_empty : t.name ≠ ""
  chars : ∀ c ∈ t.name.toList, Text.isBlank c = false ∧ c ≠ ':' ∧ c ≠ '{' ∧ c ≠ '}' ∧
    c ≠ '[' ∧ c ≠ ']'

instance (t : Tag) : Decidable t.Usable :=
  decidable_of_iff
    (t.name ≠ "" ∧ t.name.toList.all fun c => Text.isBlank c = false ∧ c ≠ ':' ∧ c ≠ '{' ∧
      c ≠ '}' ∧ c ≠ '[' ∧ c ≠ ']')
    ⟨fun h => ⟨h.1, by simpa using h.2⟩, fun h => ⟨h.ne_empty, by simpa using h.chars⟩⟩

theorem Tag.Usable.bracketable {t : Tag} (h : t.Usable) : t.Bracketable := by
  refine ⟨h.ne_empty, fun c hc => ?_⟩
  obtain ⟨hblank, -, -, -, hbrackets⟩ := h.chars c hc
  exact ⟨hblank, hbrackets⟩

theorem Tag.Usable.writable {t : Tag} (h : t.Usable) : Placeholder.Writable ⟨t, []⟩ := by
  refine ⟨h.ne_empty, fun c hc => ?_, by simp⟩
  obtain ⟨hblank, hcolon, hopening, hclosing, -⟩ := h.chars c hc
  exact ⟨hblank, hcolon, hopening, hclosing⟩

/-! ## The template -/

namespace Template

/-- The text of placeholders for some tags, with spaces between them. -/
def slotsText (ts : List Tag) : String :=
  " ".intercalate (ts.map fun t => "\x7b" ++ t.name ++ "\x7d")

/-- Placeholders for some tags, with spaces between them. -/
def slots : List Tag → List Segment
  | [] => []
  | [t] => [.placeholder ⟨t, []⟩]
  | t :: u :: ts => .placeholder ⟨t, []⟩ :: .literal " " :: slots (u :: ts)

theorem head?_slots (t : Tag) (ts : List Tag) :
    (slots (t :: ts)).head? = some (.placeholder ⟨t, []⟩) := by
  cases ts with
  | nil | cons => rfl

theorem merged_slots (ts : List Tag) : Merged (slots ts) := by
  fun_induction slots ts with
  | case1 => exact .nil
  | case2 t => exact merged_cons_iff.2 ⟨by simp, by simp, .nil⟩
  | case3 t u ts ih =>
    refine merged_cons_iff.2 ⟨by simp, by simp [isLiteral], merged_cons_iff.2 ⟨by simp, ?_, ih⟩⟩
    rw [head?_slots]
    simp [isLiteral]

/-- The text is what is written for the segments. -/
theorem toList_slotsText (ts : List Tag) :
    (slotsText ts).toList = (slots ts).flatMap segmentText := by
  fun_induction slots ts with
  | case1 => rfl
  | case2 t => simp [slotsText, segmentText, placeholderText]
  | case3 t u ts ih =>
    have hspace : segmentText (.literal " ") = [' '] := rfl
    rw [List.flatMap_cons, List.flatMap_cons, ← ih, hspace]
    simp [slotsText, segmentText, placeholderText, String.intercalate_cons_cons]

theorem mem_slots {ts : List Tag} {seg : Segment} (h : seg ∈ slots ts) :
    seg = .literal " " ∨ ∃ t ∈ ts, seg = .placeholder ⟨t, []⟩ := by
  fun_induction slots ts with
  | case1 => cases h
  | case2 t => exact Or.inr ⟨t, List.mem_cons_self, List.mem_singleton.1 h⟩
  | case3 t u ts ih =>
    rcases List.mem_cons.1 h with h | h
    · exact Or.inr ⟨t, List.mem_cons_self, h⟩
    rcases List.mem_cons.1 h with h | h
    · exact Or.inl h
    rcases ih h with h | ⟨v, hv, h⟩
    · exact Or.inl h
    · exact Or.inr ⟨v, List.mem_cons_of_mem t hv, h⟩

theorem parse_slotsText {ts : List Tag} (h : ∀ t ∈ ts, t.Usable) :
    parse (slotsText ts) = ⟨slots ts⟩ := by
  have hstray : (slots ts).any isStray = false := by
    rw [List.any_eq_false]
    intro seg hseg
    rcases mem_slots hseg with rfl | ⟨t, -, rfl⟩ <;> simp [isStray]
  have hwritable : ∀ p, Atom.placeholder p ∈ (slots ts).flatMap Segment.atoms → p.Writable := by
    intro p hp
    obtain ⟨seg, hseg, hp⟩ := List.mem_flatMap.1 hp
    rcases mem_slots hseg with rfl | ⟨t, ht, rfl⟩
    · simp [Segment.atoms] at hp
    · obtain rfl : p = ⟨t, []⟩ := by simpa [Segment.atoms] using hp
      exact (h t ht).writable
  refine parse_eq_of_reads (merged_slots ts) ?_
  rw [toList_slotsText, funext segmentText_eq, ← List.flatMap_assoc]
  exact reads_text ((any_isStray_atoms _).trans hstray) hwritable

end Template

/-! ## The words -/

variable {form : Morphology} {ws : List Word}

/-- Where words have different tags, each is found by its own. -/
theorem wordFor?_of_nodup (hd : (ws.map Word.tag).Nodup) {w : Word} (hw : w ∈ ws) :
    wordFor? ws ⟨w.tag, []⟩ = some w := by
  obtain ⟨v, hv, htag, hfound⟩ := exists_wordFor? (p := ⟨w.tag, []⟩) (List.mem_map_of_mem hw)
  obtain rfl : v = w := List.inj_on_of_nodup_map hd hv hw htag
  exact hfound

/-- A word without a form shows its plain form. -/
theorem result_fill_of_unknown {w : Word} {ph : Placeholder} (hw : wordFor? ws ph = some w)
    (hform : ph.tag = .verb → form w.gloss ph.code ph.person = .ok none) :
    (fill form ws ph).result = .ok w.plain := by
  rw [fill, hw]
  by_cases hverb : ph.tag = .verb
  · simp only [if_pos hverb]
    rw [Consultation.result_bind_ok (a := none) (hform hverb)]
    rfl
  · simp only [if_neg hverb]
    rfl

/-- Placeholders that show plain forms show them with spaces between them. -/
theorem result_renderRaw_slots : ∀ {us : List Word},
    (∀ w ∈ us, (fill form ws ⟨w.tag, []⟩).result = .ok w.plain) →
      (renderRaw form ws (Template.slots (us.map Word.tag))).result = .ok (joinedText us)
  | [], _ => rfl
  | [w], h => by
    refine Consultation.result_bind_eq_ok_iff.2 ⟨w.plain, h w List.mem_cons_self, ?_⟩
    refine Consultation.result_bind_eq_ok_iff.2 ⟨"", rfl, ?_⟩
    simp [joinedText]
  | w :: v :: us, h => by
    obtain ⟨hw, hus⟩ := List.forall_mem_cons.1 h
    have hrest := result_renderRaw_slots hus
    have hjoined : joinedText (w :: v :: us) = w.plain ++ (" " ++ joinedText (v :: us)) := by
      simp [joinedText, String.intercalate_cons_cons, String.append_assoc]
    have hbehind : (renderRaw form ws
        (.literal " " :: Template.slots ((v :: us).map Word.tag))).result =
          .ok (" " ++ joinedText (v :: us)) :=
      Consultation.result_bind_eq_ok_iff.2
        ⟨" ", rfl, Consultation.result_bind_eq_ok_iff.2 ⟨_, hrest, rfl⟩⟩
    rw [hjoined]
    exact Consultation.result_bind_eq_ok_iff.2
      ⟨w.plain, hw, Consultation.result_bind_eq_ok_iff.2 ⟨_, hbehind, rfl⟩⟩

/-! ## The rule -/

/-- A rule with the usual form of a pattern matches its tags. -/
theorem matchesTags_of_text {r : Rule} {ts : List Tag} (hne : ts ≠ []) (h : ∀ t ∈ ts, t.Usable)
    (hr : r.pattern = Pattern.text ⟨ts⟩) : r.matchesTags ts = true := by
  have hparse := Pattern.parse_text hne fun t ht => (h t ht).bracketable
  rw [Rule.matchesTags, hr, hparse]
  exact Pattern.matchesTags_iff.2 rfl

/-- **A neutral rule gives the words as they are.**  For two words or more with
    different tags that can stand in patterns and placeholders, where no infinitive is
    known for the verb if there is one: the rule whose pattern is the tags in brackets is
    chosen if no earlier one is, and the placeholders for the tags give the text that
    the words have if no rule is chosen, with single spaces for its blanks. -/
theorem neutral_rule_agrees (form : Morphology) (ws : List Word) (hlen : 2 ≤ ws.length)
    (hdistinct : (ws.map Word.tag).Nodup) (husable : ∀ w ∈ ws, w.tag.Usable)
    (hform : ∀ w ∈ ws, w.tag = .verb → form w.gloss "infinitive" none = .ok none) :
    let ts := ws.map Word.tag
    let joined := " ".intercalate (ws.map Word.plain)
    (∀ before r after, r.pattern = " ".intercalate (ts.map fun t => "[" ++ t.name ++ "]") →
      (∀ b ∈ before, Rule.matchesTags b ts = false) →
      selectRule? (before ++ r :: after) ts = some r) ∧
    (∀ src locale rules, Sources.rules src locale = .ok rules → selectRule? rules ts = none →
      (interpretWords src locale ws).result =
        .ok ⟨{ text := joined, confidence := joinedConfidence }, .joined, ws⟩) ∧
    (render form ws (Template.parse (Template.slotsText ts))).result =
      .ok (Text.oneSpaced joined) := by
  intro ts joined
  have hts : ∀ t ∈ ts, t.Usable := List.forall_mem_map.2 husable
  have hne : ts ≠ [] := by
    intro hnil
    rw [List.map_eq_nil_iff.1 hnil] at hlen
    simp at hlen
  refine ⟨fun before r after hr hbefore => ?_, fun src locale rules hrules hnone => ?_, ?_⟩
  · have hmatch : r.matchesTags ts = true := matchesTags_of_text hne hts hr
    rw [selectRule?, List.find?_append, List.find?_eq_none.2 (by simpa using hbefore),
      Option.none_or]
    exact List.find?_cons_of_pos (p := (Rule.matchesTags · ts)) hmatch
  · exact result_interpretWords_none hrules hnone
  · have hfill : ∀ w ∈ ws, (fill form ws ⟨w.tag, []⟩).result = .ok w.plain := fun w hw =>
      result_fill_of_unknown (wordFor?_of_nodup hdistinct hw) (hform w hw)
    rw [Template.parse_slotsText hts, render,
      Consultation.result_bind_ok (result_renderRaw_slots hfill)]
    rfl

/-- A verb that is known in the present only, a gloss that is empty, and one with blanks
    and braces.  Without a rule the words have two spaces and a tab between them. -/
theorem neutral_rule_agrees_blanks :
    let form : Morphology := fun _ code _ => .ok (if code = "pres" then some "voy" else none)
    let half : Single := .ofRatio false 1 2
    let ws : List Word := [⟨"S1", ⟨"IR", .verb, none⟩, half⟩, ⟨"S2", ⟨"", ⟨"N-1"⟩, none⟩, half⟩,
      ⟨"S3", ⟨"A\t\x7bB\x7d", ⟨"ADJ"⟩, none⟩, half⟩]
    let r : Rule := { id := 1, pattern := "[VERB] [N-1] [ADJ]", template := "" }
    Template.slotsText (ws.map Word.tag) = "\x7bVERB\x7d \x7bN-1\x7d \x7bADJ\x7d" ∧
      selectRule? [r] (ws.map Word.tag) = some r ∧
      (render form ws (Template.parse "\x7bVERB\x7d \x7bN-1\x7d \x7bADJ\x7d")).result =
        .ok "ir a \x7bb\x7d" ∧
      joinedText ws = "ir  a\t\x7bb\x7d" := by
  intro form half ws r
  obtain ⟨hselect, -, hrender⟩ := neutral_rule_agrees form ws (by decide) (by decide) (by decide)
    (by decide)
  have hslots : Template.slotsText (ws.map Word.tag) = "\x7bVERB\x7d \x7bN-1\x7d \x7bADJ\x7d" := by
    decide +kernel
  have hspaced : Text.oneSpaced (" ".intercalate (ws.map Word.plain)) = "ir a \x7bb\x7d" := by
    decide +kernel
  rw [hslots, hspaced] at hrender
  exact ⟨hslots, hselect [] r [] (by decide +kernel) (by simp), hrender, by decide +kernel⟩

end SignGloss
