/-
  The text of segments before blanks are made single spaces.

  A consultation that goes on with another one is the same however its steps are
  grouped (`Consultation` is a lawful monad).  So segments may be rendered part by
  part (`renderRaw_append`), those without a text may be left out
  (`renderRaw_filter`), and if no query fails, the raw text is the texts of the
  segments put together (`result_renderRaw_eq_ok_iff`).
-/
import Mathlib.Data.List.Forall2
import SignGloss.Render

namespace SignGloss

/-! ## Steps of a consultation -/

namespace Consultation

variable {α β γ : Type}

theorem bind_pure_eq (x : Consultation α) : x.bind .pure = x := by
  obtain ⟨qs, e | a⟩ := x
  · rfl
  · simp [bind, pure]

theorem bind_bind (x : Consultation α) (f : α → Consultation β) (g : β → Consultation γ) :
    (x.bind f).bind g = x.bind fun a => (f a).bind g := by
  obtain ⟨qs, e | a⟩ := x
  · rfl
  · rcases hf : f a with ⟨qs', e | b⟩
    · simp [bind, hf]
    · simp [bind, hf]

instance : LawfulMonad Consultation :=
  LawfulMonad.mk' Consultation bind_pure_eq (fun _ _ => by simp [bind_def, bind]) bind_bind

/-- A sequence ends with a value iff both parts do. -/
theorem result_bind_eq_ok_iff {x : Consultation α} {f : α → Consultation β} {b : β} :
    (x >>= f).result = .ok b ↔ ∃ a, x.result = .ok a ∧ (f a).result = .ok b := by
  cases hx : x.result with
  | error e => simp [result_bind_error hx]
  | ok a => simp [result_bind_ok hx]

/-- What is done with the value at the end makes no queries. -/
theorem bind_pure_comp_eq (x : Consultation α) (f : α → β) :
    (x >>= fun a => Pure.pure (f a)) = ⟨x.queries, x.result.map f⟩ := by
  obtain ⟨qs, e | a⟩ := x
  · rfl
  · simp [bind_def, bind, Except.map]

theorem result_pure_eq_ok_iff {a b : α} : (Pure.pure a : Consultation α).result = .ok b ↔ a = b := by
  simp

end Consultation

/-! ## Segments -/

variable {form : Morphology} {ws : List Word} {segs : List Segment} {text : String}

theorem renderRaw_nil : renderRaw form ws [] = pure "" := rfl

theorem renderRaw_cons (seg : Segment) (segs : List Segment) :
    renderRaw form ws (seg :: segs) = (do
      let t ← renderSegment form ws seg
      let ts ← renderRaw form ws segs
      pure (t ++ ts)) := rfl

/-- Segments are rendered part by part. -/
theorem renderRaw_append (segs segs' : List Segment) :
    renderRaw form ws (segs ++ segs') = (do
      let t ← renderRaw form ws segs
      let t' ← renderRaw form ws segs'
      pure (t ++ t')) := by
  induction segs with
  | nil => simp only [List.nil_append, renderRaw_nil, pure_bind, String.empty_append, bind_pure]
  | cons seg segs ih =>
    simp only [List.cons_append, renderRaw_cons, ih, bind_assoc, pure_bind, String.append_assoc]

/-- Segments without a text may be left out. -/
theorem renderRaw_filter {keep : Segment → Bool}
    (h : ∀ seg ∈ segs, keep seg = false → renderSegment form ws seg = pure "") :
    renderRaw form ws (segs.filter keep) = renderRaw form ws segs := by
  induction segs with
  | nil => rfl
  | cons seg segs ih =>
    obtain ⟨hseg, hsegs⟩ := List.forall_mem_cons.1 h
    cases hk : keep seg with
    | true => rw [List.filter_cons_of_pos hk, renderRaw_cons, renderRaw_cons, ih hsegs]
    | false =>
      rw [List.filter_cons_of_neg (by simp [hk]), ih hsegs, renderRaw_cons, hseg hk]
      simp only [pure_bind, String.empty_append, bind_pure]

/-- The raw text is the texts of the segments put together. -/
theorem result_renderRaw_eq_ok_iff : (renderRaw form ws segs).result = .ok text ↔
    ∃ ts, List.Forall₂ (fun seg t => (renderSegment form ws seg).result = .ok t) segs ts ∧
      text = String.join ts := by
  induction segs generalizing text with
  | nil => simp [renderRaw_nil, eq_comm]
  | cons seg segs ih =>
    simp only [renderRaw_cons, Consultation.result_bind_eq_ok_iff, ih, List.forall₂_cons_left_iff,
      Consultation.result_pure_eq_ok_iff]
    constructor
    · rintro ⟨t, ht, _, ⟨ts, hts, rfl⟩, rfl⟩
      exact ⟨t :: ts, ⟨t, ts, ht, hts, rfl⟩, String.join_cons.symm⟩
    · rintro ⟨_, ⟨t, ts, ht, hts, rfl⟩, rfl⟩
      exact ⟨t, ht, _, ⟨ts, hts, rfl⟩, String.join_cons.symm⟩

end SignGloss
