/-
  Runs.

  A run is a stretch of characters of one kind that the text does not go on with.

  * `run_eq` and `of_run_eq`: what taking and dropping the run at the start of a
    text gives, and what is known of a text from them;
  * `Spaces w`: the text `w` is spaces only;
  * `spacedName_eq` and `of_spacedName_eq`: the same as for runs for a name
    between spaces, as patterns and placeholders have it;
  * `trimChars_trimChars`: trimming again changes nothing.
-/
import Mathlib.Data.List.DropRight
import SignGloss.Text.Blank

namespace SignGloss.Text

/-! ## One run -/

section
variable {α : Type} {p : α → Bool} {s l m : List α}

theorem run_eq (hl : ∀ c ∈ l, p c = true) (hm : ∀ c ∈ m.head?, p c = false) :
    (l ++ m).takeWhile p = l ∧ (l ++ m).dropWhile p = m := by
  rw [List.takeWhile_append_of_pos hl, List.dropWhile_append_of_pos hl]
  cases m with
  | nil => simp
  | cons c m =>
    have hc : p c = false := hm c rfl
    simp [hc]

theorem of_mem_takeWhile {c : α} (h : c ∈ s.takeWhile p) : p c = true :=
  List.all_eq_true.1 List.all_takeWhile c h

theorem of_head?_dropWhile {c : α} (h : c ∈ (s.dropWhile p).head?) : p c = false := by
  have hn := List.head?_dropWhile_not p s
  rw [Option.mem_def.1 h] at hn
  exact hn

theorem of_run_eq (hl : s.takeWhile p = l) (hm : s.dropWhile p = m) :
    s = l ++ m ∧ (∀ c ∈ l, p c = true) ∧ ∀ c ∈ m.head?, p c = false := by
  subst hl hm
  exact ⟨List.takeWhile_append_dropWhile.symm, fun _ => of_mem_takeWhile,
    fun _ => of_head?_dropWhile⟩

/-! ## A run up to a separator

In these two lemmas `p` is the class `q` without the separator `x`. -/

/-- A run that the separator does not end is the longer one too. -/
theorem longer_run_of_ne {q : α → Bool} {x : α} (hpq : ∀ c, p c = true ↔ c ≠ x ∧ q c = true)
    (h : ∀ r, s.dropWhile p ≠ x :: r) :
    s.takeWhile q = s.takeWhile p ∧ s.dropWhile q = s.dropWhile p := by
  obtain ⟨hs, hrun, hend⟩ := of_run_eq (p := p) (s := s) rfl rfl
  have hstop : ∀ c ∈ (s.dropWhile p).head?, q c = false := fun c hc => by
    have hne : c ≠ x := by
      rintro rfl
      obtain ⟨r, hr⟩ := List.head?_eq_some_iff.1 hc
      exact h r hr
    cases hq : q c with
    | false => rfl
    | true => exact absurd ((hpq c).2 ⟨hne, hq⟩) (by simp [hend c hc])
  have hlong := run_eq (fun c hc => ((hpq c).1 (hrun c hc)).2) hstop
  rwa [← hs] at hlong

/-- Behind the separator the longer run goes on. -/
theorem longer_run_of_eq {q : α → Bool} {x : α} {r : List α}
    (hpq : ∀ c, p c = true ↔ c ≠ x ∧ q c = true) (hx : q x = true) (h : s.dropWhile p = x :: r) :
    s.takeWhile q = s.takeWhile p ++ x :: r.takeWhile q ∧ s.dropWhile q = r.dropWhile q := by
  obtain ⟨hs, hrun, -⟩ := of_run_eq (p := p) rfl h
  have hlong : ∀ c ∈ s.takeWhile p, q c = true := fun c hc => ((hpq c).1 (hrun c hc)).2
  conv => lhs; lhs; rw [hs]
  conv => rhs; lhs; rw [hs]
  rw [List.takeWhile_append_of_pos hlong, List.dropWhile_append_of_pos hlong,
    List.takeWhile_cons_of_pos hx, List.dropWhile_cons_of_pos hx]
  exact ⟨rfl, rfl⟩

end

/-! ## Spaces -/

/-- Nothing but spaces. -/
def Spaces (w : List Char) : Prop := ∀ c ∈ w, isSpace c = true

instance (w : List Char) : Decidable (Spaces w) := List.decidableBAll (isSpace · = true) w

theorem Spaces.nil : Spaces [] := by simp [Spaces]

/-- Spaces and what comes after them. -/
theorem exists_spaces (s : List Char) : ∃ w, Spaces w ∧ s = w ++ s.dropWhile isSpace :=
  ⟨s.takeWhile isSpace, fun _ => of_mem_takeWhile, List.takeWhile_append_dropWhile.symm⟩

theorem dropWhile_isSpace_eq_self {m : List Char} (hm : ∀ c ∈ m.head?, isSpace c = false) :
    m.dropWhile isSpace = m :=
  (run_eq (l := []) (by simp) hm).2

theorem dropWhile_spaces {w m : List Char} (hw : Spaces w) (hm : ∀ c ∈ m.head?, isSpace c = false) :
    (w ++ m).dropWhile isSpace = m :=
  (run_eq hw hm).2

/-! ## A name between spaces -/

variable {p : Char → Bool} {s l : List Char}

/-- A name between spaces is read back, where its characters are not blank and
    what follows continues neither the spaces nor, without these, the name. -/
theorem spacedName_eq {w w' r : List Char} (hp : ∀ c, p c = true → isBlank c = false)
    (hw : Spaces w) (hw' : Spaces w') (hne : l ≠ []) (hl : ∀ c ∈ l, p c = true)
    (hr : ∀ c ∈ r.head?, isSpace c = false ∧ (w' = [] → p c = false)) :
    let s := (w ++ (l ++ (w' ++ r))).dropWhile isSpace
    s.takeWhile p = l ∧ (s.dropWhile p).dropWhile isSpace = r := by
  have hspace : ∀ c, isSpace c = true → p c = false := fun c hc => by
    cases hpc : p c with
    | false => rfl
    | true => exact absurd (isBlank_of_isSpace hc) (by simp [hp c hpc])
  have hstart : ∀ c ∈ (l ++ (w' ++ r)).head?, isSpace c = false := fun c hc => by
    cases l with
    | nil => exact absurd rfl hne
    | cons d l =>
      obtain rfl : d = c := Option.some.inj hc
      cases hsd : isSpace d with
      | false => rfl
      | true => exact absurd (hl d (by simp)) (by simp [hspace d hsd])
  have hend : ∀ c ∈ (w' ++ r).head?, p c = false := fun c hc => by
    cases w' with
    | nil => exact (hr c hc).2 rfl
    | cons d w' =>
      obtain rfl : d = c := Option.some.inj hc
      exact hspace d (hw' d (by simp))
  obtain ⟨htake, hdrop⟩ := run_eq hl hend
  intro s
  have hs : s = l ++ (w' ++ r) := dropWhile_spaces hw hstart
  rw [hs]
  exact ⟨htake, by rw [hdrop, dropWhile_spaces hw' fun c hc => (hr c hc).1]⟩

/-- What is known of a text in which a name between spaces has been read. -/
theorem of_spacedName_eq {r : List Char} (hl : (s.dropWhile isSpace).takeWhile p = l)
    (hr : ((s.dropWhile isSpace).dropWhile p).dropWhile isSpace = r) :
    (∀ c ∈ l, p c = true) ∧ ∃ w w', Spaces w ∧ Spaces w' ∧
      (∀ c ∈ r.head?, isSpace c = false ∧ (w' = [] → p c = false)) ∧
      s = w ++ (l ++ (w' ++ r)) := by
  obtain ⟨w, hw, hs⟩ := exists_spaces s
  obtain ⟨hsplit, hname, hend⟩ := of_run_eq hl rfl
  obtain ⟨w', hw', hs'⟩ := exists_spaces ((s.dropWhile isSpace).dropWhile p)
  rw [hr] at hs'
  refine ⟨hname, w, w', hw, hw', fun c hc => ⟨?_, ?_⟩, ?_⟩
  · exact of_head?_dropWhile (by rw [hr]; exact hc)
  · rintro rfl
    exact hend c (by rw [hs']; exact hc)
  · rw [← hs', ← hsplit, ← hs]

/-! ## Trimming -/

theorem mem_of_mem_trimChars {c : Char} (h : c ∈ trimChars s) : c ∈ s :=
  List.dropWhile_subset _ ((List.rdropWhile_prefix isBlank _).subset h)

/-- Nothing is left of blanks only. -/
theorem trim_eq_empty_iff {s : String} : trim s = "" ↔ s.toList.all isBlank = true := by
  have hends : trimChars s.toList = [] ↔ ∀ c ∈ s.toList.dropWhile isBlank, isBlank c = true :=
    List.rdropWhile_eq_nil_iff
  rw [trim, String.ofList_eq_empty_iff, hends, List.all_eq_true]
  constructor
  · intro h
    refine List.dropWhile_eq_nil_iff.1 (List.eq_nil_iff_forall_not_mem.2 fun c hc => ?_)
    cases hs : s.toList.dropWhile isBlank with
    | nil => rw [hs] at hc; cases hc
    | cons d t =>
      have hd : isBlank d = false := of_head?_dropWhile (s := s.toList) (by rw [hs]; rfl)
      rw [h d (by rw [hs]; simp)] at hd
      cases hd
  · intro h c hc
    exact h c (List.dropWhile_subset _ hc)

theorem trimChars_eq_self (h : ∀ c ∈ s, isBlank c = false) : trimChars s = s := by
  have hkeep : ∀ {t : List Char}, (∀ c ∈ t, isBlank c = false) → t.dropWhile isBlank = t :=
    fun ht => (run_eq (l := []) (by simp) fun c hc => ht c (List.mem_of_mem_head? hc)).2
  rw [trimChars, trimStart, hkeep h, trimEnd, hkeep fun c hc => h c (List.mem_reverse.1 hc),
    List.reverse_reverse]

/-- Trimming again changes nothing. -/
theorem trimChars_trimChars (s : List Char) : trimChars (trimChars s) = trimChars s := by
  have hhead : ∀ c ∈ (trimChars s).head?, isBlank c = false := fun c hc => by
    obtain ⟨t, ht⟩ := List.rdropWhile_prefix isBlank (s.dropWhile isBlank)
    have hmem : c ∈ (trimChars s ++ t).head? := by
      rw [List.head?_append, Option.mem_def.1 hc]
      rfl
    rw [show trimChars s ++ t = trimStart s from ht] at hmem
    exact of_head?_dropWhile hmem
  have hstart : trimStart (trimChars s) = trimChars s := (run_eq (l := []) (by simp) hhead).2
  rw [trimChars, hstart]
  exact List.rdropWhile_idempotent isBlank (trimStart s)

end SignGloss.Text
