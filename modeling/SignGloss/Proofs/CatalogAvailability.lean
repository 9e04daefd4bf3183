/-
  Catalogs as sources that never fail.

  Every sign has a sense and no query of a catalog fails, whatever has been added
  to it or refused.  So each token has a word (`Catalog.Words`), and the outcome of
  an interpretation tells how many tokens there are (`Answered.counts`).

  Main statement: every request to a catalog has an answer, with a word for each
  token, and no command line ends with the status of a failed look-up
  (`Catalog.never_unavailable`).
-/
import SignGloss.Proofs.ExitStatus

namespace SignGloss

variable {c : Catalog} {req : Request} {i : Interpretation}

namespace Catalog

/-- A token is answered by a word for its sign, with the first sense and the
    confidence of the token. -/
def Words (c : Catalog) (t : Token) (w : Word) : Prop :=
  w.sign = t.sign ∧ (c.senses t.sign).head? = some w.sense ∧ w.confidence = t.confidence

theorem words_word (c : Catalog) (t : Token) : c.Words t (c.word t) :=
  ⟨rfl, List.head?_eq_some_head (c.senses_ne_nil t.sign), rfl⟩

theorem length_words_sources (c : Catalog) (ts : List Token) :
    (c.sources.words ts).length = ts.length := by
  rw [words_sources, List.length_map]

end Catalog

/-- What an outcome says about the number of tokens. -/
def Outcome.Counts : Outcome → Nat → Prop
  | .empty, n => n = 0
  | .unresolved, _ => False
  | .singleSign, n => n = 1
  | .ruleMatch _, n | .joined, n => 2 ≤ n

/-- From a catalog the outcome says how many tokens there are. -/
theorem Answered.counts (h : Answered c.sources req i) : i.outcome.Counts req.tokens.length := by
  have hlength := c.length_words_sources req.tokens
  cases h with
  | empty ht => exact List.length_eq_zero_iff.2 ht
  | unresolved ht hw =>
    rw [hw, List.length_nil] at hlength
    exact ht (List.length_eq_zero_iff.1 hlength.symm)
  | singleSign hw =>
    rw [hw] at hlength
    exact hlength.symm
  | ruleMatch h2 | joined h2 =>
    rw [hlength] at h2
    exact h2

/-- The outcomes that do not echo the signs are told apart by what they say. -/
theorem Outcome.Counts.cases {o : Outcome} {n : Nat} (h : o.Counts n) :
    o ≠ .unresolved ∧ (o = .empty ↔ n = 0) ∧ (o = .singleSign ↔ n = 1) ∧
      ((∃ id, o = .ruleMatch id) ∨ o = .joined ↔ 2 ≤ n) := by
  cases o with
  | unresolved => exact h.elim
  | empty | singleSign =>
    obtain rfl := h
    simp
  | ruleMatch id | joined =>
    have h2 : 2 ≤ n := h
    have h0 : n ≠ 0 := by omega
    have h1 : n ≠ 1 := by omega
    simp [h2, h0, h1]

namespace Command

/-- No stage fails with the status of a failed look-up. -/
theorem Invocation.Fails.ne_unavailable {sur : Surroundings} {inv : Invocation} {n : Nat}
    (h : inv.Fails sur n) : n ≠ Status.unavailable := by
  cases h with
  | request _ h => cases h <;> decide
  | catalog _ h =>
    generalize inv.settings.catalog = path? at h
    cases h <;> decide

theorem status_run_ne_unavailable (sur : Surroundings) (args : List String) :
    (run sur args).status ≠ Status.unavailable := by
  cases hread : Invocation.read sur.vars args with
  | error stop =>
    have hrun : run sur args = stopReport stop := by rw [run, hread]
    rw [hrun]
    cases stop <;> decide
  | ok i =>
    obtain ⟨n, hends⟩ := i.exists_ends sur
    rw [hends.status_run hread]
    cases hends with
    | failed h => exact h.ne_unavailable
    | faulty | done => decide

end Command

/-- **A catalog is always available.**  Whatever its history, each request has an
    answer: with a word for each token, in the order of the tokens, and an outcome
    that tells whether there are no tokens, one, or more.  So no command line ends
    with the status of a failed look-up. -/
theorem Catalog.never_unavailable :
    (∀ (c : Catalog) (req : Request), ∃ i, c.interpret req = .ok i ∧
      List.Forall₂ c.Words req.tokens i.words ∧
      i.outcome ≠ .unresolved ∧
      (i.outcome = .empty ↔ req.tokens.length = 0) ∧
      (i.outcome = .singleSign ↔ req.tokens.length = 1) ∧
      ((∃ id, i.outcome = .ruleMatch id) ∨ i.outcome = .joined ↔ 2 ≤ req.tokens.length)) ∧
    ∀ sur args, (Command.run sur args).status ≠ Command.Status.unavailable := by
  refine ⟨fun c req => ?_, Command.status_run_ne_unavailable⟩
  obtain ⟨i, hi⟩ := c.reliable_sources.exists_answered req
  refine ⟨i, hi.result c.reliable_sources, ?_, hi.counts.cases⟩
  rw [hi.words_eq, c.words_sources, List.forall₂_map_right_iff, List.forall₂_same]
  exact fun t _ => c.words_word t

end SignGloss
