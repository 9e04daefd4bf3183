/-
  Consultations that follow a plan.

  A plan is a list of queries, to be made in order as long as none fails.

  * `Sources.failure?` is the failure that answers a query, if any;
  * `Sources.made` are the queries of a plan that are made: all up to the first
    that fails, that one included;
  * a consultation `Follows` a plan if it makes just these queries and fails as
    the plan does.

  Main statements: plans are followed one after the other (`Follows.bind`), and
  a failure is the answer to the last query made (`failure_iff_getLast?_made`).
-/
import SignGloss.Consultation

namespace SignGloss

variable {α β : Type}

/-- The failure of an answer. -/
def failureOf? : Except LookupFailure α → Option LookupFailure
  | .ok _ => none
  | .error e => some e

@[simp] theorem failureOf?_ok (a : α) : failureOf? (.ok a) = none := rfl

@[simp] theorem failureOf?_error (e : LookupFailure) : failureOf? (.error e : Except _ α) = some e :=
  rfl

theorem failureOf?_eq_some {x : Except LookupFailure α} {e : LookupFailure} :
    failureOf? x = some e ↔ x = .error e := by
  cases x <;> simp

theorem failureOf?_eq_none {x : Except LookupFailure α} :
    failureOf? x = none ↔ ∃ a, x = .ok a := by
  cases x <;> simp

namespace Sources

variable (src : Sources)

/-- The failure that answers a query. -/
def failure? : Query → Option LookupFailure
  | .senses sign => failureOf? (src.senses sign)
  | .rules locale => failureOf? (src.rules locale)
  | .form gloss code person => failureOf? (src.form gloss code person)

/-- The queries of a plan that are made. -/
def made : List Query → List Query
  | [] => []
  | q :: qs =>
    match src.failure? q with
    | some _ => [q]
    | none => q :: made qs

variable {src}

theorem made_append_of_none {p q : List Query} (h : p.findSome? src.failure? = none) :
    src.made (p ++ q) = p ++ src.made q := by
  induction p with
  | nil => rfl
  | cons a p ih =>
    rw [List.findSome?_eq_none_iff, List.forall_mem_cons] at h
    rw [List.cons_append, made, h.1, ih (List.findSome?_eq_none_iff.2 h.2), List.cons_append]

/-- A plan without failures is made as a whole. -/
theorem made_eq_self {p : List Query} (h : p.findSome? src.failure? = none) : src.made p = p := by
  simpa [made] using made_append_of_none (q := []) h

theorem made_append_of_some {p q : List Query} {e : LookupFailure}
    (h : p.findSome? src.failure? = some e) : src.made (p ++ q) = src.made p := by
  induction p with
  | nil => simp at h
  | cons a p ih =>
    rw [List.cons_append, made, made]
    cases ha : src.failure? a with
    | some e' => rfl
    | none =>
      rw [List.findSome?_cons, ha] at h
      simp only [ih h]

/-- Before the last query made none has failed. -/
theorem failure?_of_mem_dropLast_made {qs : List Query} {q : Query}
    (h : q ∈ (src.made qs).dropLast) : src.failure? q = none := by
  induction qs with
  | nil => simp [made] at h
  | cons a qs ih =>
    rw [made] at h
    cases ha : src.failure? a with
    | some e => simp [ha] at h
    | none =>
      simp only [ha] at h
      cases hm : src.made qs with
      | nil => simp [hm] at h
      | cons b bs =>
        rw [hm, List.dropLast_cons_cons, ← hm] at h
        rcases List.mem_cons.1 h with rfl | h
        · exact ha
        · exact ih h

/-- **A plan fails iff the last query made does**, and with its failure. -/
theorem failure_iff_getLast?_made {qs : List Query} {e : LookupFailure} :
    qs.findSome? src.failure? = some e ↔
      ∃ q, (src.made qs).getLast? = some q ∧ src.failure? q = some e := by
  induction qs with
  | nil => simp [made]
  | cons a qs ih =>
    rw [List.findSome?_cons, made]
    cases ha : src.failure? a with
    | some e' => simp [ha]
    | none =>
      simp only [ih]
      cases hm : src.made qs with
      | nil => simp [ha]
      | cons b bs => rw [List.getLast?_cons_cons]

end Sources

/-! ## Following a plan -/

/-- The consultation makes the queries of a plan and fails as the plan does. -/
structure Consultation.Follows (src : Sources) (plan : List Query) (x : Consultation α) : Prop where
  queries : x.queries = src.made plan
  failure : failureOf? x.result = plan.findSome? src.failure?

namespace Consultation.Follows

variable {src : Sources} {p q : List Query}

theorem pure (a : α) : Follows src [] (Pure.pure a : Consultation α) := ⟨rfl, rfl⟩

theorem ask {q : Query} {answer : Except LookupFailure α} (h : src.failure? q = failureOf? answer) :
    Follows src [q] (ask q answer) := by
  refine ⟨?_, ?_⟩
  · cases hq : src.failure? q <;> simp [Consultation.ask, Sources.made, hq]
  · cases hq : src.failure? q <;> simp [Consultation.ask, ← h, hq]

/-- **Plans are followed one after the other.**  The second plan matters only
    where the first consultation succeeds. -/
theorem bind {x : Consultation α} {f : α → Consultation β} (hx : Follows src p x)
    (hf : ∀ a, x.result = .ok a → Follows src q (f a)) : Follows src (p ++ q) (x >>= f) := by
  cases hr : x.result with
  | error e =>
    have hp : p.findSome? src.failure? = some e := by rw [← hx.failure, hr]; rfl
    refine ⟨?_, ?_⟩
    · rw [queries_bind_error hr, hx.queries, Sources.made_append_of_some hp]
    · rw [result_bind_error hr, List.findSome?_append, hp]; rfl
  | ok a =>
    have hp : p.findSome? src.failure? = none := by rw [← hx.failure, hr]; rfl
    have ha := hf a hr
    refine ⟨?_, ?_⟩
    · rw [queries_bind_ok hr, hx.queries, ha.queries, Sources.made_append_of_none hp,
        Sources.made_eq_self hp]
    · rw [result_bind_ok hr, ha.failure, List.findSome?_append, hp]; rfl

/-- A consultation succeeds where its plan has no failure. -/
theorem exists_result {x : Consultation α} (hx : Follows src p x)
    (h : p.findSome? src.failure? = none) : ∃ a, x.result = .ok a :=
  failureOf?_eq_none.1 (hx.failure.trans h)

end Consultation.Follows

end SignGloss
