/-
  Suggestions are the best names within reach.

  * `edits a b`: the number of edits between two names;
  * `reachable name known`: the known names other than `name` that its tolerance allows;
  * `Precedes name known k l`: the name `k` has fewer edits than `l`, or as many and its
    first place in the list is before that of `l`;
  * `Repeated known list`: the list is the known names with some of them repeated behind
    their first places.

  Names are sorted by their numbers of edits, and names with as many keep their places
  (`pairwise_mergeSort_key`).  So the names within reach stand in one strict order, and
  the suggestions are the first three of them (`ranked`).

  Main statements: the suggestions are the best names within reach (`suggestions_best`),
  and the tolerance of a name goes by its bytes and not by its characters
  (`tolerance_by_bytes`).
-/
import Mathlib.Data.Finset.Card
import Mathlib.Data.Finset.Dedup
import Mathlib.Data.String.Basic
import SignGloss.Lint.Suggestion
import SignGloss.Proofs.EditDistance

namespace SignGloss

/-- The number of edits between two names. -/
def edits (a b : String) : Nat := Text.distance a.toList b.toList

/-- The known names within reach, other than the name itself. -/
def reachable (name : String) (known : List String) : Finset String :=
  known.toFinset.filter fun k => 0 < edits name k ∧ edits name k ≤ tolerance name

/-- The name `k` is suggested before `l`. -/
def Precedes (name : String) (known : List String) (k l : String) : Prop :=
  edits name k < edits name l ∨ edits name k = edits name l ∧ known.idxOf k < known.idxOf l

instance (name : String) (known : List String) (k l : String) :
    Decidable (Precedes name known k l) := inferInstanceAs (Decidable (_ ∨ _))

/-- The list is the known names with some of them repeated behind their first places. -/
inductive Repeated (known : List String) : List String → Prop
  | none : Repeated known known
  | more {before k after} : Repeated known (before ++ after) → k ∈ before →
      Repeated known (before ++ k :: after)

/-- All names within reach, the best first. -/
def ranked (name : String) (known : List String) : List String :=
  ((eligible name known).mergeSort fun a b => a.1 ≤ b.1).map Prod.snd

/-! ## Sorting by a number -/

section
variable {α : Type} {r : α → α → Prop} {l : List α}

/-- A sorted list goes up. -/
theorem pairwise_le_mergeSort_key (key : α → Nat) (l : List α) :
    (l.mergeSort fun a b => key a ≤ key b).Pairwise fun a b => key a ≤ key b := by
  have hs := @List.pairwise_mergeSort α (fun a b => decide (key a ≤ key b))
    (by simp only [decide_eq_true_eq]; omega)
    (by simp only [Bool.or_eq_true, decide_eq_true_eq]; omega) l
  exact hs.imp of_decide_eq_true

/-- Members with one number keep their places. -/
theorem filter_mergeSort_key (key : α → Nat) (l : List α) (n : Nat) :
    (l.mergeSort fun a b => key a ≤ key b).filter (key · = n) = l.filter (key · = n) := by
  have hsame : (l.filter (key · = n)).Pairwise fun a b => decide (key a ≤ key b) = true := by
    refine List.pairwise_of_forall_mem_list fun a ha b hb => ?_
    have ha := of_decide_eq_true (List.mem_filter.1 ha).2
    have hb := of_decide_eq_true (List.mem_filter.1 hb).2
    exact decide_eq_true (by omega)
  have hsub := (List.sublist_mergeSort (by simp only [decide_eq_true_eq]; omega)
    (by simp only [Bool.or_eq_true, decide_eq_true_eq]; omega) hsame
    List.filter_sublist).filter (key · = n)
  rw [List.filter_filter, funext fun a => Bool.and_self (decide (key a = n))] at hsub
  have hperm := (List.mergeSort_perm l fun a b => decide (key a ≤ key b)).filter (key · = n)
  exact (hsub.eq_of_length hperm.length_eq.symm).symm

/-- A sorted list goes up, and where it does not, the order is that of the list. -/
theorem pairwise_mergeSort_key (key : α → Nat) (h : l.Pairwise r) :
    (l.mergeSort fun a b => key a ≤ key b).Pairwise
      fun a b => key a < key b ∨ key a = key b ∧ r a b := by
  rw [List.pairwise_iff_forall_sublist]
  intro a b hab
  have hle := List.pairwise_iff_forall_sublist.1 (pairwise_le_mergeSort_key key l) hab
  rcases Nat.lt_or_eq_of_le hle with hlt | heq
  · exact Or.inl hlt
  · have hsub := hab.filter (key · = key b)
    rw [filter_mergeSort_key] at hsub
    have hboth : [a, b].filter (key · = key b) = [a, b] := by simp [heq]
    rw [hboth] at hsub
    exact Or.inr ⟨heq, List.pairwise_iff_forall_sublist.1 h (hsub.trans List.filter_sublist)⟩

/-- A list in strict order starts with the members that have few before them. -/
theorem mem_take_iff_of_pairwise [DecidableRel r] (h : l.Pairwise r)
    (hasymm : ∀ a b, r a b → ¬ r b a) {a : α} (ha : a ∈ l) (n : Nat) :
    a ∈ l.take n ↔ (l.filter (r · a)).length < n := by
  obtain ⟨before, after, rfl⟩ := List.append_of_mem ha
  obtain ⟨-, hafter, hbefore⟩ := List.pairwise_append.1 h
  have hirrefl : ¬ r a a := fun hr => hasymm a a hr hr
  have hfilter : (before ++ a :: after).filter (r · a) = before := by
    have hkept : before.filter (r · a) = before :=
      List.filter_eq_self.2 fun b hb => decide_eq_true (hbefore b hb a List.mem_cons_self)
    have hdropped : after.filter (r · a) = [] := List.filter_eq_nil_iff.2 fun b hb hr =>
      hasymm a b ((List.pairwise_cons.1 hafter).1 b hb) (of_decide_eq_true hr)
    rw [List.filter_append, List.filter_cons_of_neg (by simpa using hirrefl), hkept, hdropped,
      List.append_nil]
  rw [hfilter]
  constructor
  · intro hmem
    by_contra hn
    rw [List.take_append_of_le_length (by omega)] at hmem
    exact hirrefl (hbefore a (List.mem_of_mem_take hmem) a List.mem_cons_self)
  · intro hn
    obtain ⟨k, rfl⟩ := Nat.exists_eq_add_of_lt hn
    rw [Nat.add_assoc, List.take_length_add_append, List.take_succ_cons]
    simp

end

/-! ## The order of suggestions -/

variable {name k l : String} {known list : List String}

theorem Precedes.asymm (h : Precedes name known k l) : ¬ Precedes name known l k := by
  unfold Precedes at *
  omega

theorem mem_reachable : k ∈ reachable name known ↔
    k ∈ known ∧ 0 < edits name k ∧ edits name k ≤ tolerance name := by
  rw [reachable, Finset.mem_filter, List.mem_toFinset]

theorem mem_ranked : k ∈ ranked name known ↔ k ∈ reachable name known := by
  simp [ranked, eligible, mem_reachable, mem_distinct, edits]

/-- The names within reach stand in strict order. -/
theorem pairwise_ranked (name : String) (known : List String) :
    (ranked name known).Pairwise (Precedes name known) := by
  have hplaces : (eligible name known).Pairwise fun a b => known.idxOf a.2 < known.idxOf b.2 := by
    refine List.Pairwise.filter _ (List.pairwise_map.2 ?_)
    exact pairwise_distinct known
  have hsorted := pairwise_mergeSort_key Prod.fst hplaces
  rw [ranked, List.pairwise_map]
  refine hsorted.imp_of_mem fun {a b} ha hb h => ?_
  have hfst : ∀ c ∈ (eligible name known).mergeSort fun a b => a.1 ≤ b.1,
      c.1 = edits name c.2 := by
    intro c hc
    have hc := (List.mergeSort_perm _ _).mem_iff.1 hc
    obtain ⟨m, -, rfl⟩ := List.mem_map.1 (List.mem_of_mem_filter hc)
    rfl
  rwa [hfst a ha, hfst b hb] at h

theorem nodup_ranked (name : String) (known : List String) : (ranked name known).Nodup :=
  (pairwise_ranked name known).imp fun h heq => (heq ▸ h).asymm (heq ▸ h)

theorem length_ranked (name : String) (known : List String) :
    (ranked name known).length = (reachable name known).card := by
  rw [← List.toFinset_card_of_nodup (nodup_ranked name known)]
  congr 1
  ext k
  rw [List.mem_toFinset, mem_ranked]

theorem suggestions_eq (name : String) (known : List String) :
    suggestions name known = (ranked name known).take 3 := by
  rw [suggestions, ranked, List.map_take, mostSuggestions]

theorem mem_reachable_of_mem_suggestions (h : k ∈ suggestions name known) :
    k ∈ reachable name known :=
  mem_ranked.1 (List.mem_of_mem_take (suggestions_eq name known ▸ h))

/-- A name within reach is suggested iff fewer than three come before it. -/
theorem mem_suggestions_iff (h : k ∈ reachable name known) : k ∈ suggestions name known ↔
    ((reachable name known).filter (Precedes name known · k)).card < 3 := by
  have hcount : ((ranked name known).filter (Precedes name known · k)).length =
      ((reachable name known).filter (Precedes name known · k)).card := by
    rw [← List.toFinset_card_of_nodup ((nodup_ranked name known).filter _)]
    congr 1
    ext l
    simp [mem_ranked]
  rw [suggestions_eq, mem_take_iff_of_pairwise (pairwise_ranked name known)
    (fun _ _ => Precedes.asymm) (mem_ranked.2 h), hcount]

/-! ## Repeated names -/

theorem distinctAfter_append_cons {κ : Type} [DecidableEq κ] {k : κ} {seen before after : List κ}
    (h : k ∈ seen ∨ k ∈ before) :
    distinctAfter id seen (before ++ k :: after) = distinctAfter id seen (before ++ after) := by
  induction before generalizing seen with
  | nil => simp [distinctAfter, h.resolve_right List.not_mem_nil]
  | cons b before ih =>
    have hrest : (k = b ∨ k ∈ seen) ∨ k ∈ before := by
      rw [List.mem_cons] at h
      tauto
    simp only [List.cons_append, distinctAfter, id_eq]
    split
    · next hb => exact ih (hrest.imp_left fun hk => hk.elim (fun heq => heq.symm ▸ hb) fun hk => hk)
    · rw [ih (hrest.imp_left List.mem_cons.2)]

theorem Repeated.distinct_eq (h : Repeated known list) : distinct list = distinct known := by
  induction h with
  | none => rfl
  | more _ hk ih => rw [← ih]; exact distinctAfter_append_cons (Or.inr hk)

theorem Repeated.suggestions_eq (h : Repeated known list) :
    suggestions name list = suggestions name known := by
  rw [suggestions, suggestions, eligible, eligible, h.distinct_eq]

/-! ## The best names -/

/-- **Suggestions are the best names within reach.**  There are three, or as many as
    there are names within reach; they are different, and come with the fewest edits and,
    of as many, with the first place in the list first, and every name within reach that
    is left out comes after all of them.  Repeated names change nothing, and the numbers
    of edits are the least. -/
theorem suggestions_best (name : String) (known : List String) :
    let s := suggestions name known
    (s.length = min 3 (reachable name known).card ∧ s.Nodup ∧
      (∀ k ∈ s, k ∈ reachable name known) ∧ s.Pairwise (Precedes name known)) ∧
    (∀ k ∈ reachable name known, k ∉ s → ∀ l ∈ s, Precedes name known l k) ∧
    (∀ list, Repeated known list → suggestions name list = s) ∧
    ∀ k, Text.Fewest name.toList k.toList (edits name k) := by
  intro s
  have hs : s = (ranked name known).take 3 := suggestions_eq name known
  refine ⟨⟨?_, ?_, fun k hk => ?_, ?_⟩, fun k hk hnot l hl => ?_, fun list h => h.suggestions_eq,
    fun k => Text.fewest_distance _ _⟩
  · rw [hs, List.length_take, length_ranked]
  · exact hs ▸ (nodup_ranked name known).sublist (List.take_sublist 3 _)
  · exact mem_ranked.1 (List.mem_of_mem_take (hs ▸ hk))
  · exact hs ▸ (pairwise_ranked name known).sublist (List.take_sublist 3 _)
  · have hsplit := List.take_append_drop 3 (ranked name known)
    rw [← hs] at hsplit
    have hdrop : k ∈ (ranked name known).drop 3 := by
      have hmem := mem_ranked.2 hk
      rw [← hsplit, List.mem_append] at hmem
      exact hmem.resolve_left hnot
    have hsorted := pairwise_ranked name known
    rw [← hsplit] at hsorted
    exact (List.pairwise_append.1 hsorted).2.2 l hl k hdrop

/-- Three of four names within reach, one of which is listed twice; the two last have as
    many edits. -/
theorem suggestions_best_ties :
    let known := ["VERB", "NOUNS", "NUN", "NUM", "NOUN", "NOW"]
    let list := ["VERB", "NOUNS", "NUN", "NUM", "NOUNS", "NOUN", "NOW"]
    suggestions "NOUN" known = ["NOUNS", "NUN", "NUM"] ∧
      (Repeated known list ∧ suggestions "NOUN" list = suggestions "NOUN" known) ∧
      ("NOW" ∈ reachable "NOUN" known ∧ "NOW" ∉ suggestions "NOUN" known) ∧
      Precedes "NOUN" known "NUM" "NOW" := by
  intro known list
  have hsorted : (eligible "NOUN" known).mergeSort (fun a b => a.1 ≤ b.1) =
      eligible "NOUN" known := List.mergeSort_of_pairwise (by decide +kernel)
  have hvalue : suggestions "NOUN" known = ["NOUNS", "NUN", "NUM"] := by
    rw [suggestions, hsorted]
    decide +kernel
  have hlist : Repeated known list :=
    @Repeated.more known ["VERB", "NOUNS", "NUN", "NUM"] "NOUNS" ["NOUN", "NOW"] .none (by simp)
  have hnow : "NOW" ∈ reachable "NOUN" known := by decide +kernel
  have hnot : "NOW" ∉ suggestions "NOUN" known := by rw [hvalue]; decide
  obtain ⟨-, hleft, hrepeated, -⟩ := suggestions_best "NOUN" known
  exact ⟨hvalue, ⟨hlist, hrepeated list hlist⟩, ⟨hnow, hnot⟩,
    hleft "NOW" hnow hnot "NUM" (by rw [hvalue]; decide)⟩

/-! ## The tolerance -/

theorem length_le_utf8ByteSize (s : String) : s.length ≤ s.utf8ByteSize := by
  rw [← String.utf8Len_toList, ← String.length_toList]
  induction s.toList with
  | nil => exact Nat.le_refl 0
  | cons c s ih =>
    have hpos := c.utf8Size_pos
    rw [List.length_cons, String.utf8Len_cons]
    omega

/-- There is a name at any distance. -/
theorem exists_edits_eq (name : String) (n : Nat) : ∃ k, edits name k = n := by
  refine ⟨String.ofList (name.toList ++ List.replicate n 'x'), ?_⟩
  have hedited : Text.Edited name.toList (name.toList ++ List.replicate n 'x') n := by
    simpa using (Text.Edited.refl name.toList).append (.inserted (List.replicate n 'x'))
  rw [edits, String.toList_ofList]
  refine Text.Fewest.unique (Text.fewest_distance _ _) ⟨hedited, fun h => ?_⟩
  simpa using h.length_le.2

theorem tolerance_of_le (h : name.utf8ByteSize ≤ 3) : tolerance name = 1 := if_pos h

theorem tolerance_of_lt (h : 3 < name.utf8ByteSize) : tolerance name = 2 := if_neg (by omega)

/-- **The tolerance of a name goes by its bytes.**  All names that are suggested, from
    whatever list, have one edit iff the name has three bytes at most.  For a name of more
    than three characters, any name of one or two edits is suggested iff fewer than three
    others with edits come before it. -/
theorem tolerance_by_bytes (name : String) :
    ((∀ known, ∀ k ∈ suggestions name known, edits name k ≤ 1) ↔ name.utf8ByteSize ≤ 3) ∧
    (3 < name.length → ∀ known, ∀ k ∈ known, edits name k = 1 ∨ edits name k = 2 →
      (k ∈ suggestions name known ↔
        (known.toFinset.filter fun l => 0 < edits name l ∧ Precedes name known l k).card < 3)) := by
  refine ⟨⟨fun h => ?_, fun hbytes known k hk => ?_⟩, fun hlength known k hk hedits => ?_⟩
  · by_contra hbytes
    -- a name with two edits is suggested where no other is known
    obtain ⟨k, hk⟩ := exists_edits_eq name 2
    have hreach : k ∈ reachable name [k] :=
      mem_reachable.2 ⟨List.mem_singleton_self k, by omega, by rw [tolerance_of_lt (by omega), hk]⟩
    have hnone : (reachable name [k]).filter (Precedes name [k] · k) = ∅ := by
      refine Finset.filter_eq_empty_iff.2 fun l hl hlk => ?_
      obtain rfl := List.mem_singleton.1 (mem_reachable.1 hl).1
      exact hlk.asymm hlk
    have hmem : k ∈ suggestions name [k] :=
      (mem_suggestions_iff hreach).2 (by rw [hnone, Finset.card_empty]; omega)
    have := h [k] k hmem
    omega
  · have := (mem_reachable.1 (mem_reachable_of_mem_suggestions hk)).2.2
    rwa [tolerance_of_le hbytes] at this
  · have htolerance : tolerance name = 2 :=
      tolerance_of_lt (hlength.trans_le (length_le_utf8ByteSize name))
    have hreach : k ∈ reachable name known := mem_reachable.2 ⟨hk, by omega, by omega⟩
    rw [mem_suggestions_iff hreach, reachable, Finset.filter_filter, htolerance]
    -- what comes before a name within reach is within reach
    have hbefore : ∀ l, ((0 < edits name l ∧ edits name l ≤ 2) ∧ Precedes name known l k) ↔
        0 < edits name l ∧ Precedes name known l k := by
      unfold Precedes
      omega
    simp only [hbefore]

/-- The last of four names within reach is left out, since a name with as many edits has
    a place before it; two edits are too many for a name of two characters. -/
theorem tolerance_by_bytes_noun :
    let known := ["VERB", "NUM", "NOUNS", "NUN", "NOUN", "NOW"]
    (3 < "NOUN".length ∧ (∀ k ∈ ["NUM", "NOW"], k ∈ known ∧ edits "NOUN" k = 2)) ∧
      "NUM" ∈ suggestions "NOUN" known ∧ "NOW" ∉ suggestions "NOUN" known ∧
      "ÑU".utf8ByteSize ≤ 3 ∧ ∀ known, ∀ k ∈ suggestions "ÑU" known, edits "ÑU" k ≤ 1 := by
  intro known
  have hlength : 3 < "NOUN".length := by decide
  have hnum : "NUM" ∈ known ∧ edits "NOUN" "NUM" = 2 := by decide +kernel
  have hnow : "NOW" ∈ known ∧ edits "NOUN" "NOW" = 2 := by decide +kernel
  have hsuggested := (tolerance_by_bytes "NOUN").2 hlength known
  have hbytes : "ÑU".utf8ByteSize ≤ 3 := by decide
  refine ⟨⟨hlength, by simp [hnum, hnow]⟩, (hsuggested _ hnum.1 (Or.inr hnum.2)).2 ?_,
    fun h => ?_, hbytes, (tolerance_by_bytes "ÑU").1.2 hbytes⟩
  · decide +kernel
  · exact absurd ((hsuggested _ hnow.1 (Or.inr hnow.2)).1 h) (by decide +kernel)

/-- **A name of three characters may tolerate two edits**: it has four bytes. -/
theorem suggestion_of_two_edits :
    "AÑO".length = 3 ∧ suggestions "AÑO" ["ADJ"] = ["ADJ"] ∧ edits "AÑO" "ADJ" = 2 := by
  decide +kernel

end SignGloss
