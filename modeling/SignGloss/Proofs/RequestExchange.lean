/-
  Requests for signs are read as they were written, and locales that are left out.

  * the default confidence is written `0.7` and read as the same number of 32 bits
    (`restores_defaultConfidence`), although it is read by way of one of 64 bits;
  * `Fields.Lacks name vs`: no field with this name has a value.  A slot is filled by a
    member with the key of its field and by no other (`Members.lacks`);
  * `Request.Unlocated text`: the text of a request does not say its locale;
  * `Request.tokensText`: such a text for all tokens.

  Main statements: a request for signs is restored (`Request.restores_ofSigns`), and a
  request that does not say its locale has the default one
  (`Request.locale_of_unlocated`, `Request.decode_tokensText`).
-/
import SignGloss.Exchange
import SignGloss.Proofs.WrittenRecords

namespace SignGloss

namespace Json

/-! ## Numbers -/

namespace Codec

theorem restores_integer64 (n : Int64) : integer64.Restores n :=
  restores_integer (g := Int64.toInt) (by decide) (by decide)
    ⟨n.le_toInt, Int.le_of_lt_add_one n.toInt_lt⟩ n.ofInt_toInt

/-- A number is not followed by an exponent. -/
theorem readTail_of_ended (minus : Bool) (n : Nat) (e : Int) {r : List Char} (h : Ended r) :
    readTail minus n e r = realOf minus n e r := by
  unfold readTail
  split
  case h_3 => rfl
  all_goals exact absurd rfl (h.ne (by decide))

/-- `0.7` as a number of 64 bits: seven, divided by ten. -/
theorem readNumber_defaultConfidence {r : List Char} (hr : Ended r) :
    readNumber false ('0' :: '.' :: '7' :: r) =
      .ok (.real ((Binary.ofNat 7).div (tenPower 1)), r) := by
  have hdigit : ∀ c ∈ ['7'], c.isDigit = true := fun c hc => List.mem_singleton.1 hc ▸ rfl
  have htake : takeDigits 0 0 ('7' :: r) = (7, 1, r) := takeDigits_append hdigit hr (by decide)
  have hscale : scaleTen (.ofNat 7) (-1) = some ((Binary.ofNat 7).div (tenPower 1)) := by
    rw [scaleTen, if_neg (by decide +kernel), if_neg (by decide), if_pos (by decide)]
    rfl
  have hfraction : readFraction false 0 0 ('7' :: r) =
      .ok (.real ((Binary.ofNat 7).div (tenPower 1)), r) := by
    rw [readFraction, htake]
    simp only [startsWithDigit_of_ended hr, readTail_of_ended _ _ _ hr]
    simp [realOf, hscale]
  exact hfraction

/-- The default confidence is restored: rounding it to 64 bits and then to 32 bits
    gives the same number as rounding it once. -/
theorem restores_defaultConfidence : single.Restores defaultConfidence := by
  have hwrite : writeSingle defaultConfidence = ['0', '.', '7'] := by decide +kernel
  refine ⟨fun d => ⟨'0', ['.', '7'], hwrite, by decide, by decide⟩, fun d w r hw hr => ?_⟩
  have hskip : skip (w ++ (['0', '.', '7'] ++ r)) = '0' :: '.' :: '7' :: r :=
    skip_blank_append hw (by decide)
  have hround : ((Binary.ofNat 7).div (tenPower 1) : Double).convert = defaultConfidence := by
    decide +kernel
  have hvalue : (single.value defaultConfidence).write d = writeSingle defaultConfidence := rfl
  rw [hvalue, hwrite]
  simp only [single, Reader.single, Reader.number, hskip]
  simp [readNumber_defaultConfidence hr, takeNumber, acceptSingle, hround]

end Codec

/-! ## Fields that are left out -/

section
variable {α : Type} {αs : List Type} {fs : Fields αs} {vs vs' : Slots αs} {first : Bool}
  {s r : List Char} {key name : String} {keys : List String}

/-- No field with the name has a value so far. -/
def Fields.Lacks (name : String) : {αs : List Type} → Fields αs → Slots αs → Prop
  | [], .nil, _ => True
  | _ :: _, .cons f fs, (o, vs) => (f.name = name → o = none) ∧ fs.Lacks name vs

theorem Fields.lacks_empty (fs : Fields αs) : fs.Lacks name (.empty αs) := by
  induction fs with
  | nil => trivial
  | cons f fs ih => exact ⟨fun _ => rfl, ih⟩

/-- A value for another field does not matter. -/
theorem Fields.Lacks.of_meaning {x : Reader (Slots αs)} (h : fs.Lacks name vs) (hne : key ≠ name)
    (hkey : fs.meaning key vs = .value x) (hx : x.run s = .ok (vs', r)) : fs.Lacks name vs' := by
  have hfills := fills_of_meaning hkey
  clear hkey
  induction hfills with
  | here hname =>
    simp only [Reader.map] at hx
    split at hx
    · cases hx
    · cases hx
      exact ⟨fun h => absurd (hname.symm.trans h) hne, h.2⟩
  | there _ _ ih =>
    simp only [Reader.map] at hx
    split at hx
    · cases hx
    · rename_i hy
      cases hx
      exact ⟨h.1, ih h.2 hy⟩

theorem Fields.Lacks.of_readMember (h : fs.Lacks name vs) (hne : key ≠ name)
    (hm : readMember fs vs key s = .ok (vs', r)) : fs.Lacks name vs' := by
  unfold readMember at hm
  split at hm
  · cases hm
  · split at hm
    · cases hm
    · rename_i t _
      cases hv : skipValue t with
      | error f =>
        rw [hv] at hm
        cases hm
      | ok u =>
        rw [hv] at hm
        cases hm
        exact h
  · rename_i x hkey
    split at hm
    · cases hm
    · exact h.of_meaning hne hkey hm

/-- A field that no key names has no value. -/
theorem Members.lacks (h : Members fs vs first s keys vs' r) (hvs : fs.Lacks name vs)
    (hname : name ∉ keys) : fs.Lacks name vs' := by
  induction h with
  | done _ => exact hvs
  | member _ hm _ ih =>
    obtain ⟨hkey, hkeys⟩ := not_or.1 (mt List.mem_cons.2 hname)
    exact ih (hvs.of_readMember (Ne.symm hkey) hm) hkeys

end

end Json

open Json Fields

/-! ## Requests for signs -/

variable {text : String} {req : Request}

theorem Token.restores {t : Token} (h : Codec.single.Restores t.confidence) :
    Token.codec.Restores t :=
  restores_record (by decide)
    (restores_required (Codec.restores_text _) <| restores_required (Codec.restores_integer64 _) <|
      restores_required (Codec.restores_integer64 _) <| restores_defaulted h restores_nil)
    rfl

/-- A request is restored if its confidences are. -/
theorem Request.restores (h : ∀ t ∈ req.tokens, Codec.single.Restores t.confidence) :
    Request.codec.Restores req :=
  restores_record (by decide)
    (restores_required (Codec.restores_list fun t ht => Token.restores (h t ht)) <|
      restores_defaulted (Codec.restores_text _) restores_nil)
    rfl

/-- **A request for signs is read as it was written**, for any signs and locale. -/
theorem Request.restores_ofSigns (signs : List String) (locale : String) :
    Request.codec.Restores (.ofSigns signs locale) := by
  refine Request.restores fun t ht => ?_
  obtain ⟨sign, -, rfl⟩ := List.mem_map.1 ht
  exact Codec.restores_defaultConfidence

/-! ## Locales that are left out -/

/-- The fields of a request. -/
def Request.fields : Fields [List Token, String] :=
  .required "tokens" (.list Token.codec) <| .defaulted "locale" .text defaultLocale .nil

/-- The text of a request does not say its locale: no member of the record has this
    name, or the list ends behind the tokens. -/
inductive Request.Unlocated (text : String) : Prop
  | record {s : List Char} {keys : List String} {vs : Slots [List Token, String]} {r : List Char} :
      skip text.toList = '{' :: s → Members Request.fields (.empty _) true s keys vs r →
      "locale" ∉ keys → Unlocated text
  | list {s t u r : List Char} {tokens : List Token} :
      skip text.toList = '[' :: s → nextElement true s = .ok (true, t) →
      (Codec.list Token.codec).reader.run t = .ok (tokens, u) →
      nextElement false u = .ok (false, r) → Unlocated text

theorem Request.locale_of_build {vs : Slots [List Token, String]}
    (h : Request.fields.build 0 vs Request.mk = .ok req) (hl : vs.2.1 = none) :
    req.locale = defaultLocale := by
  obtain ⟨tokens?, locale?, _⟩ := vs
  obtain rfl : locale? = none := hl
  cases tokens? with
  | none => cases h
  | some tokens =>
    cases h
    rfl

theorem Json.Codec.exists_run_of_decode {α : Type} {c : Codec α} {a : α}
    (h : c.decode text = .ok a) : ∃ r, c.reader.run text.toList = .ok (a, r) := by
  obtain ⟨r, hr, -⟩ := decode_eq_ok_iff_run.1 h
  exact ⟨r, hr⟩

theorem Json.build_of_finish {α : Type} {αs : List Type} {fs : Fields αs} {b : Build αs α}
    {cause : Nat × String → Cause} {vs : Slots αs} {a : α} {r r' : List Char}
    (h : finish fs b cause (.ok (vs, r)) = .ok (a, r')) : fs.build 0 vs b = .ok a := by
  simp only [finish] at h
  split at h
  · cases h
  · rename_i hb
    cases h
    exact hb

/-- **A request that does not say its locale has the default one.** -/
theorem Request.locale_of_unlocated (h : Request.codec.decode text = .ok req)
    (hu : Request.Unlocated text) : req.locale = defaultLocale := by
  obtain ⟨r, hr⟩ := Codec.exists_run_of_decode h
  cases hu with
  | @record s keys vs r' hs hm hname =>
    simp only [Request.codec, Codec.record, Reader.record, hs] at hr
    rw [← Request.fields, hm.readMembers_eq] at hr
    exact Request.locale_of_build (build_of_finish hr) ((hm.lacks (lacks_empty _) hname).2.1 rfl)
  | @list s t u r' tokens hs ht htokens hend =>
    have hvalues : readInOrder Request.fields true s = .ok ((some tokens, none, ()), r') := by
      simp only [Request.fields, required, defaulted, readInOrder, ht, htokens, hend]
      rfl
    simp only [Request.codec, Codec.record, Reader.record, hs] at hr
    rw [← Request.fields, hvalues] at hr
    exact Request.locale_of_build (build_of_finish hr) rfl

/-- The text of a request that has tokens only. -/
def Request.tokensText (d : Spread) (tokens : List Token) : String :=
  String.ofList ((Value.record [("tokens", (Codec.list Token.codec).value tokens)]).write d)

section
variable {tokens : List Token}

theorem Request.filling_tokens (h : ∀ t ∈ tokens, Codec.single.Restores t.confidence) :
    Filling Request.fields (.empty _) [("tokens", (Codec.list Token.codec).value tokens)]
      (.cons (some tokens) (.empty [String])) := by
  have hlist : (Codec.list Token.codec).Restores tokens :=
    Codec.restores_list fun t ht => Token.restores (h t ht)
  have hkey : Request.fields.meaning "tokens" (.empty _) =
      .value ((Codec.list Token.codec).reader.map fun ts => .cons (some ts) (.empty [String])) :=
    if_pos rfl
  refine .cons hkey (fun d w r hw hr => ?_) (.nil _)
  simp only [Reader.map, hlist.reads d hw hr]

theorem Request.skip_tokensText (h : ∀ t ∈ tokens, Codec.single.Restores t.confidence)
    (d : Spread) : ∃ s, skip (tokensText d tokens).toList = '{' :: s ∧
      Members Request.fields (.empty _) true s ["tokens"]
        (.cons (some tokens) (.empty [String])) [] := by
  obtain ⟨s, hs, hm⟩ := (filling_tokens h).members d []
  rw [List.append_nil] at hs
  refine ⟨s, ?_, hm⟩
  rw [tokensText, String.toList_ofList, hs]
  exact skip_cons (by decide)

theorem Request.unlocated_tokensText (h : ∀ t ∈ tokens, Codec.single.Restores t.confidence)
    (d : Spread) : Request.Unlocated (tokensText d tokens) := by
  obtain ⟨s, hs, hm⟩ := skip_tokensText h d
  exact .record hs hm (by decide)

/-- **Tokens without a locale are read as a request in the default one.** -/
theorem Request.decode_tokensText (h : ∀ t ∈ tokens, Codec.single.Restores t.confidence)
    (d : Spread) : Request.codec.decode (tokensText d tokens) = .ok ⟨tokens, defaultLocale⟩ := by
  obtain ⟨s, hs, hm⟩ := skip_tokensText h d
  have hread : Request.codec.reader.run (tokensText d tokens).toList =
      .ok (⟨tokens, defaultLocale⟩, []) := by
    simp only [Request.codec, Codec.record, Reader.record, hs]
    rw [← Request.fields, hm.readMembers_eq]
    rfl
  rw [Codec.decode, Json.read, readAll, hread]
  rfl

end

end SignGloss
