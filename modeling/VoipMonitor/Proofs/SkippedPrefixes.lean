import VoipMonitor.Model.CountryPrefixes

/-!
# Taking prefixes off a number

Each round of `skipPrefixes` takes the longest prefixes that it has not taken yet, so what was taken
and what is left are the number. With new rounds nothing is left that could be taken.
-/

namespace VoipMonitor.Country
open VoipMonitor.Library

section Spec
variable (o : SkipOptions) (number : Bytes) (list : List Bytes)

def Eligible (offset : Nat) (p : Bytes) : Prop :=
  p <+: number.drop offset ∧ o.lengthOk (numberLength number - offset) p.length = true

/-- An entry of the list, by its place, is a longest one of those that may be taken at a position
and were not used. -/
structure IsLongestAt (used : List Nat) (offset : Nat) (item : Nat × Bytes) : Prop where
  entry : list[item.1]? = some item.2
  unused : item.1 ∉ used
  ne_nil : item.2 ≠ []
  eligible : Eligible o number offset item.2
  longest : ∀ i p, list[i]? = some p → i ∉ used → Eligible o number offset p →
    p.length ≤ item.2.length

def textOf (items : List (Nat × Bytes)) : Bytes := (items.map Prod.snd).flatten

/-- What a round that begins at a position takes, one entry behind the other. -/
inductive Takes (offset : Nat) : List (Nat × Bytes) → Prop where
  | nil : Takes offset []
  | snoc {items : List (Nat × Bytes)} {item : Nat × Bytes} : Takes offset items →
      IsLongestAt o number list (items.map Prod.fst) (offset + (textOf items).length) item →
      Takes offset (items ++ [item])

/-- The round is over: with `prefixes_all` no entry is left that may be taken, without it there is
one item. -/
def RoundEnds (offset : Nat) (items : List (Nat × Bytes)) : Prop :=
  if o.prefixesAll then
    ∀ i p, list[i]? = some p → i ∉ items.map Prod.fst → p ≠ [] →
      ¬Eligible o number (offset + (textOf items).length) p
  else items.length = 1

inductive RoundsOf : List (List (Nat × Bytes)) → Prop where
  | nil : RoundsOf []
  | snoc {rounds : List (List (Nat × Bytes))} {items : List (Nat × Bytes)} : RoundsOf rounds →
      items ≠ [] → Takes o number list (textOf rounds.flatten).length items →
      RoundEnds o number list (textOf rounds.flatten).length items → RoundsOf (rounds ++ [items])

/-- The number falls into what was taken, a longest entry at each position, and what is left. -/
structure Decomposition (r : Skipped) : Prop where
  concat : number = r.skipPrefixes.flatten ++ r.numberWithoutPrefix
  rest_ne_nil : r.numberWithoutPrefix = [] → number = []
  rounds : ∃ rounds, RoundsOf o number list rounds ∧
    r.skipPrefixes = rounds.flatten.map Prod.snd ∧ (o.prefixesRecurse = false → rounds.length ≤ 1)
  nothingLeft : o.prefixesAll = true → o.prefixesRecurse = true → number.length < 2 ^ 32 →
    ∀ p ∈ list, p ≠ [] → p <+: r.numberWithoutPrefix → p ≠ r.numberWithoutPrefix →
      o.isInternationalPrefixes = true ∧ o.check.internationalMinLengthPrefixesStrict = true ∧
        o.check.internationalMinLength ≠ 0 ∧ (r.numberWithoutPrefix.length : Int) <
          (o.check.internationalMinLength + p.length) % 2 ^ 64

/-! ## The inner loop -/

structure TakeInv (offset : Nat) (before : List Bytes) (items : List (Nat × Bytes))
    (s : SkipState) : Prop where
  takes : Takes o number list offset items
  length_eq : s.skipPrefixLength = offset + (textOf items).length
  skip_eq : s.skipPrefixes = before ++ items.map Prod.snd
  prefixes_eq : s.prefixes = list.zipIdx.map (fun (p, i) =>
    ⟨.string p, decide (i ∈ items.map Prod.fst)⟩)
  use_eq : s.use = decide (items ≠ [])
  length_le : s.skipPrefixLength ≤ numberLength number

def NoneEligible (used : List Nat) (offset : Nat) : Prop :=
  ∀ i p, list[i]? = some p → i ∉ used → p ≠ [] → ¬Eligible o number offset p

end Spec

section Take
variable {o : SkipOptions} {number : Bytes} {list : List Bytes} {offset : Nat}
  {before : List Bytes} {items : List (Nat × Bytes)} {s : SkipState}

lemma textOf_snoc (items : List (Nat × Bytes)) (item : Nat × Bytes) :
    textOf (items ++ [item]) = textOf items ++ item.2 := by
  rw [textOf, textOf, List.map_append, List.flatten_append, List.map_singleton,
    List.flatten_singleton]

lemma Takes.drop_eq (h : Takes o number list offset items) :
    number.drop offset = textOf items ++ number.drop (offset + (textOf items).length) := by
  induction h with
  | nil => rfl
  | @snoc items item h hitem ih =>
    obtain ⟨rest, hrest⟩ := hitem.eligible.1
    have hdrop : number.drop (offset + (textOf items).length + item.2.length) = rest := by
      rw [← List.drop_drop, ← hrest, List.drop_left]
    rw [textOf_snoc, List.length_append, ← Nat.add_assoc, hdrop, List.append_assoc, hrest, ← ih]

lemma Takes.length_lt (h : Takes o number list offset items) (hne : items ≠ []) :
    offset + (textOf items).length < numberLength number := by
  cases h with
  | nil => exact absurd rfl hne
  | @snoc items item h hitem =>
    have hleft := hitem.eligible.2
    rw [SkipOptions.lengthOk, Bool.and_eq_true, decide_eq_true_iff] at hleft
    rw [textOf_snoc, List.length_append]
    have := hleft.1
    omega

lemma Takes.textOf_ne_nil (h : Takes o number list offset items) (hne : items ≠ []) :
    textOf items ≠ [] := by
  cases h with
  | nil => exact absurd rfl hne
  | snoc h hitem =>
    rw [textOf_snoc]
    exact List.append_ne_nil_of_right_ne_nil _ hitem.ne_nil

lemma TakeInv.mem_candidates (h : TakeInv o number list offset before items s) {i : Nat}
    {text : Bytes} : (i, text) ∈ candidates o number s ↔
      list[i]? = some text ∧ i ∉ items.map Prod.fst ∧ Eligible o number s.skipPrefixLength text := by
  rw [candidates, List.mem_filterMap, h.prefixes_eq]
  constructor
  · rintro ⟨⟨q, j⟩, hq, hcand⟩
    rw [List.mem_zipIdx_iff_getElem?, List.getElem?_map, List.getElem?_zipIdx] at hq
    dsimp only at hq hcand
    obtain ⟨p, hp, rfl⟩ : ∃ p, list[j]? = some p ∧
        (⟨.string p, decide (j ∈ items.map Prod.fst)⟩ : SPrefixPointer) = q := by
      cases hget : list[j]? with
      | none =>
        rw [hget] at hq
        cases hq
      | some p =>
        rw [hget, Option.map_some, Option.map_some, Nat.zero_add] at hq
        exact ⟨p, rfl, Option.some.inj hq⟩
    by_cases hused : j ∈ items.map Prod.fst
    · rw [if_pos (decide_eq_true hused)] at hcand
      cases hcand
    · rw [if_neg (by simpa using hused), PrefixPattern.matchText] at hcand
      by_cases hprefix : p <+: number.drop s.skipPrefixLength
      · rw [if_pos hprefix, Option.filter_some] at hcand
        split at hcand
        · rename_i hlength
          obtain ⟨rfl, rfl⟩ := Prod.mk.inj (Option.some.inj hcand)
          exact ⟨hp, hused, hprefix, hlength⟩
        · cases hcand
      · rw [if_neg hprefix] at hcand
        cases hcand
  · rintro ⟨hget, hused, hprefix, hlength⟩
    refine ⟨(⟨.string text, false⟩, i), ?_, ?_⟩
    · rw [List.mem_zipIdx_iff_getElem?, List.getElem?_map, List.getElem?_zipIdx]
      dsimp only
      rw [hget, Option.map_some, Option.map_some, Nat.zero_add, decide_eq_false hused]
    · dsimp only
      rw [if_neg Bool.false_ne_true, PrefixPattern.matchText, if_pos hprefix, Option.filter_some,
        if_pos hlength, Option.map_some]

lemma TakeInv.round_cases (h : TakeInv o number list offset before items s) :
    (takeRound o number s = .done s ∧
      NoneEligible o number list (items.map Prod.fst) s.skipPrefixLength) ∨
    ∃ item t, item.2 ≠ [] ∧ TakeInv o number list offset before (items ++ [item]) t ∧
      takeRound o number s = if o.prefixesAll then .next t else .done t := by
  rcases firstBest_cases (fun c : Nat × Bytes => c.2.length) (candidates o number s) none with
    ⟨hbest, hzero⟩ | ⟨front, ⟨i, text⟩, back, hcand, hbest, hpos, hfront, hback⟩
  · left
    refine ⟨by rw [takeRound, hbest], fun i p hget hused hne helig => hne ?_⟩
    have hlength := hzero (i, p) (h.mem_candidates.mpr ⟨hget, hused, helig⟩)
    exact List.eq_nil_of_length_eq_zero (Nat.le_zero.mp hlength)
  · right
    have hmem : (i, text) ∈ candidates o number s := by
      rw [hcand]
      exact List.mem_append_right _ List.mem_cons_self
    obtain ⟨hget, hused, helig⟩ := h.mem_candidates.mp hmem
    have hlongest : ∀ j p, list[j]? = some p → j ∉ items.map Prod.fst →
        Eligible o number s.skipPrefixLength p → p.length ≤ text.length := by
      intro j p hj hjused hjelig
      have hin := h.mem_candidates.mpr ⟨hj, hjused, hjelig⟩
      rw [hcand] at hin
      rcases List.mem_append.mp hin with hin | hin
      · exact (hfront _ hin).le
      · rcases List.mem_cons.mp hin with heq | hin
        · exact (congrArg (fun c : Nat × Bytes => c.2.length) heq).le
        · exact hback _ hin
    have hitem : IsLongestAt o number list (items.map Prod.fst) (offset + (textOf items).length)
        (i, text) := by
      rw [h.length_eq] at helig hlongest
      exact ⟨hget, hused, List.ne_nil_of_length_pos hpos, helig, hlongest⟩
    have htakes := h.takes.snoc hitem
    have hlength : s.skipPrefixLength + text.length =
        offset + (textOf (items ++ [(i, text)])).length := by
      rw [h.length_eq, textOf_snoc, List.length_append, Nat.add_assoc]
    refine ⟨(i, text), _, hitem.ne_nil, ⟨htakes, hlength, ?_, ?_, ?_, ?_⟩,
      by rw [takeRound, hbest]⟩
    · rw [h.skip_eq, List.map_append, List.append_assoc, List.map_singleton]
    · rw [h.prefixes_eq]
      apply List.ext_getElem?
      intro j
      rw [List.getElem?_modify, List.getElem?_map, List.getElem?_map, List.getElem?_zipIdx]
      cases hj : list[j]? with
      | none => rfl
      | some p =>
        simp only [Option.map_some, Nat.zero_add, List.map_append, List.map_singleton,
          List.mem_append, List.mem_singleton]
        by_cases hij : i = j
        · subst hij
          simp
        · simp [hij, Ne.symm hij]
    · exact (decide_eq_true (List.append_ne_nil_of_right_ne_nil _ (List.cons_ne_nil _ _))).symm
    · have hlt := htakes.length_lt (List.append_ne_nil_of_right_ne_nil _ (List.cons_ne_nil _ _))
      rw [← hlength] at hlt
      exact hlt.le

lemma TakeInv.ends (hstart : TakeInv o number list offset before [] s) {fuel : Nat}
    (hfuel : numberLength number < fuel) : ∃ t, runLoop (takeRound o number) fuel s = some t := by
  refine exists_runLoop_of_lt (I := fun u => ∃ items, TakeInv o number list offset before items u)
    (fun u => numberLength number - u.skipPrefixLength) ?_ ?_ ⟨[], hstart⟩ (by omega)
  · rintro u v ⟨items, hu⟩ hround
    rcases hu.round_cases with ⟨hdone, -⟩ | ⟨item, t, hne, ht, hnext⟩
    · rw [hdone] at hround
      cases hround
    · rw [hnext] at hround
      split at hround
      · obtain rfl := Outcome.next.inj hround
        refine ⟨⟨_, ht⟩, ?_⟩
        have hu_eq := hu.length_eq
        have ht_eq := ht.length_eq
        have ht_le := ht.length_le
        have hpos := List.length_pos_of_ne_nil hne
        rw [textOf_snoc, List.length_append] at ht_eq
        omega
      · cases hround
  · rintro u ⟨items, hu⟩ hround
    rcases hu.round_cases with ⟨hdone, -⟩ | ⟨item, t, -, -, hnext⟩
    · rw [hdone] at hround
      cases hround
    · rw [hnext] at hround
      split at hround <;> cases hround

lemma TakeInv.run (hstart : TakeInv o number list offset before [] s) {fuel : Nat}
    (hfuel : numberLength number < fuel) :
    ∃ items t, runLoop (takeRound o number) fuel s = some t ∧
      TakeInv o number list offset before items t ∧
      (items = [] → NoneEligible o number list [] offset) ∧
      (items ≠ [] → RoundEnds o number list offset items) := by
  obtain ⟨t, ht⟩ := hstart.ends hfuel
  -- without `prefixes_all` the loop ends behind its first round
  have hresult := runLoop_invariant
    (I := fun u => ∃ items, TakeInv o number list offset before items u ∧
      (o.prefixesAll = false → items = []))
    (Q := fun u => ∃ items, TakeInv o number list offset before items u ∧
      (items = [] → NoneEligible o number list [] offset) ∧
      (items ≠ [] → RoundEnds o number list offset items)) ?_ ?_ ⟨[], hstart, fun _ => rfl⟩ ht
  · obtain ⟨items, hinv, hnone, hround⟩ := hresult
    exact ⟨items, t, ht, hinv, hnone, hround⟩
  · rintro u v ⟨items, hu, -⟩ hround
    rcases hu.round_cases with ⟨hdone, -⟩ | ⟨item, w, -, hw, hnext⟩
    · rw [hdone] at hround
      cases hround
    · rw [hnext] at hround
      split at hround
      · rename_i hall
        obtain rfl := Outcome.next.inj hround
        exact ⟨_, hw, fun hone => absurd (hall.symm.trans hone) Bool.noConfusion⟩
      · cases hround
  · rintro u v ⟨items, hu, hone⟩ hround
    rcases hu.round_cases with ⟨hdone, hnone⟩ | ⟨item, w, -, hw, hnext⟩
    · rw [hdone] at hround
      obtain rfl := Outcome.done.inj hround
      rw [hu.length_eq] at hnone
      refine ⟨items, hu, fun hnil => ?_, fun hne => ?_⟩
      · rw [hnil] at hnone
        exact hnone
      · cases hall : o.prefixesAll with
        | false => exact absurd (hone hall) hne
        | true =>
          rw [RoundEnds, if_pos hall]
          exact hnone
    · rw [hnext] at hround
      split at hround
      · cases hround
      · rename_i hall
        obtain rfl := Outcome.done.inj hround
        rw [hone (Bool.eq_false_iff.mpr hall), List.nil_append] at hw
        refine ⟨[item], hw, fun hnil => absurd hnil (List.cons_ne_nil _ _), fun _ => ?_⟩
        rw [RoundEnds, if_neg hall, List.length_singleton]

end Take

/-! ## The outer loop -/

section Skip
variable (o : SkipOptions) (number : Bytes) (list : List Bytes)

structure SkipInv (rounds : List (List (Nat × Bytes))) (s : SkipState) : Prop where
  roundsOf : RoundsOf o number list rounds
  length_eq : s.skipPrefixLength = (textOf rounds.flatten).length
  skip_eq : s.skipPrefixes = rounds.flatten.map Prod.snd
  patterns : s.prefixes.map SPrefixPointer.pattern = list.map .string
  length_le : s.skipPrefixLength ≤ numberLength number

variable {o number list} {rounds : List (List (Nat × Bytes))} {s : SkipState}

lemma textOf_append (items more : List (Nat × Bytes)) :
    textOf (items ++ more) = textOf items ++ textOf more := by
  rw [textOf, textOf, textOf, List.map_append, List.flatten_append]

lemma RoundsOf.drop_eq (h : RoundsOf o number list rounds) :
    number = textOf rounds.flatten ++ number.drop (textOf rounds.flatten).length := by
  induction h with
  | nil => rfl
  | @snoc rounds items h _ htakes _ ih =>
    rw [List.flatten_append, List.flatten_singleton, textOf_append, List.length_append,
      List.append_assoc, ← htakes.drop_eq]
    exact ih

lemma SkipInv.start (h : SkipInv o number list rounds s) :
    TakeInv o number list (textOf rounds.flatten).length s.skipPrefixes []
      { s with prefixes := s.prefixes.map (fun p => { p with use := false }), use := false } where
  takes := .nil
  length_eq := h.length_eq
  skip_eq := (List.append_nil _).symm
  prefixes_eq := by
    have hmarks : s.prefixes.map (fun p => ({ p with use := false } : SPrefixPointer)) =
        (s.prefixes.map SPrefixPointer.pattern).map (fun p => ⟨p, false⟩) := by
      rw [List.map_map]
      rfl
    rw [hmarks, h.patterns, List.map_map]
    apply List.ext_getElem?
    intro i
    rw [List.getElem?_map, List.getElem?_map, List.getElem?_zipIdx]
    cases list[i]? <;> rfl
  use_eq := rfl
  length_le := h.length_le

lemma SkipInv.round_cases (h : SkipInv o number list rounds s) {fuel : Nat}
    (hfuel : numberLength number < fuel) :
    (∃ t, skipRound o number fuel s = .done t ∧ SkipInv o number list rounds t ∧
      NoneEligible o number list [] t.skipPrefixLength) ∨
    ∃ items t, items ≠ [] ∧ SkipInv o number list (rounds ++ [items]) t ∧
      s.skipPrefixLength < t.skipPrefixLength ∧
      skipRound o number fuel s = if o.prefixesRecurse then .next t else .done t := by
  obtain ⟨items, t, hrun, ht, hnone, hround⟩ := h.start.run hfuel
  have hpatterns : t.prefixes.map SPrefixPointer.pattern = list.map .string := by
    rw [ht.prefixes_eq, List.map_map]
    apply List.ext_getElem?
    intro i
    rw [List.getElem?_map, List.getElem?_map, List.getElem?_zipIdx]
    cases list[i]? <;> rfl
  by_cases hitems : items = []
  · subst hitems
    refine .inl ⟨t, ?_, ⟨h.roundsOf, ht.length_eq, ?_, hpatterns, ht.length_le⟩, ?_⟩
    · rw [skipRound, hrun]
      dsimp only
      rw [if_neg (fun huse => Bool.false_ne_true (ht.use_eq.symm.trans huse.1))]
    · rw [ht.skip_eq, h.skip_eq, List.map_nil, List.append_nil]
    · rw [ht.length_eq]
      exact hnone rfl
  · refine .inr ⟨items, t, hitems, ⟨h.roundsOf.snoc hitems ht.takes (hround hitems), ?_, ?_,
      hpatterns, ht.length_le⟩, ?_, ?_⟩
    · rw [ht.length_eq, List.flatten_append, List.flatten_singleton, textOf_append,
        List.length_append]
    · rw [ht.skip_eq, h.skip_eq, List.flatten_append, List.flatten_singleton, List.map_append]
    · rw [ht.length_eq, h.length_eq]
      exact Nat.lt_add_of_pos_right (List.length_pos_of_ne_nil (ht.takes.textOf_ne_nil hitems))
    · have huse : t.use = true := ht.use_eq.trans (decide_eq_true hitems)
      rw [skipRound, hrun]
      dsimp only
      cases hrecurse : o.prefixesRecurse with
      | false => rw [if_neg (fun hand => Bool.false_ne_true hand.2), if_neg Bool.false_ne_true]
      | true => rw [if_pos ⟨huse, rfl⟩, if_pos rfl]

lemma SkipInv.exists_run (hstart : SkipInv o number list [] s) {fuel : Nat}
    (hfuel : numberLength number < fuel) : ∃ t, runLoop (skipRound o number fuel) fuel s = some t := by
  refine exists_runLoop_of_lt (I := fun u => ∃ rounds, SkipInv o number list rounds u)
    (fun u => numberLength number - u.skipPrefixLength) ?_ ?_ ⟨[], hstart⟩ (by omega)
  · rintro u v ⟨rounds, hu⟩ hround
    rcases hu.round_cases hfuel with ⟨t, hdone, -⟩ | ⟨items, t, -, ht, hlt, hnext⟩
    · rw [hdone] at hround
      cases hround
    · rw [hnext] at hround
      split at hround
      · obtain rfl := Outcome.next.inj hround
        have hle := ht.length_le
        exact ⟨⟨_, ht⟩, by omega⟩
      · cases hround
  · rintro u ⟨rounds, hu⟩ hround
    rcases hu.round_cases hfuel with ⟨t, hdone, -⟩ | ⟨items, t, -, -, -, hnext⟩
    · rw [hdone] at hround
      cases hround
    · rw [hnext] at hround
      split at hround <;> cases hround

lemma SkipInv.run (hstart : SkipInv o number list [] s) {fuel : Nat}
    (hfuel : numberLength number < fuel) {t : SkipState}
    (hrun : runLoop (skipRound o number fuel) fuel s = some t) :
    ∃ rounds, SkipInv o number list rounds t ∧
      (o.prefixesRecurse = false → rounds.length ≤ 1) ∧
      (o.prefixesRecurse = true → NoneEligible o number list [] t.skipPrefixLength) := by
  refine runLoop_invariant
    (I := fun u => ∃ rounds, SkipInv o number list rounds u ∧
      (o.prefixesRecurse = false → rounds = []))
    (Q := fun u => ∃ rounds, SkipInv o number list rounds u ∧
      (o.prefixesRecurse = false → rounds.length ≤ 1) ∧
      (o.prefixesRecurse = true → NoneEligible o number list [] u.skipPrefixLength))
    ?_ ?_ ⟨[], hstart, fun _ => rfl⟩ hrun
  · rintro u v ⟨rounds, hu, -⟩ hround
    rcases hu.round_cases hfuel with ⟨w, hdone, -⟩ | ⟨items, w, -, hw, -, hnext⟩
    · rw [hdone] at hround
      cases hround
    · rw [hnext] at hround
      split at hround
      · rename_i hrecurse
        obtain rfl := Outcome.next.inj hround
        exact ⟨_, hw, fun hone => absurd (hrecurse.symm.trans hone) Bool.noConfusion⟩
      · cases hround
  · rintro u v ⟨rounds, hu, hone⟩ hround
    rcases hu.round_cases hfuel with ⟨w, hdone, hw, hnone⟩ | ⟨items, w, -, hw, -, hnext⟩
    · rw [hdone] at hround
      obtain rfl := Outcome.done.inj hround
      refine ⟨rounds, hw, fun hrecurse => ?_, fun _ => hnone⟩
      rw [hone hrecurse]
      exact Nat.zero_le 1
    · rw [hnext] at hround
      split at hround
      · cases hround
      · rename_i hrecurse
        obtain rfl := Outcome.done.inj hround
        refine ⟨_, hw, fun hfalse => ?_, fun htrue => absurd htrue hrecurse⟩
        rw [hone hfalse, List.nil_append, List.length_singleton]

end Skip

/-! ## The whole -/

section Whole
variable (o : SkipOptions) (number : Bytes) (list : List Bytes)

lemma RoundsOf.length_lt {o : SkipOptions} {number : Bytes} {list : List Bytes}
    {rounds : List (List (Nat × Bytes))} (h : RoundsOf o number list rounds) (hne : rounds ≠ []) :
    (textOf rounds.flatten).length < numberLength number := by
  cases h with
  | nil => exact absurd rfl hne
  | snoc h hitems htakes _ =>
    rw [List.flatten_append, List.flatten_singleton, textOf_append, List.length_append]
    exact htakes.length_lt hitems

lemma tooLong_of_not_eligible {offset : Nat} {p : Bytes} (hlt : number.length < 2 ^ 32)
    (h : ¬Eligible o number offset p) (hpre : p <+: number.drop offset)
    (hne : p ≠ number.drop offset) :
    o.isInternationalPrefixes = true ∧ o.check.internationalMinLengthPrefixesStrict = true ∧
      o.check.internationalMinLength ≠ 0 ∧ ((number.drop offset).length : Int) <
        (o.check.internationalMinLength + p.length) % 2 ^ 64 := by
  have hlonger : p.length < (number.drop offset).length :=
    hpre.length_le.lt_of_ne (fun heq => hne (hpre.eq_of_length heq))
  have hleft : numberLength number - offset = (number.drop offset).length := by
    rw [numberLength, Nat.mod_eq_of_lt hlt, List.length_drop]
  have hlength : o.lengthOk (number.drop offset).length p.length = false := by
    rw [← hleft]
    exact Bool.eq_false_iff.mpr (fun hok => h ⟨hpre, hok⟩)
  rw [SkipOptions.lengthOk, decide_eq_true hlonger, Bool.true_and] at hlength
  simp only [Bool.or_eq_false_iff, Bool.not_eq_false', decide_eq_false_iff_not, not_le] at hlength
  exact ⟨hlength.1.1.1, hlength.1.1.2, hlength.1.2, hlength.2⟩

/-- `skipPrefixes` ends for each number and each list of strings, with what was taken and what is
left. -/
theorem skipPrefixes_decomposes (fuel : Nat) (hfuel : number.length < fuel) :
    ∃ r, skipPrefixes o number fuel (list.map .string) = some r ∧
      Decomposition o number list r := by
  have hnumber : numberLength number < fuel := (Nat.mod_le _ _).trans_lt hfuel
  have hstart : SkipInv o number list []
      ⟨0, [], (list.map PrefixPattern.string).map (fun p => ⟨p, false⟩), false⟩ :=
    ⟨.nil, rfl, rfl, by rw [List.map_map]; exact List.map_id _, Nat.zero_le _⟩
  obtain ⟨t, hrun⟩ := hstart.exists_run hnumber
  obtain ⟨rounds, hinv, hone, hnone⟩ := hstart.run hnumber hrun
  have htaken := hinv.length_eq
  refine ⟨_, by rw [skipPrefixes, hrun, Option.map_some], ?_, ?_, ?_, ?_⟩
  · rw [hinv.skip_eq, htaken]
    exact hinv.roundsOf.drop_eq
  · intro hnil
    rw [List.drop_eq_nil_iff, htaken] at hnil
    by_cases hrounds : rounds = []
    · rw [hrounds] at hnil
      exact List.eq_nil_of_length_eq_zero (Nat.le_zero.mp hnil)
    · have hlt := hinv.roundsOf.length_lt hrounds
      have := Nat.mod_le number.length (2 ^ 32)
      rw [numberLength] at hlt
      omega
  · exact ⟨rounds, hinv.roundsOf, hinv.skip_eq, hone⟩
  · intro _ hrecurse hlt p hp hne hpre hproper
    obtain ⟨i, hi⟩ := List.getElem?_of_mem hp
    exact tooLong_of_not_eligible o number hlt
      (hnone hrecurse i p hi List.not_mem_nil hne) hpre hproper

theorem skipPrefixes_decomposes_repeated :
    ∃ r, skipPrefixes ⟨⟨0, false⟩, true, true, false⟩ [48, 48, 49] 4
        ([[48], [48, 48]].map .string) = some r ∧
      Decomposition ⟨⟨0, false⟩, true, true, false⟩ [48, 48, 49] [[48], [48, 48]] r :=
  skipPrefixes_decomposes _ _ _ _ (by decide)

/-- With a strict minimal length of 3, the prefix 0 of 012 stays; and of 0012, with the flags of
`skipInternationalPrefixes`, the prefix 0 is taken, though 00 is longer. -/
theorem skipPrefixes_keeps_prefix :
    ((skipPrefixes ⟨⟨3, true⟩, true, true, true⟩ [48, 49, 50] 4 ([[48]].map .string)).map
        Skipped.numberWithoutPrefix = some [48, 49, 50] ∧
      [48] <+: ([48, 49, 50] : Bytes) ∧ ([48] : Bytes) ≠ [48, 49, 50]) ∧
    (skipPrefixes ⟨⟨3, true⟩, true, false, true⟩ [48, 48, 49, 50] 5
        ([[48], [48, 48]].map .string)).map Skipped.skipPrefixes = some [[48]] ∧
      [48, 48] <+: ([48, 48, 49, 50] : Bytes) := by
  decide +kernel

end Whole

end VoipMonitor.Country
