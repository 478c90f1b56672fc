import VoipMonitor.Proofs.CountryPrefixSearch

/-!
# Where the search by number ends

The loop of `_getCountry` reads the numbers of the records only. It goes back from where a number
stands in the table to the nearest record at which it stops; there it has found a prefix, or gives
up, or searches a shorter number. No digits are assumed, so the search may also never end.
-/

namespace VoipMonitor.Country
open VoipMonitor.Library

/-- The first place whose number is not less than `q`, or the last place. -/
def place (numbers : List Bytes) (q : Bytes) : Nat :=
  min (numbers.countP fun b => codes b < codes q) (numbers.length - 1)

def lessNumber (n b : Bytes) : Bool := atol b < atol (n.take (min n.length b.length))

/-- The way back ends at this number of the table. A smaller one ends it only with `shorter`, when a
shorter number may be searched. -/
def stops (n : Bytes) (shorter : Bool) (b : Bytes) : Bool :=
  strncmpEq b n b.length || charLt (b.headD 0) (n.headD 0) || shorter && lessNumber n b

/-- The nearest such place from `i` back. -/
def nearest (numbers : List Bytes) (n : Bytes) (shorter : Bool) (i : Nat) : Option Nat :=
  (List.range (i + 1)).reverse.find? fun j => (numbers[j]?).any (stops n shorter)

/-- Where the search ends that has shortened the number to `k` characters. -/
def arrivalFrom (numbers : List Bytes) (n : Bytes) : Nat → Option Nat
  | 0 => none
  | k + 1 =>
    (nearest numbers n (k ≠ 0) (place numbers (n.take (k + 1)))).bind fun j =>
      (numbers[j]?).bind fun b =>
        if strncmpEq b n b.length then some j
        else if charLt (b.headD 0) (n.headD 0) then none
        else arrivalFrom numbers n k

/-- Where the search from the place `i` ends. From a record of one character the empty number is
searched; none when this happens twice. -/
def arrivalAt (numbers : List Bytes) (n : Bytes) : Nat → Nat → Option (Option Nat)
  | 0, _ => none
  | t + 1, i =>
    match nearest numbers n true i with
    | none => some none
    | some j =>
      match numbers[j]? with
      | none => some none
      | some b =>
        if strncmpEq b n b.length then some (some j)
        else if charLt (b.headD 0) (n.headD 0) then some none
        else if b.length - 1 = 0 then arrivalAt numbers n t (place numbers [])
        else some (arrivalFrom numbers n (b.length - 1))

def arrival (numbers : List Bytes) (n : Bytes) : Option (Option Nat) :=
  arrivalAt numbers n 2 (place numbers n)

variable {IP : Type} {data : List (CountryPrefixRec IP)} {n : Bytes} {it j reduk : Nat}
  {res : Option Nat} {shorter : Bool}

abbrev numbersOf (data : List (CountryPrefixRec IP)) : List Bytes :=
  data.map CountryPrefixRec.number

lemma landing_eq (hsorted : SortedBy (fun r : CountryPrefixRec IP => r.key) data) (q : Bytes) :
    landing data q = place (numbersOf data) q := by
  have hbound := hsorted.lowerBound_eq_countP (codes q)
    fun r => decide_eq_true_iff (p := r.key < codes q)
  have hle := List.countP_le_length (p := fun r : CountryPrefixRec IP => decide (r.key < codes q))
    (l := data)
  have hcount : (numbersOf data).countP (fun b => decide (codes b < codes q)) =
      data.countP fun r => decide (r.key < codes q) := List.countP_map
  rw [landing, place, hbound, hcount, List.length_map]
  split <;> omega

lemma nearest_succ (numbers : List Bytes) (i : Nat) : nearest numbers n shorter (i + 1) =
    if (numbers[i + 1]?).any (stops n shorter) then some (i + 1)
    else nearest numbers n shorter i := by
  rw [nearest, List.range_succ, List.reverse_append, List.reverse_singleton, List.singleton_append,
    List.find?_cons]
  cases (numbers[i + 1]?).any (stops n shorter) <;> rfl

lemma nearest_zero (numbers : List Bytes) : nearest numbers n shorter 0 =
    if (numbers[0]?).any (stops n shorter) then some 0 else none := by
  rw [nearest, List.range_one, List.reverse_singleton, List.find?_cons]
  cases (numbers[0]?).any (stops n shorter) <;> rfl

lemma nearest_le {numbers : List Bytes} (h : nearest numbers n shorter it = some j) : j ≤ it := by
  have hmem := List.mem_of_find?_eq_some h
  rw [List.mem_reverse, List.mem_range] at hmem
  omega

lemma getElem?_numbersOf {r : CountryPrefixRec IP} (hr : data[it]? = some r) :
    (numbersOf data)[it]? = some r.number := by
  rw [List.getElem?_map, hr, Option.map_some]

lemma nearest_some (h : nearest (numbersOf data) n shorter it = some j) :
    ∃ r, data[j]? = some r ∧ (numbersOf data)[j]? = some r.number ∧
      stops n shorter r.number = true := by
  have hany := List.find?_some h
  obtain ⟨b, hb, hstop⟩ := (Option.any_eq_true _ _).mp hany
  have hr := hb
  rw [List.getElem?_map, Option.map_eq_some_iff] at hr
  obtain ⟨r, hr, rfl⟩ := hr
  exact ⟨r, hr, hb, hstop⟩

lemma stops_shorter {r : CountryPrefixRec IP} (hstop : stops n shorter r.number = true)
    (hmatch : ¬strncmpEq r.number n r.number.length = true)
    (hhead : ¬charLt (r.number.headD 0) (n.headD 0) = true) :
    shorter = true ∧ less n r = true := by
  rw [stops, Bool.or_eq_true, Bool.or_eq_true, Bool.and_eq_true] at hstop
  exact (hstop.resolve_left fun h => h.elim hmatch hhead)

lemma not_stops (reduk : Nat) {r : CountryPrefixRec IP}
    (hstop : stops n (decide (reduk = 0 ∨ reduk > 1)) r.number = false) :
    ¬r.number <+: n ∧ ¬charLt (r.number.headD 0) (n.headD 0) = true ∧
      ¬((reduk = 0 ∨ reduk > 1) ∧ less n r = true) := by
  rw [stops, Bool.or_eq_false_iff, Bool.or_eq_false_iff, Bool.and_eq_false_iff,
    decide_eq_false_iff_not] at hstop
  obtain ⟨⟨hmatch, hhead⟩, hless⟩ := hstop
  refine ⟨?_, Bool.not_eq_true _ ▸ hhead, ?_⟩
  · rw [← strncmpEq_iff, hmatch]
    exact Bool.false_ne_true
  · rintro ⟨hguard, hless'⟩
    exact hless.elim (fun hno => hno hguard) fun hno => Bool.false_ne_true (hno.symm.trans hless')

lemma ends_nearest (n : Bytes) (reduk : Nat) (hit : it < data.length) :
    (nearest (numbersOf data) n (decide (reduk = 0 ∨ reduk > 1)) it = none →
        Ends data n it reduk none) ∧
      ∀ j, nearest (numbersOf data) n (decide (reduk = 0 ∨ reduk > 1)) it = some j →
        ∀ res, Ends data n j reduk res → Ends data n it reduk res := by
  induction it with
  | zero =>
    obtain ⟨r, hr⟩ : ∃ r, data[0]? = some r := ⟨_, List.getElem?_eq_getElem hit⟩
    rw [nearest_zero, getElem?_numbersOf hr, Option.any_some]
    cases hstop : stops n (decide (reduk = 0 ∨ reduk > 1)) r.number with
    | true => exact ⟨nofun, fun j hj res hres => Option.some.inj hj ▸ hres⟩
    | false =>
      obtain ⟨hno, hhead, hback⟩ := not_stops reduk hstop
      exact ⟨fun _ => ends_first hr hno hhead hback rfl, nofun⟩
  | succ it ih =>
    obtain ⟨r, hr⟩ : ∃ r, data[it + 1]? = some r := ⟨_, List.getElem?_eq_getElem hit⟩
    rw [nearest_succ, getElem?_numbersOf hr, Option.any_some]
    cases hstop : stops n (decide (reduk = 0 ∨ reduk > 1)) r.number with
    | true => exact ⟨nofun, fun j hj res hres => Option.some.inj hj ▸ hres⟩
    | false =>
      obtain ⟨hno, hhead, hback⟩ := not_stops reduk hstop
      obtain ⟨ihnone, ihsome⟩ := ih (by omega)
      exact ⟨fun hnone => ends_back hr hno hhead hback (by omega) (ihnone hnone),
        fun j hj res hres => ends_back hr hno hhead hback (by omega) (ihsome j hj res hres)⟩

variable (hsorted : SortedBy (fun r : CountryPrefixRec IP => r.key) data) (hne : data ≠ [])
include hsorted hne

lemma ends_arrivalFrom {k : Nat} (hk : 1 ≤ k) :
    Ends data n (landing data (n.take k)) k (arrivalFrom (numbersOf data) n k) := by
  induction k with
  | zero => omega
  | succ k ih =>
    have hguard : decide (k ≠ 0) = decide (k + 1 = 0 ∨ k + 1 > 1) := by
      rw [decide_eq_decide]
      omega
    obtain ⟨hnone, hsome⟩ := ends_nearest n (k + 1)
      (landing_lt hsorted hne (n.take (k + 1)))
    rw [← hguard, landing_eq hsorted] at hnone hsome
    rw [arrivalFrom, landing_eq hsorted]
    cases hnearest : nearest (numbersOf data) n (decide (k ≠ 0))
        (place (numbersOf data) (n.take (k + 1))) with
    | none => exact hnone hnearest
    | some j =>
      obtain ⟨r, hr, hb, hstop⟩ := nearest_some hnearest
      refine hsome j hnearest _ ?_
      rw [Option.bind_some, hb, Option.bind_some]
      split
      · rename_i hmatch
        exact ends_found hr (strncmpEq_iff.mp hmatch)
      · rename_i hmatch
        split
        · rename_i hhead
          exact ends_smaller hr (mt strncmpEq_iff.mpr hmatch) hhead
        · rename_i hhead
          obtain ⟨hshorter, hless⟩ := stops_shorter hstop hmatch hhead
          have hk0 : k ≠ 0 := of_decide_eq_true hshorter
          refine ends_jump hr (mt strncmpEq_iff.mpr hmatch) hhead (.inr (by omega)) hless ?_
          rw [if_pos (by omega), Nat.add_sub_cancel]
          exact ih (by omega)

lemma ends_arrivalAt {t : Nat} (hit : it < data.length)
    (harrival : arrivalAt (numbersOf data) n t it = some res) : Ends data n it 0 res := by
  induction t generalizing it with
  | zero => cases harrival
  | succ t ih =>
    obtain ⟨hnone, hsome⟩ := ends_nearest n 0 hit
    have hguard : decide (0 = 0 ∨ 0 > 1) = true := by decide
    rw [hguard] at hnone hsome
    rw [arrivalAt] at harrival
    cases hnearest : nearest (numbersOf data) n true it with
    | none =>
      rw [hnearest] at harrival
      exact Option.some.inj harrival ▸ hnone hnearest
    | some j =>
      obtain ⟨r, hr, hb, hstop⟩ := nearest_some hnearest
      refine hsome j hnearest _ ?_
      rw [hnearest] at harrival
      simp only [hb] at harrival
      split at harrival
      · rename_i hmatch
        exact Option.some.inj harrival ▸ ends_found hr (strncmpEq_iff.mp hmatch)
      · rename_i hmatch
        split at harrival
        · rename_i hhead
          exact Option.some.inj harrival ▸ ends_smaller hr (mt strncmpEq_iff.mpr hmatch) hhead
        · rename_i hhead
          have hless := (stops_shorter hstop hmatch hhead).2
          refine ends_jump hr (mt strncmpEq_iff.mpr hmatch) hhead (.inl rfl) hless ?_
          rw [if_neg (not_not.mpr rfl)]
          split at harrival
          · rename_i hlength
            rw [← landing_eq hsorted] at harrival
            rw [hlength, List.take_zero]
            exact ih (landing_lt hsorted hne []) harrival
          · rename_i hlength
            exact Option.some.inj harrival ▸ ends_arrivalFrom hsorted hne (by omega)

lemma ends_arrival (harrival : arrival (numbersOf data) n = some res) :
    Ends data n (landing data n) 0 res := by
  rw [arrival, ← landing_eq hsorted] at harrival
  exact ends_arrivalAt hsorted hne (landing_lt hsorted hne n) harrival

/-! ## A search that does not end -/

structure Turns (n : Bytes) (r : CountryPrefixRec IP) : Prop where
  noMatch : ¬r.number <+: n
  head : ¬charLt (r.number.headD 0) (n.headD 0) = true
  less : less n r = true
  length : r.number.length - 1 = 0

omit hsorted hne in
lemma Turns.findLoop_eq {r : CountryPrefixRec IP} (hr : data[it]? = some r) (hturns : Turns n r)
    (fuel : Nat) : findLoop data n (fuel + 1) it 0 = findLoop data n fuel (landing data []) 0 := by
  rw [findLoop_jump hr hturns.noMatch hturns.head (.inl rfl) hturns.less, if_neg (not_not.mpr rfl),
    hturns.length, List.take_zero]

omit hsorted hne in
lemma arrivalAt_none {t : Nat} (hnone : arrivalAt (numbersOf data) n (t + 1) it = none) :
    ∃ j r, nearest (numbersOf data) n true it = some j ∧ data[j]? = some r ∧ Turns n r ∧
      arrivalAt (numbersOf data) n t (place (numbersOf data) []) = none := by
  rw [arrivalAt] at hnone
  cases hnearest : nearest (numbersOf data) n true it with
  | none =>
    rw [hnearest] at hnone
    cases hnone
  | some j =>
    obtain ⟨r, hr, hb, hstop⟩ := nearest_some hnearest
    rw [hnearest] at hnone
    simp only [hb] at hnone
    split at hnone
    · cases hnone
    · rename_i hmatch
      split at hnone
      · cases hnone
      · rename_i hhead
        split at hnone
        · rename_i hlength
          exact ⟨j, r, rfl, hr, ⟨mt strncmpEq_iff.mpr hmatch, hhead,
            (stops_shorter hstop hmatch hhead).2, hlength⟩, hnone⟩
        · cases hnone

omit hsorted hne in
lemma findLoop_nearest (hnearest : nearest (numbersOf data) n true it = some j) (fuel : Nat)
    (hloop : findLoop data n fuel it 0 = some res) :
    ∃ fuel, findLoop data n fuel j 0 = some res := by
  induction it generalizing fuel with
  | zero =>
    obtain rfl := Nat.le_zero.mp (nearest_le hnearest)
    exact ⟨fuel, hloop⟩
  | succ it ih =>
    cases fuel with
    | zero => cases hloop
    | succ fuel =>
      cases hr : data[it + 1]? with
      | none =>
        rw [findLoop, hr] at hloop
        cases hloop
      | some r =>
        rw [nearest_succ, getElem?_numbersOf hr, Option.any_some] at hnearest
        cases hstop : stops n true r.number with
        | true =>
          rw [hstop, if_pos rfl] at hnearest
          exact ⟨fuel + 1, Option.some.inj hnearest ▸ hloop⟩
        | false =>
          obtain ⟨hno, hhead, hback⟩ := not_stops 0 hstop
          rw [hstop, if_neg Bool.false_ne_true] at hnearest
          rw [findLoop_back hr hno hhead hback (Nat.succ_ne_zero it)] at hloop
          exact ih hnearest fuel hloop

omit hne in
lemma findLoop_of_arrival_none (hnone : arrival (numbersOf data) n = none) (fuel : Nat) :
    findLoop data n fuel (landing data n) 0 = none := by
  have hfirst : place (numbersOf data) [] = 0 := by
    have hcount : (numbersOf data).countP (fun b => decide (codes b < codes [])) = 0 :=
      List.countP_eq_zero.mpr fun b _ hlt => List.not_lt_nil _ (of_decide_eq_true hlt)
    rw [place, hcount, Nat.zero_min]
  rw [arrival, ← landing_eq hsorted] at hnone
  obtain ⟨j, r, hnearest, hr, hturns, hnone'⟩ := arrivalAt_none hnone
  rw [hfirst] at hnone'
  obtain ⟨j', r', hnearest', hr', hturns', -⟩ := arrivalAt_none hnone'
  obtain rfl := Nat.le_zero.mp (nearest_le hnearest')
  -- the empty number is searched again and again
  have hloop : ∀ fuel, findLoop data n fuel 0 0 = none := by
    intro fuel
    induction fuel with
    | zero => rfl
    | succ fuel ih => rw [hturns'.findLoop_eq hr', landing_eq hsorted, hfirst, ih]
  cases hres : findLoop data n fuel (landing data n) 0 with
  | none => rfl
  | some res =>
    obtain ⟨fuel', hfuel'⟩ := findLoop_nearest hnearest fuel hres
    cases fuel' with
    | zero => cases hfuel'
    | succ fuel' =>
      rw [hturns.findLoop_eq hr, landing_eq hsorted, hfirst, hloop] at hfuel'
      cases hfuel'

theorem arrival_eq (hends : Ends data n (landing data n) 0 res) :
    arrival (numbersOf data) n = some res := by
  obtain ⟨k, hk⟩ := hends
  cases harrival : arrival (numbersOf data) n with
  | none =>
    have hnone := findLoop_of_arrival_none hsorted harrival (0 + k)
    rw [hk] at hnone
    cases hnone
  | some res' =>
    obtain ⟨k', hk'⟩ := ends_arrival hsorted hne harrival
    have hsame := hk k'
    rw [Nat.add_comm, hk'] at hsame
    exact hsame

omit hsorted in
/-- For digits the search finds the longest prefix, the last record with it if it comes from behind
and else the first. -/
theorem Longest.arrival_eq {p : Bytes} {before group after : List (CountryPrefixRec IP)}
    (hp : Longest data n p before group after) (h : Digits data n) :
    arrival (numbersOf data) n = some
      (some (if FromBehind data n p then before.length + group.length - 1 else before.length)) :=
  Country.arrival_eq h.sorted hne (hp.ends h)

end VoipMonitor.Country
