import VoipMonitor.Model.CountryPrefixes

/-!
# The search for the longest prefix

The loop of `_getCountry` ends, and it stands at the longest prefix of the number if the table has
one. Several records may have it: the search comes to the first of them when it searched this
prefix, and to the last one when it went back.
-/

namespace VoipMonitor.Country
open VoipMonitor.Library

variable {IP : Type} {data : List (CountryPrefixRec IP)} {n : Bytes}

structure Digits (data : List (CountryPrefixRec IP)) (n : Bytes) : Prop where
  sorted : SortedBy (fun r : CountryPrefixRec IP => r.key) data
  ne_nil : ∀ r ∈ data, r.number ≠ []
  digits : ∀ r ∈ data, IsDigits r.number
  length_le : ∀ r ∈ data, r.number.length ≤ 18
  number_ne_nil : n ≠ []
  number_digits : IsDigits n

/-! ## Rounds -/

def Ends (data : List (CountryPrefixRec IP)) (n : Bytes) (it reduk : Nat) (res : Option Nat) :
    Prop := ∃ k, ∀ fuel, findLoop data n (fuel + k) it reduk = some res

lemma strncmpEq_iff {a b : Bytes} : strncmpEq a b a.length = true ↔ a <+: b := by
  rw [strncmpEq, beq_iff_eq, List.take_length]
  exact List.prefix_iff_eq_take.symm

lemma toInt_toInt8 {c : UInt8} (h : c.toNat ≤ 57) : c.toInt8.toInt = c.toNat := by
  have hnat : c.toBitVec.toNat = c.toNat := rfl
  have hint : c.toInt8.toInt = c.toBitVec.toInt := rfl
  rw [hint, BitVec.toInt_eq_toNat_of_lt (by omega), hnat]

lemma charLt_iff {c d : UInt8} (hc : isDigit c = true) (hd : isDigit d = true) :
    charLt c d = true ↔ c.toNat < d.toNat := by
  have hc' := isDigit_bounds hc
  have hd' := isDigit_bounds hd
  rw [charLt, decide_eq_true_iff, Int8.lt_iff_toInt_lt, toInt_toInt8 hc'.2, toInt_toInt8 hd'.2]
  exact Int.ofNat_lt

section Rounds
variable {it reduk : Nat} {r : CountryPrefixRec IP} {res : Option Nat} (hr : data[it]? = some r)
include hr

lemma ends_found (hmatch : r.number <+: n) : Ends data n it reduk (some it) := by
  refine ⟨1, fun fuel => ?_⟩
  rw [findLoop, hr, Option.bind_some, if_pos (strncmpEq_iff.mpr hmatch)]

variable (hno : ¬r.number <+: n)
include hno

lemma ends_smaller (hlt : charLt (r.number.headD 0) (n.headD 0) = true) :
    Ends data n it reduk none := by
  refine ⟨1, fun fuel => ?_⟩
  rw [findLoop, hr, Option.bind_some, if_neg (by rw [strncmpEq_iff]; exact hno), if_pos hlt]

variable (hhead : ¬charLt (r.number.headD 0) (n.headD 0) = true)
include hhead

lemma findLoop_jump (hguard : reduk = 0 ∨ reduk > 1) (hless : less n r = true) (fuel : Nat) :
    findLoop data n (fuel + 1) it reduk = findLoop data n fuel
      (landing data (n.take (if reduk ≠ 0 then reduk - 1 else r.number.length - 1)))
      (if reduk ≠ 0 then reduk - 1 else r.number.length - 1) := by
  rw [findLoop, hr, Option.bind_some, if_neg (by rw [strncmpEq_iff]; exact hno), if_neg hhead,
    if_pos ⟨hguard, hless⟩]

lemma ends_jump (hguard : reduk = 0 ∨ reduk > 1) (hless : less n r = true)
    (h : Ends data n (landing data (n.take (if reduk ≠ 0 then reduk - 1 else r.number.length - 1)))
      (if reduk ≠ 0 then reduk - 1 else r.number.length - 1) res) : Ends data n it reduk res := by
  obtain ⟨k, hk⟩ := h
  refine ⟨k + 1, fun fuel => ?_⟩
  rw [← Nat.add_assoc, findLoop_jump hr hno hhead hguard hless]
  exact hk fuel

variable (hback : ¬((reduk = 0 ∨ reduk > 1) ∧ less n r = true))
include hback

lemma findLoop_back (hit : it ≠ 0) (fuel : Nat) :
    findLoop data n (fuel + 1) it reduk = findLoop data n fuel (it - 1) reduk := by
  rw [findLoop, hr, Option.bind_some, if_neg (by rw [strncmpEq_iff]; exact hno), if_neg hhead,
    if_neg hback, if_neg hit]

lemma ends_back (hit : it ≠ 0) (h : Ends data n (it - 1) reduk res) : Ends data n it reduk res := by
  obtain ⟨k, hk⟩ := h
  refine ⟨k + 1, fun fuel => ?_⟩
  rw [← Nat.add_assoc, findLoop_back hr hno hhead hback hit]
  exact hk fuel

lemma ends_first (hit : it = 0) : Ends data n it reduk none := by
  refine ⟨1, fun fuel => ?_⟩
  rw [findLoop, hr, Option.bind_some, if_neg (by rw [strncmpEq_iff]; exact hno), if_neg hhead,
    if_neg hback, if_pos hit]

end Rounds

/-! ## Where a search lands -/

section Landing
variable (h : SortedBy (fun r : CountryPrefixRec IP => r.key) data)
include h

lemma landing_spec (number : Bytes) : ∃ before after, data = before ++ after ∧
    (∀ r ∈ before, r.key < codes number) ∧ (∀ r ∈ after, codes number ≤ r.key) ∧
      landing data number = if after = [] then before.length - 1 else before.length := by
  obtain ⟨before, after, hdata, hbound, hbefore, hafter⟩ := h.lowerBound (codes number)
    (fun r => decide_eq_true_iff (p := r.key < codes number))
  refine ⟨before, after, hdata, hbefore, hafter, ?_⟩
  have hlen : data.length = before.length + after.length := by rw [hdata, List.length_append]
  rw [landing, hbound]
  by_cases hnil : after = []
  · rw [hnil, List.length_nil] at hlen
    rw [if_pos hnil, if_pos (by omega)]
  · have hpos := List.length_pos_iff.mpr hnil
    rw [if_neg hnil, if_neg (by omega)]

lemma landing_lt (hne : data ≠ []) (number : Bytes) : landing data number < data.length := by
  obtain ⟨before, after, rfl, -, -, hland⟩ := landing_spec h number
  have hpos := List.length_pos_iff.mpr hne
  rw [List.length_append] at hpos ⊢
  rw [hland]
  split
  · omega
  · rename_i hnil
    have := List.length_pos_iff.mpr hnil
    omega

lemma landing_mono {a b : Bytes} (hab : codes a ≤ codes b) : landing data a ≤ landing data b := by
  obtain ⟨before, after, hdata, hbefore, hafter, hland⟩ := landing_spec h a
  obtain ⟨before', after', hdata', hbefore', hafter', hland'⟩ := landing_spec h b
  have hle : before.length ≤ before'.length := by
    by_contra hlt
    -- the first record that is not less than `b` is less than `a`
    have hget : data[before'.length]? = before[before'.length]? := by
      rw [hdata, List.getElem?_append_left (by omega)]
    rw [hdata', List.getElem?_append_right le_rfl, Nat.sub_self] at hget
    obtain ⟨r, hr⟩ : ∃ r, before[before'.length]? = some r :=
      ⟨_, List.getElem?_eq_getElem (by omega)⟩
    rw [hr] at hget
    have hmem : r ∈ before := List.mem_of_getElem? hr
    have hmem' : r ∈ after' := List.mem_of_getElem? hget
    exact absurd (lt_of_lt_of_le (hbefore r hmem) hab) (not_lt.mpr (hafter' r hmem'))
  have hlen : before.length + after.length = before'.length + after'.length := by
    rw [← List.length_append, ← List.length_append, ← hdata, ← hdata']
  rw [hland, hland']
  by_cases hnil : after = []
  · rw [hnil, List.length_nil] at hlen
    have hnil' : after' = [] := List.length_eq_zero_iff.mp (by omega)
    rw [if_pos hnil, if_pos hnil']
    omega
  · have hpos := List.length_pos_iff.mpr hnil
    rw [if_neg hnil]
    split
    · rename_i hnil'
      rw [hnil', List.length_nil] at hlen
      omega
    · exact hle

end Landing

/-! ## No prefix -/

section NoPrefix
variable (h : Digits data n)
include h

lemma Digits.headD_digit {r : CountryPrefixRec IP} (hr : r ∈ data) :
    isDigit (r.number.headD 0) = true ∧ isDigit (n.headD 0) = true := by
  obtain ⟨c, number, hnumber⟩ := List.exists_cons_of_ne_nil (h.ne_nil r hr)
  obtain ⟨d, n', hn⟩ := List.exists_cons_of_ne_nil h.number_ne_nil
  have hdigits := h.digits r hr
  have hdigits' := h.number_digits
  rw [hnumber] at hdigits ⊢
  rw [hn] at hdigits' ⊢
  exact ⟨hdigits c List.mem_cons_self, hdigits' d List.mem_cons_self⟩

lemma Digits.less_iff {r : CountryPrefixRec IP} (hr : r ∈ data) :
    less n r = true ↔ decimal r.number < decimal (n.take r.number.length) := by
  have hlen := h.length_le r hr
  have htake : n.take (min n.length r.number.length) = n.take r.number.length := by
    rw [← List.take_take]
    exact List.take_of_length_le (List.length_take_le' _ _)
  have hdigits : IsDigits (n.take r.number.length) := h.number_digits.of_isPrefix (List.take_prefix _ _)
  rw [less, decide_eq_true_iff, htake, (h.digits r hr).atol_eq hlen,
    hdigits.atol_eq (le_trans (List.length_take_le _ _) hlen)]
  exact Int.ofNat_lt

lemma Digits.two_le_length {r : CountryPrefixRec IP} (hr : r ∈ data)
    (hhead : ¬charLt (r.number.headD 0) (n.headD 0) = true) (hless : less n r = true) :
    2 ≤ r.number.length := by
  obtain ⟨hdigit, hdigit'⟩ := h.headD_digit hr
  rw [charLt_iff hdigit hdigit'] at hhead
  rw [h.less_iff hr] at hless
  by_contra hlt
  have hpos := List.length_pos_iff.mpr (h.ne_nil r hr)
  have hone : r.number.length = 1 := by omega
  obtain ⟨c, hc⟩ := List.length_eq_one_iff.mp hone
  obtain ⟨d, n', hn⟩ := List.exists_cons_of_ne_nil h.number_ne_nil
  rw [hc, hn] at hless hhead
  simp [decimal] at hless hhead
  omega

variable (hne : data ≠ []) (hno : ∀ r ∈ data, ¬r.number <+: n)
include hne hno

lemma Digits.ends_level {j it : Nat} (hj : 1 ≤ j) (hit : it < data.length) :
    Ends data n it j none := by
  induction j generalizing it with
  | zero => omega
  | succ j ihj =>
    have hround : ∀ i r, data[i]? = some r → (i ≠ 0 → Ends data n (i - 1) (j + 1) none) →
        Ends data n i (j + 1) none := by
      intro i r hr hback
      have hmem : r ∈ data := List.mem_of_getElem? hr
      by_cases hhead : charLt (r.number.headD 0) (n.headD 0) = true
      · exact ends_smaller hr (hno r hmem) hhead
      by_cases hguard : (j + 1 = 0 ∨ j + 1 > 1) ∧ less n r = true
      · refine ends_jump hr (hno r hmem) hhead hguard.1 hguard.2 ?_
        exact ihj (by omega) (landing_lt h.sorted hne _)
      · by_cases hi : i = 0
        · exact ends_first hr (hno r hmem) hhead hguard hi
        · exact ends_back hr (hno r hmem) hhead hguard hi (hback hi)
    induction it with
    | zero => exact hround 0 _ (List.getElem?_eq_getElem hit) (fun h0 => absurd rfl h0)
    | succ it ihit =>
      exact hround (it + 1) _ (List.getElem?_eq_getElem hit) (fun _ => ihit (by omega))

lemma Digits.ends_none {it : Nat} (hit : it < data.length) : Ends data n it 0 none := by
  have hround : ∀ i r, data[i]? = some r → (i ≠ 0 → Ends data n (i - 1) 0 none) →
      Ends data n i 0 none := by
    intro i r hr hback
    have hmem : r ∈ data := List.mem_of_getElem? hr
    by_cases hhead : charLt (r.number.headD 0) (n.headD 0) = true
    · exact ends_smaller hr (hno r hmem) hhead
    by_cases hless : less n r = true
    · have htwo := h.two_le_length hmem hhead hless
      refine ends_jump hr (hno r hmem) hhead (.inl rfl) hless ?_
      rw [if_neg (fun h0 => h0 rfl)]
      exact h.ends_level hne hno (by omega) (landing_lt h.sorted hne _)
    · by_cases hi : i = 0
      · exact ends_first hr (hno r hmem) hhead (fun hguard => hless hguard.2) hi
      · exact ends_back hr (hno r hmem) hhead (fun hguard => hless hguard.2) hi (hback hi)
  induction it with
  | zero => exact hround 0 _ (List.getElem?_eq_getElem hit) (fun h0 => absurd rfl h0)
  | succ it ih => exact hround (it + 1) _ (List.getElem?_eq_getElem hit) (fun _ => ih (by omega))

end NoPrefix

/-! ## The longest prefix -/

structure Longest (data : List (CountryPrefixRec IP)) (n p : Bytes)
    (before group after : List (CountryPrefixRec IP)) : Prop where
  data_eq : data = before ++ group ++ after
  group_ne_nil : group ≠ []
  isPrefix : p <+: n
  before_lt : ∀ r ∈ before, r.key < codes p
  group_eq : ∀ r ∈ group, r.number = p
  lt_after : ∀ r ∈ after, codes p < r.key
  longest : ∀ r ∈ data, r.number <+: n → r.number.length ≤ p.length

/-- The records up to a place at which the loop searches a shorter number. -/
def turns (data : List (CountryPrefixRec IP)) (n p : Bytes) (it : Nat) :
    List (CountryPrefixRec IP) :=
  (data.take (it + 1)).filter (fun r => codes p < r.key && less n r)

section Group
variable {p : Bytes} {before group after : List (CountryPrefixRec IP)} (h : Digits data n)
  (hp : Longest data n p before group after)
include hp

lemma Longest.lengths : data.length = before.length + group.length + after.length ∧
    0 < group.length := by
  refine ⟨?_, List.length_pos_iff.mpr hp.group_ne_nil⟩
  rw [hp.data_eq, List.length_append, List.length_append]

lemma Longest.get_after {i : Nat} {r : CountryPrefixRec IP} (hr : data[i]? = some r)
    (hi : before.length + group.length ≤ i) : r ∈ after := by
  rw [hp.data_eq, List.getElem?_append_right (by rw [List.length_append]; exact hi)] at hr
  exact List.mem_of_getElem? hr

lemma Longest.get_group {i : Nat} (hi : i < group.length) :
    ∃ r ∈ group, data[before.length + i]? = some r := by
  refine ⟨group[i], List.getElem_mem hi, ?_⟩
  rw [hp.data_eq, List.append_assoc, List.getElem?_append_right (Nat.le_add_right _ _),
    Nat.add_sub_cancel_left, List.getElem?_append_left hi, List.getElem?_eq_getElem hi]

lemma Longest.not_prefix {r : CountryPrefixRec IP} (hr : r ∈ after) : ¬r.number <+: n := by
  intro hmatch
  have hmem : r ∈ data := by
    rw [hp.data_eq]
    exact List.mem_append_right _ hr
  have hlen := hp.longest r hmem hmatch
  have hsub : r.number <+: p := List.prefix_of_prefix_length_le hmatch hp.isPrefix hlen
  exact absurd (hp.lt_after r hr) (not_lt.mpr (le_of_isPrefix (codes_isPrefix_iff.mpr hsub)))

include h

lemma Longest.ne_nil : p ≠ [] := by
  obtain ⟨r, hr⟩ := List.exists_mem_of_ne_nil group hp.group_ne_nil
  rw [← hp.group_eq r hr]
  refine h.ne_nil r ?_
  rw [hp.data_eq]
  exact List.mem_append_left _ (List.mem_append_right _ hr)

lemma Longest.head_after {r : CountryPrefixRec IP} (hr : r ∈ after) :
    ¬charLt (r.number.headD 0) (n.headD 0) = true := by
  have hmem : r ∈ data := by
    rw [hp.data_eq]
    exact List.mem_append_right _ hr
  obtain ⟨hdigit, hdigit'⟩ := h.headD_digit hmem
  rw [charLt_iff hdigit hdigit', not_lt]
  obtain ⟨c, p', hpc⟩ := List.exists_cons_of_ne_nil (hp.ne_nil h)
  obtain ⟨d, number, hnumber⟩ := List.exists_cons_of_ne_nil (h.ne_nil r hmem)
  obtain ⟨t, ht⟩ := hp.isPrefix
  have hlt := hp.lt_after r hr
  rw [CountryPrefixRec.key, hpc, hnumber] at hlt
  rw [← ht, hpc, hnumber]
  exact head_le hlt.le

lemma Longest.length_lt {r : CountryPrefixRec IP} (hr : r ∈ after) (hless : less n r = true) :
    p.length < r.number.length := by
  have hmem : r ∈ data := by
    rw [hp.data_eq]
    exact List.mem_append_right _ hr
  rw [h.less_iff hmem] at hless
  by_contra hle
  have hple := hp.isPrefix.length_le
  have hsub : n.take r.number.length <+: p :=
    List.prefix_of_prefix_length_le (List.take_prefix _ _) hp.isPrefix
      (by rw [List.length_take]; omega)
  have hlt : codes (n.take r.number.length) < r.key :=
    lt_of_le_of_lt (le_of_isPrefix (codes_isPrefix_iff.mpr hsub)) (hp.lt_after r hr)
  have hdecimal := (h.number_digits.of_isPrefix (List.take_prefix r.number.length n)).decimal_le
    (h.digits r hmem) (by rw [List.length_take]; omega) hlt.le
  omega

omit h in
lemma Longest.landing_eq : landing data p = before.length := by
  obtain ⟨hlen, hpos⟩ := hp.lengths
  have hbound : lowerBound (fun r : CountryPrefixRec IP => decide (r.key < codes p)) data =
      before.length := by
    rw [hp.data_eq, List.append_assoc]
    refine lowerBound_append (fun r hr => decide_eq_true (hp.before_lt r hr)) ?_
    intro r hr
    rw [decide_eq_false_iff_not, not_lt]
    rcases List.mem_append.mp hr with hr | hr
    · rw [CountryPrefixRec.key, hp.group_eq r hr]
    · exact (hp.lt_after r hr).le
  rw [landing, hbound]
  exact if_neg (by omega)

lemma Longest.le_landing {number : Bytes} (hlt : codes p < codes number) :
    before.length + group.length - 1 ≤ landing data number := by
  obtain ⟨hlen, hpos⟩ := hp.lengths
  obtain ⟨before', after', hdata', -, hafter', hland⟩ := landing_spec h.sorted number
  have hlen' : data.length = before'.length + after'.length := by
    rw [hdata', List.length_append]
  have hle : before.length + group.length ≤ before'.length := by
    by_contra hless
    obtain ⟨r, hr, hget⟩ := hp.get_group (i := group.length - 1) (by omega)
    rw [hdata', List.getElem?_append_right (by omega)] at hget
    have hge := hafter' r (List.mem_of_getElem? hget)
    rw [CountryPrefixRec.key, hp.group_eq r hr] at hge
    exact absurd hlt (not_lt.mpr hge)
  rw [hland]
  split <;> omega

omit h in
lemma Longest.ends_group {i reduk : Nat} (hi : i < group.length) :
    Ends data n (before.length + i) reduk (some (before.length + i)) := by
  obtain ⟨r, hr, hget⟩ := hp.get_group hi
  refine ends_found hget ?_
  rw [hp.group_eq r hr]
  exact hp.isPrefix

omit h in
lemma Longest.turns_group : turns data n p (before.length + group.length - 1) = [] := by
  obtain ⟨hlen, hpos⟩ := hp.lengths
  have htake : data.take (before.length + group.length - 1 + 1) = before ++ group := by
    rw [Nat.sub_add_cancel (by omega), hp.data_eq]
    exact List.take_left' (by rw [List.length_append])
  rw [turns, htake, List.filter_eq_nil_iff]
  intro r hr
  have hle : ¬codes p < r.key := by
    rcases List.mem_append.mp hr with hr | hr
    · exact not_lt.mpr (hp.before_lt r hr).le
    · rw [CountryPrefixRec.key, hp.group_eq r hr]
      exact lt_irrefl _
  simp [hle]

omit h hp in
lemma turns_succ {it : Nat} {r : CountryPrefixRec IP} (hr : data[it + 1]? = some r) :
    turns data n p (it + 1) =
      turns data n p it ++ if codes p < r.key && less n r then [r] else [] := by
  rw [turns, List.take_add_one, hr, List.filter_append, ← turns, Option.toList_some,
    List.filter_cons, List.filter_nil]

lemma Longest.descend {reduk it : Nat} (hreduk : reduk = 0 ∨ reduk > 1)
    (hle : before.length + group.length - 1 ≤ it) (hit : it < data.length) :
    ((turns data n p it).getLast? = none →
        Ends data n it reduk (some (before.length + group.length - 1))) ∧
      ∀ r ∈ (turns data n p it).getLast?, p.length < r.number.length ∧ ∀ res,
        Ends data n (landing data (n.take (if reduk ≠ 0 then reduk - 1 else r.number.length - 1)))
          (if reduk ≠ 0 then reduk - 1 else r.number.length - 1) res → Ends data n it reduk res := by
  obtain ⟨hlen, hpos⟩ := hp.lengths
  induction it, hle using Nat.le_induction with
  | base =>
    rw [hp.turns_group]
    refine ⟨fun _ => ?_, fun r hr => by cases hr⟩
    have hends : Ends data n (before.length + (group.length - 1)) reduk _ :=
      hp.ends_group (by omega)
    rw [← Nat.add_sub_assoc hpos] at hends
    exact hends
  | succ it hle ih =>
    obtain ⟨r, hr⟩ : ∃ r, data[it + 1]? = some r := ⟨_, List.getElem?_eq_getElem hit⟩
    have hmem := hp.get_after hr (by omega)
    have hno := hp.not_prefix hmem
    have hhead := hp.head_after h hmem
    have hkey : decide (codes p < r.key) = true := decide_eq_true (hp.lt_after r hmem)
    rw [turns_succ hr, hkey, Bool.true_and]
    by_cases hless : less n r = true
    · rw [if_pos hless, List.getLast?_concat]
      refine ⟨nofun, ?_⟩
      intro r' hr'
      obtain rfl := Option.mem_some_iff.mp hr'
      exact ⟨hp.length_lt h hmem hless, fun res => ends_jump hr hno hhead hreduk hless⟩
    · have hback : ¬((reduk = 0 ∨ reduk > 1) ∧ less n r = true) := fun hguard => hless hguard.2
      obtain ⟨ihnone, ihsome⟩ := ih (by omega)
      rw [if_neg hless, List.append_nil]
      refine ⟨fun hnone => ?_, fun r' hr' => ⟨(ihsome r' hr').1, fun res hres => ?_⟩⟩
      · exact ends_back hr hno hhead hback (by omega) (ihnone hnone)
      · exact ends_back hr hno hhead hback (by omega) ((ihsome r' hr').2 res hres)

omit h hp in
lemma turns_eq_nil_of_le {it it' : Nat} (hle : it ≤ it') (hnil : turns data n p it' = []) :
    turns data n p it = [] := by
  have hsub : (turns data n p it).Sublist (turns data n p it') :=
    (List.take_sublist_take_left (by omega)).filter _
  rw [hnil] at hsub
  exact List.sublist_nil.mp hsub

omit h in
lemma Longest.lt_take (hpn : p ≠ n) {j : Nat} (hj : p.length < j) :
    codes p < codes (n.take j) := by
  have hsub : p <+: n.take j := by
    rw [List.prefix_take_iff]
    exact ⟨hp.isPrefix, hj.le⟩
  refine lt_of_le_of_ne (le_of_isPrefix (codes_isPrefix_iff.mpr hsub)) ?_
  intro heq
  have heq' := codes_injective heq
  have hlen := congrArg List.length heq'
  rw [List.length_take] at hlen
  exact hpn (hp.isPrefix.eq_of_length (by omega))

lemma Longest.ends_level (hpn : p ≠ n) {j : Nat} (hj : p.length + 1 ≤ j) :
    Ends data n (landing data (n.take j)) j
      (some (if turns data n p (landing data (n.take (p.length + 1))) = [] then
        before.length + group.length - 1 else before.length)) := by
  obtain ⟨hlen, hpos⟩ := hp.lengths
  have hppos := List.length_pos_iff.mpr (hp.ne_nil h)
  have hne : data ≠ [] := List.ne_nil_of_length_pos (by omega)
  induction j, hj using Nat.le_induction with
  | base =>
    obtain ⟨hnone, hsome⟩ := hp.descend h
      (show p.length + 1 = 0 ∨ p.length + 1 > 1 by omega) (hp.le_landing h (hp.lt_take hpn (Nat.lt_succ_self _))) (landing_lt h.sorted hne _)
    cases hlast : (turns data n p (landing data (n.take (p.length + 1)))).getLast? with
    | none =>
      rw [if_pos (List.getLast?_eq_none_iff.mp hlast)]
      exact hnone hlast
    | some r =>
      rw [if_neg (fun hnil => by rw [hnil] at hlast; cases hlast)]
      refine (hsome r hlast).2 _ ?_
      have htake : n.take p.length = p := (List.prefix_iff_eq_take.mp hp.isPrefix).symm
      rw [if_pos (by omega), Nat.add_sub_cancel, htake, hp.landing_eq]
      exact hp.ends_group hpos
  | succ j hj ih =>
    obtain ⟨hnone, hsome⟩ := hp.descend h (show j + 1 = 0 ∨ j + 1 > 1 by omega)
      (hp.le_landing h (hp.lt_take hpn (show p.length < j + 1 by omega)))
      (landing_lt h.sorted hne _)
    cases hlast : (turns data n p (landing data (n.take (j + 1)))).getLast? with
    | none =>
      have hmono : landing data (n.take (p.length + 1)) ≤ landing data (n.take (j + 1)) :=
        landing_mono h.sorted (le_of_isPrefix (codes_isPrefix_iff.mpr
          (List.take_prefix_take_left (by omega))))
      rw [if_pos (turns_eq_nil_of_le hmono (List.getLast?_eq_none_iff.mp hlast))]
      exact hnone hlast
    | some r =>
      refine (hsome r hlast).2 _ ?_
      rw [if_pos (by omega), Nat.add_sub_cancel]
      exact ih

/-- The search comes to the last record with the prefix: the number is longer, and on its way back
the loop does not search a shorter number, or it finds the way back from one that is longer than
the prefix. -/
def FromBehind (data : List (CountryPrefixRec IP)) (n p : Bytes) : Prop :=
  p ≠ n ∧ ∀ r ∈ (turns data n p (landing data n)).getLast?,
    p.length + 2 ≤ r.number.length ∧
      turns data n p (landing data (n.take (p.length + 1))) = []

instance (data : List (CountryPrefixRec IP)) (n p : Bytes) : Decidable (FromBehind data n p) :=
  inferInstanceAs (Decidable (_ ∧ ∀ r ∈ (turns data n p (landing data n)).getLast?, _))

lemma Longest.ends :
    Ends data n (landing data n) 0
      (some (if FromBehind data n p then before.length + group.length - 1 else before.length)) := by
  obtain ⟨hlen, hpos⟩ := hp.lengths
  have hne : data ≠ [] := List.ne_nil_of_length_pos (by omega)
  have htake : n.take p.length = p := (List.prefix_iff_eq_take.mp hp.isPrefix).symm
  by_cases hpn : p = n
  · rw [if_neg (fun hbehind => hbehind.1 hpn)]
    have hland : landing data n = before.length := by
      rw [← hpn]
      exact hp.landing_eq
    rw [hland]
    exact hp.ends_group hpos
  have hnp : n.length ≠ p.length := fun heq => hpn (hp.isPrefix.eq_of_length heq.symm)
  have hple := hp.isPrefix.length_le
  have hlt := hp.lt_take hpn (show p.length < n.length by omega)
  rw [List.take_length] at hlt
  obtain ⟨hnone, hsome⟩ := hp.descend h (show 0 = 0 ∨ 0 > 1 from .inl rfl) (hp.le_landing h hlt)
    (landing_lt h.sorted hne _)
  cases hlast : (turns data n p (landing data n)).getLast? with
  | none =>
    rw [if_pos ⟨hpn, fun r hr => by rw [hlast] at hr; cases hr⟩]
    exact hnone hlast
  | some r =>
    obtain ⟨hlonger, hends⟩ := hsome r hlast
    rw [if_neg (fun h0 => h0 rfl)] at hends
    have hiff : FromBehind data n p ↔ p.length + 2 ≤ r.number.length ∧
        turns data n p (landing data (n.take (p.length + 1))) = [] := by
      rw [FromBehind, hlast]
      simp [hpn]
    refine hends _ ?_
    by_cases htwo : p.length + 2 ≤ r.number.length
    · have hlevel := hp.ends_level h hpn (show p.length + 1 ≤ r.number.length - 1 by omega)
      by_cases hnil : turns data n p (landing data (n.take (p.length + 1))) = []
      · rw [if_pos hnil] at hlevel
        rw [if_pos (hiff.mpr ⟨htwo, hnil⟩)]
        exact hlevel
      · rw [if_neg hnil] at hlevel
        rw [if_neg (fun hbehind => hnil (hiff.mp hbehind).2)]
        exact hlevel
    · rw [if_neg (fun hbehind => htwo (hiff.mp hbehind).1),
        show r.number.length - 1 = p.length by omega, htake, hp.landing_eq]
      exact hp.ends_group hpos

end Group

end VoipMonitor.Country
