import Mathlib.Data.List.Nodup
import VoipMonitor.Proofs.CountryArrival

/-!
# Records for other callers

The search by number does not look at the filters, so a record whose filter does not have the
address may be found where without it another one is, and it ends the collection of the other
countries. The answer does not depend on such records exactly when both searches find the same.
-/

namespace VoipMonitor.Country
open VoipMonitor.Library

variable {IP : Type}

abbrev isOwn (ip : IP) (r : CountryPrefixRec IP) : Bool := r.accepts (some ip)

def reduced (ip : IP) (data : List (CountryPrefixRec IP)) : List (CountryPrefixRec IP) :=
  data.filter (isOwn ip)

def byFilter (ip : IP) (r : CountryPrefixRec IP) : Bool :=
  r.number = [] && r.ipFilter.isSome && isOwn ip r

/-- The record at the place is the first one that has only a filter with the address, and the record
in front of it is not an own one. -/
def isFirstByFilter (ip : IP) (data : List (CountryPrefixRec IP)) (i : Nat) : Bool :=
  (data[i]?).any (byFilter ip) && (data.take i).all (fun x => !byFilter ip x) &&
    (data.take i).getLast?.all fun x => !isOwn ip x

/-- The place of the own record that the search by number finds, if the search ends. A record that
is found without a number too does not count. -/
def outcome (ip : IP) (data : List (CountryPrefixRec IP)) (n : Bytes) : Option (Option Nat) :=
  (arrival (numbersOf data) n).map fun found =>
    found.filter fun i => (data[i]?).any (isOwn ip) && !isFirstByFilter ip data i

/-- The records for other callers do not change what is found, and none of them stands between the
record that is found and an own one with its number. -/
structure Undisturbed (ip : IP) (data : List (CountryPrefixRec IP)) (n : Bytes) : Prop where
  same : outcome ip (reduced ip data) n =
    (outcome ip data n).map (Option.map fun i => (data.take i).countP (isOwn ip))
  unbroken : ∀ before r after, data = before ++ r :: after →
    outcome ip data n = some (some before.length) → ∀ front x back, before = front ++ x :: back →
      x.number = r.number → isOwn ip x = true → ∀ y ∈ back, isOwn ip y = true

structure SameLookup (l l' : Lookup) : Prop where
  country : l.country = l'.country
  countryPrefix : l.countryPrefix = l'.countryPrefix
  countries : ∀ c, c ∈ l.countries ↔ c ∈ l'.countries

/-- `_getCountry` returns the answer, with enough rounds. -/
def Returns (c : CountryPrefixes IP) (n : Bytes) (ip : IP) (l : Lookup) : Prop :=
  ∃ k, ∀ fuel, getCountry (fuel + k) c n (some ip) = some l

/-- `_getCountry` gives the same answer from both tables, or none from both. -/
structure SameAnswer (c c' : CountryPrefixes IP) (n : Bytes) (ip : IP) : Prop where
  forth : ∀ l, Returns c n ip l → ∃ l', Returns c' n ip l' ∧ SameLookup l l'
  back : ∀ l', Returns c' n ip l' → ∃ l, Returns c n ip l ∧ SameLookup l l'

def withCodes (code : Nat → Bytes) (data : List (CountryPrefixRec IP)) :
    List (CountryPrefixRec IP) :=
  data.mapIdx fun i r => { r with countryCode := code i }

variable {ip : IP} {data base before after : List (CountryPrefixRec IP)} {n : Bytes} {found : Option Nat}
  {r x : CountryPrefixRec IP} {i j k : Nat} {l l' : Lookup}

/-! ## The answer of a table -/

def pass (data : List (CountryPrefixRec IP)) (ip : IP) (found : Option Nat) : Option Lookup :=
  (found.bind fun it => (data[it]?).map fun r => (it, r)).bind fun (it, r) =>
    let rslt := if isOwn ip r then r.countryCode else []
    if rslt = [] then none
    else some ⟨rslt, rslt :: otherCountries r.number (some ip) (data.take it).reverse, r.number⟩

def answer (data : List (CountryPrefixRec IP)) (ip : IP) (found : Option Nat) : Option Lookup :=
  (pass data ip found).or (countryByIp data (some ip))

def BaseReturns (base : List (CountryPrefixRec IP)) (n : Bytes) (ip : IP) (l : Lookup) : Prop :=
  ∃ k, ∀ fuel, (getCountryIn (fuel + k) base n (some ip)).map (·.getD ⟨[], [], []⟩) = some l

lemma getCountryIn_eq (fuel : Nat) (hne : data ≠ []) : getCountryIn fuel data n (some ip) =
    (findLoop data n fuel (landing data n) 0).map (pass data ip) := if_neg hne

section Sorted
variable (hsorted : SortedBy (fun r : CountryPrefixRec IP => r.key) data)
include hsorted

lemma getCountryIn_arrival (ip : IP) (harrival : arrival (numbersOf data) n = some found) :
    ∃ k, ∀ fuel, getCountryIn (fuel + k) data n (some ip) = some (pass data ip found) := by
  by_cases hne : data = []
  · subst hne
    have hnone : arrival (numbersOf ([] : List (CountryPrefixRec IP))) n = some none := rfl
    obtain rfl : none = found := Option.some.inj (hnone.symm.trans harrival)
    exact ⟨0, fun fuel => rfl⟩
  · obtain ⟨k, hk⟩ := ends_arrival hsorted hne harrival
    refine ⟨k, fun fuel => ?_⟩
    rw [getCountryIn_eq _ hne, hk, Option.map_some]

lemma getCountryIn_arrival_none (harrival : arrival (numbersOf data) n = none) (fuel : Nat) :
    getCountryIn fuel data n (some ip) = none := by
  have hne : data ≠ [] := by
    rintro rfl
    cases harrival
  rw [getCountryIn_eq _ hne, findLoop_of_arrival_none hsorted harrival, Option.map_none]

omit hsorted in
lemma getCountry_eq {fuel : Nat}
    (hpass : getCountryIn fuel data n (some ip) = some (pass data ip found)) :
    getCountry fuel ⟨data, base⟩ n (some ip) = match answer data ip found with
      | some l => some l
      | none => (getCountryIn fuel base n (some ip)).map (·.getD ⟨[], [], []⟩) := by
  rw [getCountry, hpass, Option.bind_some, answer]
  cases pass data ip found with
  | some l => rfl
  | none =>
    cases countryByIp data (some ip) <;> rfl

lemma getCountry_returns_iff (harrival : arrival (numbersOf data) n = some found) :
    Returns ⟨data, base⟩ n ip l ↔ match answer data ip found with
      | some l' => l = l'
      | none => BaseReturns base n ip l := by
  obtain ⟨k, hk⟩ := getCountryIn_arrival hsorted ip harrival
  have hget : ∀ fuel, getCountry (fuel + k) ⟨data, base⟩ n (some ip) = _ :=
    fun fuel => getCountry_eq (hk fuel)
  cases hanswer : answer data ip found with
  | some l' =>
    simp only [hanswer] at hget ⊢
    constructor
    · rintro ⟨k', hk'⟩
      have hsame := hk' k
      rw [Nat.add_comm, hget] at hsame
      exact (Option.some.inj hsame).symm
    · rintro rfl
      exact ⟨k, hget⟩
  | none =>
    simp only [hanswer] at hget ⊢
    constructor
    · rintro ⟨k', hk'⟩
      refine ⟨k' + k, fun fuel => ?_⟩
      rw [← Nat.add_assoc, ← hget, Nat.add_right_comm]
      exact hk' (fuel + k)
    · rintro ⟨k', hk'⟩
      refine ⟨k' + k, fun fuel => ?_⟩
      rw [← Nat.add_assoc, hget, Nat.add_right_comm]
      exact hk' (fuel + k)

lemma not_returns (harrival : arrival (numbersOf data) n = none) : ¬Returns ⟨data, base⟩ n ip l := by
  rintro ⟨k, hk⟩
  have hfuel := hk 0
  rw [getCountry, getCountryIn_arrival_none hsorted harrival] at hfuel
  cases hfuel

end Sorted

/-! ## The other countries -/

lemma mem_otherCountries {p c : Bytes} (l : List (CountryPrefixRec IP)) :
    c ∈ otherCountries p (some ip) l ↔ ∃ back x front, l = back ++ x :: front ∧
      x.countryCode = c ∧ x.number = p ∧ isOwn ip x = true ∧
        ∀ y ∈ back, y.number = p ∧ isOwn ip y = true := by
  induction l with
  | nil =>
    refine iff_of_false List.not_mem_nil ?_
    rintro ⟨back, x, front, hl, -⟩
    exact List.append_ne_nil_of_right_ne_nil _ (List.cons_ne_nil _ _) hl.symm
  | cons r l ih =>
    rw [otherCountries]
    split
    · rename_i hr
      rw [List.mem_cons, ih]
      constructor
      · rintro (rfl | ⟨back, x, front, rfl, hcode, hnumber, hown, hback⟩)
        · exact ⟨[], r, l, rfl, rfl, hr.1, hr.2, nofun⟩
        · refine ⟨r :: back, x, front, rfl, hcode, hnumber, hown, ?_⟩
          exact List.forall_mem_cons.mpr ⟨hr, hback⟩
      · rintro ⟨back, x, front, hl, hcode, hnumber, hown, hback⟩
        cases back with
        | nil =>
          rw [List.nil_append] at hl
          exact Or.inl ((List.cons.inj hl).1 ▸ hcode.symm)
        | cons y back =>
          exact Or.inr ⟨back, x, front, (List.cons.inj hl).2, hcode, hnumber, hown,
            fun z hz => hback z (List.mem_cons_of_mem _ hz)⟩
    · rename_i hr
      refine iff_of_false List.not_mem_nil ?_
      rintro ⟨back, x, front, hl, -, hnumber, hown, hback⟩
      cases back with
      | nil => exact hr ((List.cons.inj hl).1 ▸ ⟨hnumber, hown⟩)
      | cons y back => exact hr ((List.cons.inj hl).1 ▸ hback y List.mem_cons_self)

def lookupOf (ip : IP) (before : List (CountryPrefixRec IP)) (r : CountryPrefixRec IP) : Lookup :=
  ⟨r.countryCode, r.countryCode :: otherCountries r.number (some ip) before.reverse, r.number⟩

lemma number_eq_of_sorted {front back : List (CountryPrefixRec IP)}
    (hsorted : SortedBy (fun r : CountryPrefixRec IP => r.key) ((front ++ x :: back) ++ r :: after))
    (hnumber : x.number = r.number) {y : CountryPrefixRec IP} (hy : y ∈ back) :
    y.number = r.number := by
  obtain ⟨hbefore, -, hcross⟩ := List.pairwise_append.mp hsorted
  have hxy : codes x.number ≤ codes y.number :=
    (List.pairwise_cons.mp (List.pairwise_append.mp hbefore).2.1).1 y hy
  have hyr : codes y.number ≤ codes r.number := hcross y (by simp [hy]) r List.mem_cons_self
  rw [hnumber] at hxy
  exact codes_injective (le_antisymm hyr hxy)

lemma mem_countries {c : Bytes}
    (hsorted : SortedBy (fun r : CountryPrefixRec IP => r.key) (before ++ r :: after)) :
    c ∈ (lookupOf ip before r).countries ↔ c = r.countryCode ∨ ∃ front x back,
      before = front ++ x :: back ∧ x.countryCode = c ∧ x.number = r.number ∧
        isOwn ip x = true ∧ ∀ y ∈ back, isOwn ip y = true := by
  rw [lookupOf, List.mem_cons, mem_otherCountries]
  refine or_congr_right ⟨?_, ?_⟩
  · rintro ⟨back, x, front, hl, hcode, hnumber, hown, hback⟩
    refine ⟨front.reverse, x, back.reverse, ?_, hcode, hnumber, hown,
      fun y hy => (hback y (List.mem_reverse.mp hy)).2⟩
    rw [← List.reverse_reverse before, hl]
    simp
  · rintro ⟨front, x, back, rfl, hcode, hnumber, hown, hback⟩
    refine ⟨back.reverse, x, front.reverse, by simp, hcode, hnumber, hown, fun y hy => ?_⟩
    have hy := List.mem_reverse.mp hy
    exact ⟨number_eq_of_sorted hsorted hnumber hy, hback y hy⟩

/-! ## What is found -/

lemma pass_own (hdata : data = before ++ r :: after) (hown : isOwn ip r = true) :
    pass data ip (some before.length) =
      if r.countryCode = [] then none else some (lookupOf ip before r) := by
  have hget : data[before.length]? = some r := by
    rw [hdata, List.getElem?_append_right le_rfl, Nat.sub_self, List.getElem?_cons_zero]
  have htake : data.take before.length = before := by rw [hdata, List.take_left]
  rw [pass, Option.bind_some, hget, Option.map_some, Option.bind_some]
  dsimp only
  rw [if_pos hown, htake]
  rfl

lemma pass_not_own (hown : (data[i]?).any (isOwn ip) = false) : pass data ip (some i) = none := by
  rw [pass, Option.bind_some]
  cases hr : data[i]? with
  | none => rfl
  | some r =>
    rw [hr, Option.any_some] at hown
    rw [Option.map_some, Option.bind_some]
    dsimp only
    rw [if_pos (if_neg (by rw [hown]; exact Bool.false_ne_true))]

lemma countryByIp_eq : countryByIp data (some ip) =
    (data.find? (byFilter ip)).map fun r => ⟨r.countryCode, [r.countryCode], []⟩ := by
  have hsame : (fun r : CountryPrefixRec IP => r.number = [] && r.ipFilter.isSome &&
      (some ip).isSome && r.accepts (some ip)) = byFilter ip := by
    funext r
    rw [byFilter, Option.isSome_some, Bool.and_true]
  rw [countryByIp, hsame]

lemma exists_split (hr : data[i]? = some r) :
    ∃ before after, data = before ++ r :: after ∧ before.length = i := by
  obtain ⟨hi, rfl⟩ := List.getElem?_eq_some_iff.mp hr
  refine ⟨data.take i, data.drop (i + 1), ?_, List.length_take_of_le hi.le⟩
  rw [← List.drop_eq_getElem_cons hi, List.take_append_drop]

lemma answer_of_isFirstByFilter (hfirst : isFirstByFilter ip data i = true) :
    answer data ip (some i) = countryByIp data (some ip) := by
  rw [isFirstByFilter, Bool.and_eq_true, Bool.and_eq_true] at hfirst
  obtain ⟨⟨hrec, hbefore⟩, hlast⟩ := hfirst
  obtain ⟨r, hget, hby⟩ := (Option.any_eq_true _ _).mp hrec
  obtain ⟨before, after, hdata, rfl⟩ := exists_split hget
  have htake : data.take before.length = before := by rw [hdata, List.take_left]
  rw [htake] at hbefore hlast
  have hfind : data.find? (byFilter ip) = some r := by
    have hnone : before.find? (byFilter ip) = none := by
      rw [List.find?_eq_none]
      intro x hx
      have hnot := List.all_eq_true.mp hbefore x hx
      simpa using hnot
    rw [hdata, List.find?_append, hnone, Option.none_or, List.find?_cons_of_pos hby]
  have hparts := hby
  rw [byFilter, Bool.and_eq_true, Bool.and_eq_true, decide_eq_true_eq] at hparts
  obtain ⟨⟨hnumber, -⟩, hown⟩ := hparts
  -- no other country is collected
  have hothers : otherCountries r.number (some ip) before.reverse = [] := by
    rcases List.eq_nil_or_concat before with rfl | ⟨front, x, rfl⟩
    · rfl
    · rw [List.concat_eq_append] at hlast ⊢
      rw [List.getLast?_concat, Option.all_some, Bool.not_eq_true'] at hlast
      rw [List.reverse_append, List.reverse_singleton, List.singleton_append, otherCountries,
        if_neg fun hx => Bool.false_ne_true (hlast.symm.trans hx.2)]
  rw [answer, pass_own hdata hown, countryByIp_eq, hfind, Option.map_some, lookupOf, hothers, hnumber]
  split <;> rfl

lemma answer_of_outcome_none (houtcome : outcome ip data n = some none) :
    ∃ found, arrival (numbersOf data) n = some found ∧
      answer data ip found = countryByIp data (some ip) := by
  obtain ⟨found, harrival, hfound⟩ := Option.map_eq_some_iff.mp houtcome
  refine ⟨found, harrival, ?_⟩
  cases found with
  | none => exact Option.none_or
  | some i =>
    rw [Option.filter_some] at hfound
    split at hfound
    · cases hfound
    · rename_i hcond
      rw [Bool.and_eq_true, Bool.not_eq_true', not_and, Bool.not_eq_false] at hcond
      cases hown : (data[i]?).any (isOwn ip) with
      | false => rw [answer, pass_not_own hown, Option.none_or]
      | true => exact answer_of_isFirstByFilter (hcond hown)

lemma answer_of_outcome_some (houtcome : outcome ip data n = some (some i)) :
    ∃ before r after, data = before ++ r :: after ∧ before.length = i ∧ isOwn ip r = true ∧
      isFirstByFilter ip data i = false ∧ arrival (numbersOf data) n = some (some i) ∧
      answer data ip (some i) = if r.countryCode = [] then countryByIp data (some ip)
        else some (lookupOf ip before r) := by
  obtain ⟨found, harrival, hfound⟩ := Option.map_eq_some_iff.mp houtcome
  rw [Option.filter_eq_some_iff] at hfound
  obtain ⟨rfl, hcond⟩ := hfound
  rw [Bool.and_eq_true, Bool.not_eq_true'] at hcond
  obtain ⟨r, hget, hown⟩ := (Option.any_eq_true _ _).mp hcond.1
  obtain ⟨before, after, hdata, rfl⟩ := exists_split hget
  refine ⟨before, r, after, hdata, rfl, hown, hcond.2, harrival, ?_⟩
  rw [answer, pass_own hdata hown]
  split <;> rfl

end VoipMonitor.Country
