import VoipMonitor.Proofs.CountryPrefixSearch

/-!
# The countries of the longest prefix

`_getCountry` gives the longest prefix and a country of it. The other countries are collected from
the record on which the search ended to the front: all of them, when this was the last one.
-/

namespace VoipMonitor.Country
open VoipMonitor.Library

variable {IP : Type}

structure IsLongest (table : List (CountryPrefixRec IP)) (n p : Bytes) : Prop where
  isPrefix : p <+: n
  mem : ∃ r ∈ table, r.number = p
  longest : ∀ r ∈ table, r.number <+: n → r.number.length ≤ p.length

/-- The answer is that of a longest-prefix match. -/
structure LongestMatch (table : List (CountryPrefixRec IP)) (n : Bytes) (l : Lookup) : Prop where
  found : ∀ p, IsLongest table n p → l.countryPrefix = p ∧
    (∃ r ∈ table, r.number = p ∧ r.countryCode = l.country) ∧
    ∀ c, c ∈ l.countries ↔ ∃ r ∈ table, r.number = p ∧ r.countryCode = c
  absent : (∀ r ∈ table, ¬r.number <+: n) → l = ⟨[], [], []⟩

/-- The record with the longest prefix to which the search comes. -/
def reached (table : List (CountryPrefixRec IP)) (n p : Bytes) : Option (CountryPrefixRec IP) :=
  let group := table.filter (fun r => r.number = p)
  if FromBehind table n p then group.getLast? else group.head?

/-- The record has a country, and it is the last one with the prefix or all have the same. -/
def CountriesOk (table : List (CountryPrefixRec IP)) (n : Bytes) : Prop :=
  ∀ p, IsLongest table n p → ∀ r ∈ reached table n p, r.countryCode ≠ [] ∧
    (FromBehind table n p ∨ ∀ r' ∈ table, r'.number = p → r'.countryCode = r.countryCode)

/-! ## The group of the prefix -/

section Group
variable {data : List (CountryPrefixRec IP)} {n p : Bytes}

/-- A sorted table falls into what is in front of the prefix, its records and what is behind
them. -/
lemma IsLongest.split (hp : IsLongest data n p)
    (h : SortedBy (fun r : CountryPrefixRec IP => r.key) data) :
    ∃ before group after, Longest data n p before group after := by
  obtain ⟨before, rest, hdata, -, hbefore, hrest⟩ := h.lowerBound (codes p)
    (fun r => decide_eq_true_iff (p := r.key < codes p))
  have hsorted : SortedBy (fun r : CountryPrefixRec IP => r.key) rest :=
    h.sublist (by rw [hdata]; exact List.sublist_append_right _ _)
  obtain ⟨group, hgroup⟩ : ∃ group, group = rest.takeWhile (fun r => decide (r.number = p)) :=
    ⟨_, rfl⟩
  obtain ⟨after, hafter⟩ : ∃ after, after = rest.dropWhile (fun r => decide (r.number = p)) :=
    ⟨_, rfl⟩
  have hsplit : rest = group ++ after := by
    rw [hgroup, hafter, List.takeWhile_append_dropWhile]
  have hgroup_eq : ∀ r ∈ group, r.number = p := by
    intro r hr
    rw [hgroup] at hr
    simpa using List.mem_takeWhile_imp hr
  -- the first record behind the group is greater, and so are the others
  have hlt : ∀ r ∈ after, codes p < r.key := by
    intro r hr
    cases hcases : after with
    | nil =>
      rw [hcases] at hr
      cases hr
    | cons x after' =>
      have hx : x.number ≠ p := by
        have hne : rest.dropWhile (fun r => decide (r.number = p)) ≠ [] := by
          rw [← hafter, hcases]
          exact List.cons_ne_nil _ _
        have hhead := List.head_dropWhile_not (fun r : CountryPrefixRec IP => decide (r.number = p))
          hne
        simp only [← hafter, hcases, List.head_cons, decide_eq_false_iff_not] at hhead
        exact hhead
      have hxlt : codes p < x.key := by
        refine lt_of_le_of_ne (hrest x ?_) (fun heq => hx (codes_injective heq).symm)
        rw [hsplit, hcases]
        simp
      rw [hcases] at hr
      rcases List.mem_cons.mp hr with rfl | hr
      · exact hxlt
      · rw [hsplit, hcases] at hsorted
        have hpair := (List.pairwise_append.mp hsorted).2.1
        exact lt_of_lt_of_le hxlt ((List.pairwise_cons.mp hpair).1 r hr)
  refine ⟨before, group, after, ?_, ?_, hp.isPrefix, hbefore, hgroup_eq, hlt, hp.longest⟩
  · rw [hdata, hsplit, List.append_assoc]
  · rintro hnil
    obtain ⟨r, hr, hrp⟩ := hp.mem
    rw [hdata, hsplit, hnil, List.nil_append] at hr
    rcases List.mem_append.mp hr with hr | hr
    · have hless := hbefore r hr
      rw [CountryPrefixRec.key, hrp] at hless
      exact lt_irrefl _ hless
    · have hless := hlt r hr
      rw [CountryPrefixRec.key, hrp] at hless
      exact lt_irrefl _ hless

variable {before group after : List (CountryPrefixRec IP)} (hp : Longest data n p before group after)
include hp

lemma Longest.mem_iff {r : CountryPrefixRec IP} : r ∈ group ↔ r ∈ data ∧ r.number = p := by
  constructor
  · intro hr
    refine ⟨?_, hp.group_eq r hr⟩
    rw [hp.data_eq]
    exact List.mem_append_left _ (List.mem_append_right _ hr)
  · rintro ⟨hr, hrp⟩
    rw [hp.data_eq] at hr
    rcases List.mem_append.mp hr with hr | hr
    · rcases List.mem_append.mp hr with hr | hr
      · have hless := hp.before_lt r hr
        rw [CountryPrefixRec.key, hrp] at hless
        exact absurd hless (lt_irrefl _)
      · exact hr
    · have hless := hp.lt_after r hr
      rw [CountryPrefixRec.key, hrp] at hless
      exact absurd hless (lt_irrefl _)

lemma Longest.filter_eq : data.filter (fun r => r.number = p) = group := by
  have hnone : ∀ l : List (CountryPrefixRec IP), (∀ r ∈ l, r.number ≠ p) →
      l.filter (fun r => r.number = p) = [] := by
    intro l hl
    rw [List.filter_eq_nil_iff]
    intro r hr
    simpa using hl r hr
  have hbefore : before.filter (fun r => r.number = p) = [] := by
    refine hnone _ (fun r hr hrp => ?_)
    have hless := hp.before_lt r hr
    rw [CountryPrefixRec.key, hrp] at hless
    exact lt_irrefl _ hless
  have hafter : after.filter (fun r => r.number = p) = [] := by
    refine hnone _ (fun r hr hrp => ?_)
    have hless := hp.lt_after r hr
    rw [CountryPrefixRec.key, hrp] at hless
    exact lt_irrefl _ hless
  have hgroup : group.filter (fun r => r.number = p) = group :=
    List.filter_eq_self.mpr (fun r hr => decide_eq_true (hp.group_eq r hr))
  rw [hp.data_eq, List.filter_append, List.filter_append, hbefore, hafter, hgroup, List.nil_append,
    List.append_nil]

lemma Longest.isLongest : IsLongest data n p := by
  obtain ⟨r, hr⟩ := List.exists_mem_of_ne_nil group hp.group_ne_nil
  exact ⟨hp.isPrefix, ⟨r, hp.mem_iff.mp hr⟩, hp.longest⟩

end Group

lemma IsLongest.unique {table : List (CountryPrefixRec IP)} {n p p' : Bytes}
    (h : IsLongest table n p) (h' : IsLongest table n p') : p = p' := by
  obtain ⟨r, hr, rfl⟩ := h.mem
  obtain ⟨r', hr', rfl⟩ := h'.mem
  have hle := h'.longest r hr h.isPrefix
  have hle' := h.longest r' hr' h'.isPrefix
  exact (List.prefix_of_prefix_length_le h.isPrefix h'.isPrefix hle).eq_of_length (by omega)

/-! ## The answer -/

lemma otherCountries_append {p : Bytes} {ip : Option IP} {l rest : List (CountryPrefixRec IP)}
    (hl : ∀ r ∈ l, r.number = p ∧ r.accepts ip = true) (hrest : ∀ r ∈ rest, r.number ≠ p) :
    otherCountries p ip (l ++ rest) = l.map (fun r => r.countryCode) := by
  induction l with
  | nil =>
    cases rest with
    | nil => rfl
    | cons r rest => exact if_neg (fun hr => hrest r List.mem_cons_self hr.1)
  | cons r l ih =>
    rw [List.cons_append, otherCountries, if_pos (hl r List.mem_cons_self),
      ih (fun x hx => hl x (List.mem_cons_of_mem _ hx)), List.map_cons]

section Answer
variable {data : List (CountryPrefixRec IP)} {n : Bytes} {ip : Option IP}
  (hfilter : ∀ r ∈ data, r.ipFilter = none)
include hfilter

lemma accepts_of_mem {r : CountryPrefixRec IP} (hr : r ∈ data) : r.accepts ip = true := by
  rw [CountryPrefixRec.accepts, hfilter r hr]

section Found
variable {p : Bytes} {before group after : List (CountryPrefixRec IP)}
  (hp : Longest data n p before group after)
include hp

lemma Longest.getCountryIn_eq {k fuel : Nat} {r : CountryPrefixRec IP}
    {front back : List (CountryPrefixRec IP)} (hgroup : group = front ++ r :: back)
    (hends : findLoop data n (fuel + k) (landing data n) 0 =
      some (some (before.length + front.length))) :
    getCountryIn (fuel + k) data n ip =
      some (if r.countryCode = [] then none
        else some ⟨r.countryCode, r.countryCode :: (front.map (fun r => r.countryCode)).reverse,
          p⟩) := by
  have hmem : ∀ x ∈ group, x ∈ data ∧ x.number = p := fun x hx => hp.mem_iff.mp hx
  have hr : r ∈ group := by
    rw [hgroup]
    simp
  have hne : data ≠ [] := List.ne_nil_of_mem (hmem r hr).1
  have hget : data[before.length + front.length]? = some r := by
    rw [hp.data_eq, hgroup]
    simp
  have htake : (data.take (before.length + front.length)).reverse =
      front.reverse ++ before.reverse := by
    have hdata : data = (before ++ front) ++ (r :: back ++ after) := by
      rw [hp.data_eq, hgroup]
      simp
    rw [hdata, List.take_left' List.length_append, List.reverse_append]
  have hothers : otherCountries p ip (front.reverse ++ before.reverse) =
      (front.map (fun r => r.countryCode)).reverse := by
    rw [otherCountries_append, List.map_reverse]
    · intro x hx
      have hx' : x ∈ group := by
        rw [hgroup]
        exact List.mem_append_left _ (List.mem_reverse.mp hx)
      exact ⟨(hmem x hx').2, accepts_of_mem hfilter (hmem x hx').1⟩
    · intro x hx hxp
      have hless := hp.before_lt x (List.mem_reverse.mp hx)
      rw [CountryPrefixRec.key, hxp] at hless
      exact lt_irrefl _ hless
  rw [getCountryIn, if_neg hne, hends, Option.map_some, Option.bind_some, hget, Option.map_some,
    Option.bind_some]
  dsimp only
  rw [if_pos (accepts_of_mem hfilter (hmem r hr).1), (hmem r hr).2, htake, hothers]

omit hfilter in
lemma Longest.longestMatch_iff (hpne : p ≠ []) {r : CountryPrefixRec IP}
    {front back : List (CountryPrefixRec IP)} (hgroup : group = front ++ r :: back) :
    LongestMatch data n ((if r.countryCode = [] then none
        else some ⟨r.countryCode, r.countryCode :: (front.map (fun r => r.countryCode)).reverse,
          p⟩ : Option Lookup).getD ⟨[], [], []⟩) ↔
      r.countryCode ≠ [] ∧
        ∀ x ∈ group, x.countryCode = r.countryCode ∨ ∃ y ∈ front, y.countryCode = x.countryCode := by
  have hr : r ∈ data ∧ r.number = p := hp.mem_iff.mp (by rw [hgroup]; simp)
  have hlongest := hp.isLongest
  by_cases hcode : r.countryCode = []
  · rw [if_pos hcode, Option.getD_none]
    refine ⟨fun hmatch => absurd (hmatch.found p hlongest).1.symm hpne, fun hok => absurd hcode hok.1⟩
  rw [if_neg hcode, Option.getD_some]
  constructor
  · intro hmatch
    refine ⟨hcode, fun x hx => ?_⟩
    have hmem := ((hmatch.found p hlongest).2.2 x.countryCode).mpr ⟨x, (hp.mem_iff.mp hx).1,
      (hp.mem_iff.mp hx).2, rfl⟩
    rcases List.mem_cons.mp hmem with heq | hmem
    · exact .inl heq
    · exact .inr (List.mem_map.mp (List.mem_reverse.mp hmem))
  · rintro ⟨-, hall⟩
    refine ⟨fun p' hp' => ?_, fun hno => absurd hp.isPrefix (by rw [← hr.2]; exact hno r hr.1)⟩
    obtain rfl := hlongest.unique hp'
    refine ⟨rfl, ⟨r, hr.1, hr.2, rfl⟩, fun c => ⟨fun hc => ?_, ?_⟩⟩
    · rcases List.mem_cons.mp hc with rfl | hc
      · exact ⟨r, hr.1, hr.2, rfl⟩
      · obtain ⟨y, hy, rfl⟩ := List.mem_map.mp (List.mem_reverse.mp hc)
        obtain ⟨hy', hyp⟩ := hp.mem_iff.mp (show y ∈ group by rw [hgroup]; simp [hy])
        exact ⟨y, hy', hyp, rfl⟩
    · rintro ⟨x, hx, hxp, rfl⟩
      rcases hall x (hp.mem_iff.mpr ⟨hx, hxp⟩) with heq | ⟨y, hy, heq⟩
      · rw [heq]
        exact List.mem_cons_self
      · rw [← heq]
        exact List.mem_cons_of_mem _ (List.mem_reverse.mpr (List.mem_map.mpr ⟨y, hy, rfl⟩))

end Found

end Answer

lemma exists_longest {table : List (CountryPrefixRec IP)} {n : Bytes}
    (h : ∃ r ∈ table, r.number <+: n) : ∃ p, IsLongest table n p := by
  obtain ⟨r, hr, hrn⟩ := h
  have hmem : r ∈ table.filter (fun r => decide (r.number <+: n)) :=
    List.mem_filter.mpr ⟨hr, decide_eq_true hrn⟩
  cases hmax : (table.filter (fun r => decide (r.number <+: n))).argmax
      (fun r => r.number.length) with
  | none =>
    rw [List.argmax_eq_none.mp hmax] at hmem
    cases hmem
  | some m =>
    obtain ⟨hm, hmn⟩ := List.mem_filter.mp (List.argmax_mem hmax)
    refine ⟨m.number, of_decide_eq_true hmn, ⟨m, hm, rfl⟩, fun x hx hxn => ?_⟩
    have hx' : x ∈ table.filter (fun r => decide (r.number <+: n)) :=
      List.mem_filter.mpr ⟨hx, decide_eq_true hxn⟩
    have hle := List.le_of_mem_argmax hx' hmax
    exact hle

lemma LongestMatch.of_perm {table table' : List (CountryPrefixRec IP)} {n : Bytes} {l : Lookup}
    (hperm : table.Perm table') (h : LongestMatch table n l) : LongestMatch table' n l := by
  have hlongest : ∀ p, IsLongest table' n p → IsLongest table n p := by
    rintro p ⟨hpre, ⟨r, hr, hrp⟩, hmax⟩
    exact ⟨hpre, ⟨r, hperm.mem_iff.mpr hr, hrp⟩, fun x hx => hmax x (hperm.mem_iff.mp hx)⟩
  refine ⟨fun p hp => ?_, fun hno => h.absent (fun r hr => hno r (hperm.mem_iff.mp hr))⟩
  obtain ⟨hpre, ⟨r, hr, hcode⟩, hcountries⟩ := h.found p (hlongest p hp)
  refine ⟨hpre, ⟨r, hperm.mem_iff.mp hr, hcode⟩, fun c => (hcountries c).trans ?_⟩
  constructor
  · rintro ⟨x, hx, hxc⟩
    exact ⟨x, hperm.mem_iff.mp hx, hxc⟩
  · rintro ⟨x, hx, hxc⟩
    exact ⟨x, hperm.mem_iff.mpr hx, hxc⟩

section Table
variable {data : List (CountryPrefixRec IP)} {n : Bytes} {ip : Option IP} (h : Digits data n)
  (hfilter : ∀ r ∈ data, r.ipFilter = none)
include h hfilter

omit hfilter in
lemma Digits.getCountryIn_none (hno : ∀ r ∈ data, ¬r.number <+: n) :
    ∃ k, ∀ fuel, getCountryIn (fuel + k) data n ip = some none := by
  by_cases hnil : data = []
  · exact ⟨0, fun fuel => if_pos hnil⟩
  · obtain ⟨k, hk⟩ := h.ends_none hnil hno (landing_lt h.sorted hnil n)
    refine ⟨k, fun fuel => ?_⟩
    rw [getCountryIn, if_neg hnil, hk fuel, Option.map_some]
    rfl

lemma Digits.getCountryIn_iff : ∃ l, (∃ k, ∀ fuel, getCountryIn (fuel + k) data n ip = some l) ∧
    (LongestMatch data n (l.getD ⟨[], [], []⟩) ↔ CountriesOk data n) := by
  by_cases hex : ∃ r ∈ data, r.number <+: n
  · obtain ⟨p, hp⟩ := exists_longest hex
    obtain ⟨before, group, after, hgroup⟩ := hp.split h.sorted
    have hpne := hgroup.ne_nil h
    obtain ⟨k, hk⟩ := hgroup.ends h
    have hok : CountriesOk data n ↔ ∀ r ∈ reached data n p, r.countryCode ≠ [] ∧
        (FromBehind data n p ∨ ∀ x ∈ group, x.countryCode = r.countryCode) := by
      constructor
      · intro hok r hr
        obtain ⟨hcode, hall⟩ := hok p hp r hr
        refine ⟨hcode, hall.imp_right (fun hall x hx => ?_)⟩
        exact hall x (hgroup.mem_iff.mp hx).1 (hgroup.mem_iff.mp hx).2
      · intro hok p' hp' r hr
        obtain rfl := hp.unique hp'
        obtain ⟨hcode, hall⟩ := hok r hr
        exact ⟨hcode, hall.imp_right (fun hall x hx hxp => hall x (hgroup.mem_iff.mpr ⟨hx, hxp⟩))⟩
    rw [hok, reached, hgroup.filter_eq]
    by_cases hbehind : FromBehind data n p
    · -- all records of the group are collected
      obtain ⟨front, r, hsplit⟩ := (List.eq_nil_or_concat' group).resolve_left hgroup.group_ne_nil
      have hfront : before.length + group.length - 1 = before.length + front.length := by
        rw [hsplit, List.length_append, List.length_singleton]
        omega
      rw [if_pos hbehind, hfront] at hk
      refine ⟨_, ⟨k, fun fuel => hgroup.getCountryIn_eq hfilter hsplit (hk fuel)⟩, ?_⟩
      rw [hgroup.longestMatch_iff hpne hsplit, if_pos hbehind, hsplit, List.getLast?_concat]
      constructor
      · rintro ⟨hcode, -⟩ x hx
        obtain rfl := Option.mem_some_iff.mp hx
        exact ⟨hcode, .inl hbehind⟩
      · intro hall
        refine ⟨(hall r rfl).1, fun x hx => ?_⟩
        rcases List.mem_append.mp hx with hx | hx
        · exact .inr ⟨x, hx, rfl⟩
        · rw [List.mem_singleton.mp hx]
          exact .inl rfl
    · -- only the first one is
      obtain ⟨r, back, hsplit⟩ := List.exists_cons_of_ne_nil hgroup.group_ne_nil
      have hsplit' : group = [] ++ r :: back := hsplit
      rw [if_neg hbehind] at hk
      refine ⟨_, ⟨k, fun fuel => hgroup.getCountryIn_eq hfilter hsplit' (hk fuel)⟩, ?_⟩
      rw [hgroup.longestMatch_iff hpne hsplit', if_neg hbehind]
      have hhead : group.head? = some r := by
        rw [hsplit]
        rfl
      rw [hhead]
      constructor
      · rintro ⟨hcode, hall⟩ x hx
        obtain rfl := Option.mem_some_iff.mp hx
        refine ⟨hcode, .inr (fun y hy => (hall y hy).resolve_right ?_)⟩
        rintro ⟨z, hz, -⟩
        cases hz
      · intro hall
        obtain ⟨hcode, hall⟩ := hall r rfl
        exact ⟨hcode, fun x hx => .inl (hall.resolve_left hbehind x hx)⟩
  · have hno : ∀ r ∈ data, ¬r.number <+: n := fun r hr hrn => hex ⟨r, hr, hrn⟩
    refine ⟨none, h.getCountryIn_none hno, iff_of_true ⟨fun p hp => ?_, fun _ => rfl⟩ ?_⟩
    · obtain ⟨r, hr, rfl⟩ := hp.mem
      exact absurd hp.isPrefix (hno r hr)
    · intro p hp
      obtain ⟨r, hr, rfl⟩ := hp.mem
      exact absurd hp.isPrefix (hno r hr)

end Table

/-- `_getCountry` over a table of digits ends. It gives the longest prefix of the number, a country
of it and all its countries exactly when the record to which the search comes has a country, and is
the last one with this prefix or all of them have this country. -/
theorem getCountry_longestMatch_iff (sort : Sorter (fun r : CountryPrefixRec IP => r.key))
    (rows : List (CountryPrefixRec IP)) (n : Bytes) (ip : Option IP)
    (hrows : ∀ r ∈ rows, r.number ≠ [] ∧ IsDigits r.number ∧ r.number.length ≤ 18 ∧
      r.ipFilter = none) (hne : n ≠ []) (hdigits : IsDigits n) :
    ∃ l, (∃ k, ∀ fuel, getCountry (fuel + k) (load sort [] rows) n ip = some l) ∧
      (LongestMatch rows n l ↔ CountriesOk (load sort [] rows).data n) := by
  have hperm : (load sort [] rows).data.Perm rows := sort.perm rows
  have hempty : (load sort [] rows).customerDataSimple = [] := (sort.perm []).eq_nil
  have hmem : ∀ r ∈ (load sort [] rows).data, r.number ≠ [] ∧ IsDigits r.number ∧
      r.number.length ≤ 18 ∧ r.ipFilter = none := fun r hr => hrows r (hperm.mem_iff.mp hr)
  have h : Digits (load sort [] rows).data n :=
    ⟨sort.sorted rows, fun r hr => (hmem r hr).1, fun r hr => (hmem r hr).2.1,
      fun r hr => (hmem r hr).2.2.1, hne, hdigits⟩
  obtain ⟨l, ⟨k, hk⟩, hiff⟩ := @Digits.getCountryIn_iff _ _ _ ip h
    (fun r hr => (hmem r hr).2.2.2)
  refine ⟨l.getD ⟨[], [], []⟩, ⟨k, fun fuel => ?_⟩, ?_⟩
  · rw [getCountry, hempty, getCountryIn, if_pos rfl, Option.bind_some, countryByIp, List.find?_nil,
      Option.map_none]
    rw [hk fuel, Option.map_some]
  · rw [← hiff]
    exact ⟨fun hmatch => hmatch.of_perm hperm.symm, fun hmatch => hmatch.of_perm hperm⟩

theorem getCountry_longestMatch_iff_example :
    ∃ l : Lookup, LongestMatch
        [(⟨ascii "1", ascii "US", none⟩ : CountryPrefixRec Nat), ⟨ascii "1", ascii "CA", none⟩,
          ⟨ascii "420", ascii "CZ", none⟩] (ascii "1234") l ∧
      l.countryPrefix = ascii "1" := by
  obtain ⟨l, -, hiff⟩ := getCountry_longestMatch_iff (.insertion _)
    [(⟨ascii "1", ascii "US", none⟩ : CountryPrefixRec Nat), ⟨ascii "1", ascii "CA", none⟩,
      ⟨ascii "420", ascii "CZ", none⟩] (ascii "1234") none
    (by
      intro r hr
      simp only [List.mem_cons, List.not_mem_nil, or_false] at hr
      rcases hr with rfl | rfl | rfl
      · exact ⟨by decide, by unfold IsDigits; decide +kernel, by decide, rfl⟩
      · exact ⟨by decide, by unfold IsDigits; decide +kernel, by decide, rfl⟩
      · exact ⟨by decide, by unfold IsDigits; decide +kernel, by decide, rfl⟩)
    (by decide) (by unfold IsDigits; decide +kernel)
  have hlongest : IsLongest [(⟨ascii "1", ascii "US", none⟩ : CountryPrefixRec Nat),
      ⟨ascii "1", ascii "CA", none⟩, ⟨ascii "420", ascii "CZ", none⟩] (ascii "1234")
      (ascii "1") := by
    refine ⟨by decide, ⟨_, List.mem_cons_self, rfl⟩, fun r hr hpre => ?_⟩
    simp only [List.mem_cons, List.not_mem_nil, or_false] at hr
    rcases hr with rfl | rfl | rfl
    · exact le_rfl
    · exact le_rfl
    · exact absurd hpre (by decide)
  have hmatch := hiff.mpr (fun p hp r hr => ?_)
  · exact ⟨l, hmatch, (hmatch.found _ hlongest).1⟩
  · -- the sort changes nothing here
    have hsame : IsLongest [(⟨ascii "1", ascii "US", none⟩ : CountryPrefixRec Nat),
        ⟨ascii "1", ascii "CA", none⟩, ⟨ascii "420", ascii "CZ", none⟩] (ascii "1234") p := hp
    obtain rfl := hlongest.unique hsame
    obtain rfl : (⟨ascii "1", ascii "CA", none⟩ : CountryPrefixRec Nat) = r :=
      Option.some.inj hr
    exact ⟨by decide, .inl (by decide)⟩

/-- The number is a prefix with two countries: only the first one is collected. -/
theorem getCountry_misses_country :
    ¬∀ (sort : Sorter (fun r : CountryPrefixRec Nat => r.key))
      (rows : List (CountryPrefixRec Nat)) (n : Bytes) (ip : Option Nat),
      (∀ r ∈ rows, r.number ≠ [] ∧ IsDigits r.number ∧ r.number.length ≤ 18 ∧
        r.ipFilter = none) → n ≠ [] → IsDigits n →
      ∃ l, (∃ k, ∀ fuel, getCountry (fuel + k) (load sort [] rows) n ip = some l) ∧
        LongestMatch rows n l := by
  intro h
  obtain ⟨l, ⟨k, hk⟩, hmatch⟩ := h (.insertion _)
    [⟨ascii "1", ascii "US", none⟩, ⟨ascii "1", ascii "CA", none⟩] (ascii "1") none
    (by
      intro r hr
      simp only [List.mem_cons, List.not_mem_nil, or_false] at hr
      rcases hr with rfl | rfl
      · exact ⟨by decide, by unfold IsDigits; decide +kernel, by decide, rfl⟩
      · exact ⟨by decide, by unfold IsDigits; decide +kernel, by decide, rfl⟩)
    (by decide) (by unfold IsDigits; decide +kernel)
  have hl := hk 1
  rw [Nat.add_comm] at hl
  have hvalue : getCountry (k + 1) (load (.insertion _)
      [] [(⟨ascii "1", ascii "US", none⟩ : CountryPrefixRec Nat), ⟨ascii "1", ascii "CA", none⟩])
      (ascii "1") none = some ⟨ascii "US", [ascii "US"], ascii "1"⟩ := rfl
  rw [hvalue] at hl
  obtain rfl := Option.some.inj hl
  have hlongest : IsLongest [(⟨ascii "1", ascii "US", none⟩ : CountryPrefixRec Nat),
      ⟨ascii "1", ascii "CA", none⟩] (ascii "1") (ascii "1") := by
    refine ⟨by decide, ⟨_, List.mem_cons_self, rfl⟩, fun r _ hpre => hpre.length_le⟩
  have hca := ((hmatch.found _ hlongest).2.2 (ascii "CA")).mpr
    ⟨⟨ascii "1", ascii "CA", none⟩, by simp, rfl, rfl⟩
  exact absurd hca (by decide)

end VoipMonitor.Country
