import VoipMonitor.Proofs.AddressSearch
import VoipMonitor.Proofs.NetworkRanges

/-!
# The lookup of the country of an address

The search looks at the first range that is not below the address and at the one before it. For
ranges that have no address in common this is enough, if the order is the one of the numbers. A
network that others in it hide is missed, and the order of IPv6 addresses is another one.
-/

namespace VoipMonitor.GeoIp
open VoipMonitor.Library VoipMonitor.CallsHash VoipMonitor.AddressLists

namespace Range

def sortKey (r : Range) : ℕ ⊕ₗ List ℕ := r.ipFrom.sortKey

def holds (ip : VmIP) (r : Range) : Bool := r.ipFrom.le ip && r.ipTo.ge ip

end Range

def GeoIPCountryRec.range (r : GeoIPCountryRec) : Range := ⟨r.ipFrom, r.ipTo⟩

/-- The places that the search looks at, when the first `k` ranges are below the address. -/
def neighbours (k length : Nat) : List Nat :=
  let i := if k = length then k - 1 else k
  if length = 0 then [] else if i = 0 then [0] else [i, i - 1]

/-- The first of these places whose range holds the address in the order of the search. -/
def foundAt (ip : VmIP) (ranges : List Range) : Option Nat :=
  (neighbours (ranges.countP (·.ipFrom.lt ip)) ranges.length).find? fun i =>
    (ranges[i]?).any (Range.holds ip)

variable {ip : VmIP} {data : List GeoIPCountryRec} {ranges before after : List Range} {r : Range}
  {i j : Nat}

lemma split_ranges (hsorted : SortedBy Range.sortKey ranges) (ip : VmIP) :
    ∃ before after, ranges = before ++ after ∧ (∀ r ∈ before, r.sortKey < ip.sortKey) ∧
      (∀ r ∈ after, ip.sortKey ≤ r.sortKey) ∧
      ranges.countP (·.ipFrom.lt ip) = before.length := by
  have hlt := fun r : Range => lt_iff_sortKey r.ipFrom ip
  obtain ⟨before, after, hsplit, hbound, hbefore, hafter⟩ := hsorted.lowerBound ip.sortKey hlt
  exact ⟨before, after, hsplit, hbefore, hafter,
    (hsorted.lowerBound_eq_countP ip.sortKey hlt).symm.trans hbound⟩

lemma findRec_eq (hsorted : SortedBy Range.sortKey (data.map GeoIPCountryRec.range)) (ip : VmIP) :
    findRec ip data =
      (foundAt ip (data.map GeoIPCountryRec.range)).bind (fun i : Nat => data[i]?) := by
  have hany : ∀ i : Nat, ((data.map GeoIPCountryRec.range)[i]?).any (Range.holds ip) =
      (data[i]?).any (GeoIPCountryRec.holds ip) := by
    intro i
    rw [List.getElem?_map, Option.any_map]
    rfl
  have hbound : lowerBound (·.ipFrom.lt ip) data =
      (data.map GeoIPCountryRec.range).countP (·.ipFrom.lt ip) := by
    have hdata : SortedBy GeoIPCountryRec.sortKey data := by
      rw [SortedBy, List.pairwise_map] at hsorted
      exact hsorted
    rw [List.countP_map]
    exact hdata.lowerBound_eq_countP ip.sortKey fun r => lt_iff_sortKey r.ipFrom ip
  rw [findRec, foundAt, neighbours, List.length_map, hbound]
  generalize (data.map GeoIPCountryRec.range).countP (·.ipFrom.lt ip) = k
  by_cases hdata : data = []
  · subst hdata
    rfl
  · have hlength : data.length ≠ 0 := mt List.length_eq_zero_iff.mp hdata
    rw [if_neg (by rwa [List.isEmpty_iff]), if_neg hlength]
    dsimp only
    generalize (if k = data.length then k - 1 else k) = i
    rw [walk, walk, walk]
    by_cases hi : i = 0
    · rw [if_pos hi, if_pos hi, List.find?_cons, hany, hi]
      cases (data[0]?).any (GeoIPCountryRec.holds ip) <;> rfl
    · rw [if_neg hi, if_neg hi, List.find?_cons, List.find?_cons, hany, hany, ite_self]
      cases (data[i]?).any (GeoIPCountryRec.holds ip)
      · cases (data[i - 1]?).any (GeoIPCountryRec.holds ip) <;> rfl
      · rfl

/-! ## The tables and their countries -/

/-- A base table as `load` leaves it: sorted, with ranges of one version that have no address in
common. -/
structure BaseTable (v6 : Bool) where
  ranges : List Range
  sorted : SortedBy Range.sortKey ranges
  version : ∀ r ∈ ranges, r.ipFrom.isV6 = v6 ∧ r.ipTo.isV6 = v6
  from_le_to : ∀ r ∈ ranges, number r.ipFrom ≤ number r.ipTo
  disjoint : ranges.Pairwise fun r r' => ∀ ip, ¬(r.Contains ip ∧ r'.Contains ip)

/-- The tables as `load` leaves them, without the countries. -/
structure Tables (useIPv6 : Bool) where
  customers : List Network
  data : BaseTable false
  dataV6 : BaseTable true
  sorted : SortedBy Range.sortKey (customers.map Network.range)
  notLoaded : useIPv6 = false → dataV6.ranges = []

/-- The countries of the ranges in the three tables. -/
structure Countries where
  customer : Nat → Bytes
  data : Nat → Bytes
  dataV6 : Nat → Bytes

def labelled (ranges : List Range) (code : Nat → Bytes) : List GeoIPCountryRec :=
  ranges.mapIdx fun i r => ⟨r.ipFrom, r.ipTo, code i⟩

namespace Tables

variable {useIPv6 : Bool}

def customerRanges (t : Tables useIPv6) : List Range := t.customers.map Network.range

def state (t : Tables useIPv6) (c : Countries) : GeoIPCountry :=
  ⟨labelled t.data.ranges c.data, labelled t.dataV6.ranges c.dataV6,
    labelled t.customerRanges c.customer⟩

def HasCustomer (t : Tables useIPv6) (c : Countries) (n : Network) (code : Bytes) : Prop :=
  ∃ i, t.customers[i]? = some n ∧ code = c.customer i

def HasBase (t : Tables useIPv6) (c : Countries) (r : Range) (code : Bytes) : Prop :=
  (∃ i, t.data.ranges[i]? = some r ∧ code = c.data i) ∨
    ∃ i, t.dataV6.ranges[i]? = some r ∧ code = c.dataV6 i

/-- The country is the one of a linear search. -/
structure IsCountry (t : Tables useIPv6) (c : Countries) (ip : VmIP) (country : Bytes) : Prop where
  customer : (∃ n ∈ t.customers, n.Contains ip) →
    ∃ n code, t.HasCustomer c n code ∧ n.Contains ip ∧ country = code
  base : (∀ n ∈ t.customers, ¬n.Contains ip) →
    ∀ r code, t.HasBase c r code → r.Contains ip → country = code
  unknown : (∀ n ∈ t.customers, ¬n.Contains ip) →
    (∀ r code, t.HasBase c r code → ¬r.Contains ip) → country = []

end Tables

/-- The place that is found has a range with the address, and when nothing is found there is
none. -/
def FindsRight (ip : VmIP) (ranges : List Range) : Prop :=
  match foundAt ip ranges with
  | some i => ∃ r ∈ ranges[i]?, r.Contains ip
  | none => ∀ r ∈ ranges, ¬r.Contains ip

/-- The search goes right: in the networks of the customers, and for an IPv6 address that it does
not find there in the base table. -/
def Tables.FindsRight {useIPv6 : Bool} (t : Tables useIPv6) (ip : VmIP) : Prop :=
  GeoIp.FindsRight ip t.customerRanges ∧
    (foundAt ip t.customerRanges = none → useIPv6 = true → ip.isV6 = true →
      GeoIp.FindsRight ip t.dataV6.ranges)

/-! ## The order and the numbers -/

lemma le_iff_sortKey (a b : VmIP) : a.le b = true ↔ a.sortKey ≤ b.sortKey := by
  rw [VmIP.le, Bool.or_eq_true, lt_iff_sortKey, decide_eq_true_iff, le_iff_lt_or_eq]
  exact or_congr_right ⟨fun h => congrArg _ h, sortKey_inj⟩

lemma ge_iff_sortKey (a b : VmIP) : a.ge b = true ↔ b.sortKey ≤ a.sortKey := by
  rw [VmIP.ge, VmIP.gt, Bool.or_eq_true, Bool.not_eq_true', ← Bool.not_eq_true, le_iff_sortKey,
    not_le, decide_eq_true_iff, le_iff_lt_or_eq]
  exact or_congr_right ⟨fun h => congrArg _ h.symm, fun h => (sortKey_inj h).symm⟩

lemma holds_iff (ip : VmIP) (r : Range) :
    r.holds ip = true ↔ r.ipFrom.sortKey ≤ ip.sortKey ∧ ip.sortKey ≤ r.ipTo.sortKey := by
  rw [Range.holds, Bool.and_eq_true, le_iff_sortKey, ge_iff_sortKey]

lemma sortKey_le_v4 {a b : VmIP} (ha : a.isV6 = false) (hb : b.isV6 = false) :
    a.sortKey ≤ b.sortKey ↔ number a ≤ number b := by
  cases a with
  | v6 => cases ha
  | v4 a =>
    cases b with
    | v6 => cases hb
    | v4 b => exact Sum.Lex.inl_le_inl_iff

lemma bits_eq_iff (a b : VmIP) : a.bits = b.bits ↔ a.isV6 = b.isV6 := by
  cases a <;> cases b <;> simp [VmIP.bits, VmIP.isV6]

lemma contains_iff {v6 : Bool} (hip : ip.isV6 = v6) (hr : r.ipFrom.isV6 = v6 ∧ r.ipTo.isV6 = v6) :
    r.Contains ip ↔ number r.ipFrom ≤ number ip ∧ number ip ≤ number r.ipTo := by
  constructor
  · rintro ⟨-, hfrom, hto⟩
    exact ⟨hfrom, hto⟩
  · rintro ⟨hfrom, hto⟩
    exact ⟨⟨(bits_eq_iff _ _).mpr (hr.1.trans hip.symm), (bits_eq_iff _ _).mpr (hr.2.trans hip.symm)⟩,
      hfrom, hto⟩

lemma holds_iff_contains (hip : ip.isV6 = false) (hr : r.ipFrom.isV6 = false ∧ r.ipTo.isV6 = false) :
    r.holds ip = true ↔ r.Contains ip := by
  rw [holds_iff, sortKey_le_v4 hr.1 hip, sortKey_le_v4 hip hr.2, contains_iff hip hr]

lemma holds_v6_eq_false (hip : ip.isV6 = true) (hr : r.ipTo.isV6 = false) : r.holds ip = false := by
  rw [← Bool.not_eq_true, holds_iff]
  rintro ⟨-, hle⟩
  cases ip with
  | v4 => cases hip
  | v6 =>
    cases hto : r.ipTo with
    | v6 =>
      rw [hto] at hr
      cases hr
    | v4 =>
      rw [hto] at hle
      exact Sum.Lex.not_inr_le_inl hle

/-! ## Ranges that have no address in common -/

lemma mem_neighbours_self {k length : Nat} (hk : k < length) : k ∈ neighbours k length := by
  have hne : k ≠ length := hk.ne
  have hlength : length ≠ 0 := by omega
  simp only [neighbours, if_neg hne, if_neg hlength]
  split
  · rename_i hzero
    rw [hzero]
    exact List.mem_cons_self
  · exact List.mem_cons_self

lemma mem_neighbours_before {k length : Nat} (hpos : 0 < k) (hk : k ≤ length) :
    k - 1 ∈ neighbours k length := by
  have hlength : length ≠ 0 := by omega
  simp only [neighbours, if_neg hlength]
  by_cases hlast : k = length
  · rw [if_pos hlast]
    split
    · rename_i hzero
      rw [hzero]
      exact List.mem_cons_self
    · exact List.mem_cons_self
  · rw [if_neg hlast, if_neg hpos.ne']
    exact List.mem_cons_of_mem _ List.mem_cons_self

lemma foundAt_some (hfound : foundAt ip ranges = some i) :
    ∃ r, ranges[i]? = some r ∧ r.holds ip = true := by
  rw [foundAt] at hfound
  have hany := List.find?_some hfound
  exact (Option.any_eq_true _ _).mp hany

lemma holds_of_foundAt_none (hnone : foundAt ip ranges = none)
    (hi : i ∈ neighbours (ranges.countP (·.ipFrom.lt ip)) ranges.length) (hr : ranges[i]? = some r) :
    r.holds ip = false := by
  have hany := List.find?_eq_none.mp hnone i hi
  rw [hr, Option.any_some, Bool.not_eq_true] at hany
  exact hany

lemma BaseTable.last_contains (b : BaseTable false) (hip : ip.isV6 = false) {a : Range}
    (hsplit : b.ranges = (before ++ [a]) ++ after) (hbelow : a.sortKey < ip.sortKey)
    (hr : r ∈ before ++ [a]) (hrip : r.Contains ip) : a.Contains ip := by
  rcases List.mem_append.mp hr with hfront | hlast
  · have hmem : ∀ x ∈ before ++ [a], x ∈ b.ranges := by
      intro x hx
      rw [hsplit]
      exact List.mem_append_left _ hx
    have hamem : a ∈ b.ranges := hmem a List.mem_append_cons_self
    have ha := b.version a hamem
    have hrv := b.version r (hmem r hr)
    have hsorted := b.sorted
    have hdisjoint := b.disjoint
    rw [hsplit] at hsorted hdisjoint
    have hle : r.sortKey ≤ a.sortKey :=
      (List.pairwise_append.mp (List.pairwise_append.mp hsorted).1).2.2 r hfront a (by simp)
    have hapart := (List.pairwise_append.mp (List.pairwise_append.mp hdisjoint).1).2.2 r hfront a
      (by simp)
    have hbound : number a.ipFrom ≤ number ip := (sortKey_le_v4 ha.1 hip).mp hbelow.le
    have hfirst : r.Contains a.ipFrom := by
      refine (contains_iff ha.1 hrv).mpr ⟨?_, ?_⟩
      · exact (sortKey_le_v4 hrv.1 ha.1).mp hle
      · exact hbound.trans hrip.le_to
    have hown : a.Contains a.ipFrom :=
      (contains_iff ha.1 ha).mpr ⟨le_rfl, b.from_le_to a hamem⟩
    exact absurd ⟨hfirst, hown⟩ (hapart a.ipFrom)
  · exact List.mem_singleton.mp hlast ▸ hrip

lemma BaseTable.first_contains (b : BaseTable false) (hip : ip.isV6 = false) {a : Range}
    (hsplit : b.ranges = before ++ a :: after) (hge : ip.sortKey ≤ a.sortKey)
    (hr : r ∈ a :: after) (hrip : r.Contains ip) : a.Contains ip := by
  have hmem : ∀ x ∈ a :: after, x ∈ b.ranges := by
    intro x hx
    rw [hsplit]
    exact List.mem_append_right _ hx
  have hamem : a ∈ b.ranges := hmem a List.mem_cons_self
  have ha := b.version a hamem
  have hsorted := b.sorted
  rw [hsplit] at hsorted
  have hle : a.sortKey ≤ r.sortKey := by
    rcases List.mem_cons.mp hr with rfl | hrest
    · exact le_rfl
    · exact (List.pairwise_cons.mp (List.pairwise_append.mp hsorted).2.1).1 r hrest
  have hfrom : r.sortKey ≤ ip.sortKey :=
    (sortKey_le_v4 (b.version r (hmem r hr)).1 hip).mpr hrip.from_le
  have hbound : number ip ≤ number a.ipFrom := (sortKey_le_v4 hip ha.1).mp hge
  refine (contains_iff hip ha).mpr ⟨?_, ?_⟩
  · exact (sortKey_le_v4 ha.1 hip).mp (hle.trans hfrom)
  · exact hbound.trans (b.from_le_to a hamem)

lemma BaseTable.exists_neighbour (b : BaseTable false) (hip : ip.isV6 = false) (hr : r ∈ b.ranges)
    (hrip : r.Contains ip) :
    ∃ i a, i ∈ neighbours (b.ranges.countP (·.ipFrom.lt ip)) b.ranges.length ∧
      b.ranges[i]? = some a ∧ a.Contains ip := by
  obtain ⟨before, after, hsplit, hbefore, hafter, hcount⟩ := split_ranges b.sorted ip
  rw [hcount]
  rcases List.mem_append.mp (hsplit ▸ hr) with hr' | hr'
  · obtain ⟨front, a, rfl⟩ := (List.eq_nil_or_concat before).resolve_left (List.ne_nil_of_mem hr')
    rw [List.concat_eq_append] at hsplit hbefore hr' ⊢
    have hlength : front.length + 1 ≤ b.ranges.length := by
      rw [hsplit, List.length_append, List.length_append, List.length_singleton]
      omega
    refine ⟨front.length, a, ?_, by simp [hsplit], ?_⟩
    · simpa using mem_neighbours_before (Nat.succ_pos _) hlength
    · exact b.last_contains hip hsplit (hbefore a List.mem_append_cons_self) hr' hrip
  · obtain ⟨a, rest, rfl⟩ := List.exists_cons_of_ne_nil (List.ne_nil_of_mem hr')
    have hlength : before.length < b.ranges.length := by
      rw [hsplit, List.length_append, List.length_cons]
      omega
    refine ⟨before.length, a, mem_neighbours_self hlength, by simp [hsplit], ?_⟩
    exact b.first_contains hip hsplit (hafter a List.mem_cons_self) hr' hrip

theorem findsRight_data (b : BaseTable false) (ip : VmIP) : FindsRight ip b.ranges := by
  cases hip : ip.isV6 with
  | true =>
    have hnone : foundAt ip b.ranges = none := by
      refine List.find?_eq_none.mpr fun i _ hany => ?_
      obtain ⟨r, hr, hholds⟩ := (Option.any_eq_true _ _).mp hany
      have hversion := (b.version r (List.mem_of_getElem? hr)).2
      rw [holds_v6_eq_false hip hversion] at hholds
      cases hholds
    rw [FindsRight, hnone]
    intro r hr hcontains
    have hversion := (bits_eq_iff _ _).mp hcontains.version.1
    rw [(b.version r hr).1, hip] at hversion
    cases hversion
  | false =>
    have hcontains : ∀ r ∈ b.ranges, (r.holds ip = true ↔ r.Contains ip) :=
      fun r hr => holds_iff_contains hip (b.version r hr)
    rw [FindsRight]
    cases hfound : foundAt ip b.ranges with
    | some i =>
      obtain ⟨r, hr, hholds⟩ := foundAt_some hfound
      exact ⟨r, hr, (hcontains r (List.mem_of_getElem? hr)).mp hholds⟩
    | none =>
      intro r hr hrip
      obtain ⟨i, a, hi, ha, haip⟩ := b.exists_neighbour hip hr hrip
      have hholds := (hcontains a (List.mem_of_getElem? ha)).mpr haip
      rw [holds_of_foundAt_none hfound hi ha] at hholds
      cases hholds

/-! ## The lookup -/

lemma map_range_labelled (ranges : List Range) (code : Nat → Bytes) :
    (labelled ranges code).map GeoIPCountryRec.range = ranges := by
  refine List.ext_getElem? fun i => ?_
  rw [List.getElem?_map, labelled, List.getElem?_mapIdx, Option.map_map]
  exact Option.map_id'

lemma findRec_labelled (hsorted : SortedBy Range.sortKey ranges) (code : Nat → Bytes) (ip : VmIP) :
    (findRec ip (labelled ranges code)).map GeoIPCountryRec.countryCode =
      (foundAt ip ranges).map code := by
  have hranges := map_range_labelled ranges code
  rw [findRec_eq (hranges.symm ▸ hsorted), hranges]
  cases hfound : foundAt ip ranges with
  | none => rfl
  | some i =>
    obtain ⟨r, hr, -⟩ := foundAt_some hfound
    rw [Option.bind_some, labelled, List.getElem?_mapIdx, hr]
    rfl

lemma BaseTable.isV6_of_mem {v6 : Bool} (b : BaseTable v6) (hr : r ∈ b.ranges)
    (hcontains : r.Contains ip) : ip.isV6 = v6 :=
  ((bits_eq_iff _ _).mp hcontains.version.1).symm.trans (b.version r hr).1

lemma BaseTable.place_unique {v6 : Bool} (b : BaseTable v6) {r' : Range} (hi : b.ranges[i]? = some r)
    (hj : b.ranges[j]? = some r') (hr : r.Contains ip) (hr' : r'.Contains ip) : i = j := by
  have hdisjoint := List.pairwise_iff_getElem.mp b.disjoint
  obtain ⟨hilt, rfl⟩ := List.getElem?_eq_some_iff.mp hi
  obtain ⟨hjlt, rfl⟩ := List.getElem?_eq_some_iff.mp hj
  rcases Nat.lt_trichotomy i j with hlt | heq | hlt
  · exact absurd ⟨hr, hr'⟩ (hdisjoint i j hilt hjlt hlt ip)
  · exact heq
  · exact absurd ⟨hr', hr⟩ (hdisjoint j i hjlt hilt hlt ip)

namespace Tables

variable {useIPv6 : Bool} (t : Tables useIPv6) (c : Countries)

def base (ip : VmIP) : List Range :=
  if useIPv6 && ip.isV6 then t.dataV6.ranges else t.data.ranges

def baseCode (useIPv6 : Bool) (c : Countries) (ip : VmIP) : Nat → Bytes :=
  if useIPv6 && ip.isV6 then c.dataV6 else c.data

lemma getCountry_eq (ip : VmIP) : (t.state c).getCountry useIPv6 ip =
    (((foundAt ip t.customerRanges).map c.customer).or
      ((foundAt ip (t.base ip)).map (baseCode useIPv6 c ip))).getD [] := by
  have htable : (findRec ip ((t.state c).table useIPv6 ip)).map GeoIPCountryRec.countryCode =
      (foundAt ip (t.base ip)).map (baseCode useIPv6 c ip) := by
    rw [GeoIPCountry.table, base, baseCode]
    split
    · exact findRec_labelled t.dataV6.sorted c.dataV6 ip
    · exact findRec_labelled t.data.sorted c.data ip
  have hcustomer : (findRec ip (t.state c).customerData).map GeoIPCountryRec.countryCode =
      (foundAt ip t.customerRanges).map c.customer := findRec_labelled t.sorted c.customer ip
  rw [← htable, ← hcustomer, ← Option.map_or, GeoIPCountry.getCountry]
  cases (findRec ip (t.state c).customerData).or (findRec ip ((t.state c).table useIPv6 ip)) <;> rfl

lemma findsRight_base (hv6 : useIPv6 = true → ip.isV6 = true → GeoIp.FindsRight ip t.dataV6.ranges) :
    GeoIp.FindsRight ip (t.base ip) := by
  rw [base]
  split
  · rename_i hcond
    rw [Bool.and_eq_true] at hcond
    exact hv6 hcond.1 hcond.2
  · exact findsRight_data t.data ip

lemma hasBase_iff {code : Bytes} (hr : r.Contains ip) : t.HasBase c r code ↔
    ∃ i, (t.base ip)[i]? = some r ∧ code = baseCode useIPv6 c ip i := by
  rw [HasBase, base, baseCode]
  split
  · rename_i hcond
    rw [Bool.and_eq_true] at hcond
    refine or_iff_right ?_
    rintro ⟨i, hi, -⟩
    have hversion := t.data.isV6_of_mem (List.mem_of_getElem? hi) hr
    rw [hcond.2] at hversion
    cases hversion
  · rename_i hcond
    refine or_iff_left ?_
    rintro ⟨i, hi, -⟩
    have hmem := List.mem_of_getElem? hi
    have hversion := t.dataV6.isV6_of_mem hmem hr
    have hload : useIPv6 = false := by
      rw [hversion, Bool.and_true, Bool.not_eq_true] at hcond
      exact hcond
    rw [t.notLoaded hload] at hmem
    cases hmem

lemma base_unique {r' : Range} (hi : (t.base ip)[i]? = some r) (hj : (t.base ip)[j]? = some r')
    (hr : r.Contains ip) (hr' : r'.Contains ip) : i = j := by
  rw [base] at hi hj
  split at hi
  · rename_i hcond
    rw [if_pos hcond] at hj
    exact t.dataV6.place_unique hi hj hr hr'
  · rename_i hcond
    rw [if_neg hcond] at hj
    exact t.data.place_unique hi hj hr hr'

lemma findsRight_customers : GeoIp.FindsRight ip t.customerRanges ↔
    match foundAt ip t.customerRanges with
    | some i => ∃ n, t.customers[i]? = some n ∧ n.Contains ip
    | none => ∀ n ∈ t.customers, ¬n.Contains ip := by
  rw [GeoIp.FindsRight]
  cases foundAt ip t.customerRanges with
  | some i =>
    simp only [customerRanges, List.getElem?_map, Option.mem_def, Option.map_eq_some_iff]
    constructor
    · rintro ⟨r, ⟨n, hn, rfl⟩, hr⟩
      exact ⟨n, hn, (range_contains_iff n ip).mp hr⟩
    · rintro ⟨n, hn, hr⟩
      exact ⟨_, ⟨n, hn, rfl⟩, (range_contains_iff n ip).mpr hr⟩
  | none =>
    simp only [customerRanges, List.forall_mem_map, range_contains_iff]

lemma isCountry_of_findsRight (hright : t.FindsRight ip) :
    t.IsCountry c ip ((t.state c).getCountry useIPv6 ip) := by
  obtain ⟨hcustomers, hbase⟩ := hright
  rw [findsRight_customers] at hcustomers
  rw [getCountry_eq]
  cases hfound : foundAt ip t.customerRanges with
  | some i =>
    rw [hfound] at hcustomers
    obtain ⟨n, hn, hcontains⟩ := hcustomers
    have hmem := List.mem_of_getElem? hn
    exact ⟨fun _ => ⟨n, c.customer i, ⟨i, hn, rfl⟩, hcontains, rfl⟩,
      fun hnone => absurd hcontains (hnone n hmem), fun hnone => absurd hcontains (hnone n hmem)⟩
  | none =>
    rw [hfound] at hcustomers
    have hright := t.findsRight_base (hbase hfound)
    rw [GeoIp.FindsRight] at hright
    rw [Option.map_none, Option.none_or]
    refine ⟨fun ⟨n, hn, hcontains⟩ => absurd hcontains (hcustomers n hn), fun _ r code hr hcontains => ?_,
      fun _ hnone => ?_⟩
    · obtain ⟨j, hj, rfl⟩ := (t.hasBase_iff c hcontains).mp hr
      cases hplace : foundAt ip (t.base ip) with
      | some i =>
        rw [hplace] at hright
        obtain ⟨r', hr', hcontains'⟩ := hright
        rw [t.base_unique hr' hj hcontains' hcontains]
        rfl
      | none =>
        rw [hplace] at hright
        exact absurd hcontains (hright r (List.mem_of_getElem? hj))
    · cases hplace : foundAt ip (t.base ip) with
      | some i =>
        rw [hplace] at hright
        obtain ⟨r, hr, hcontains⟩ := hright
        exact absurd hcontains (hnone r _ ((t.hasBase_iff c hcontains).mpr ⟨i, hr, rfl⟩))
      | none => rfl

def different : Countries where
  customer i := 0 :: List.replicate i 0
  data i := 1 :: List.replicate i 0
  dataV6 i := 2 :: List.replicate i 0

lemma different_inj {m : UInt8} (h : m :: List.replicate i (0 : UInt8) = m :: List.replicate j 0) :
    i = j := by
  have hlength := congrArg List.length h
  simpa using hlength

lemma baseCode_different (useIPv6 : Bool) (ip : VmIP) : ∃ m : UInt8, m ≠ 0 ∧
    ∀ i, baseCode useIPv6 different ip i = m :: List.replicate i 0 := by
  rw [baseCode]
  split
  · exact ⟨2, by decide, fun _ => rfl⟩
  · exact ⟨1, by decide, fun _ => rfl⟩

lemma findsRight_of_isCountry
    (h : t.IsCountry different ip ((t.state different).getCountry useIPv6 ip)) :
    t.FindsRight ip := by
  obtain ⟨m, hm, hcode⟩ := baseCode_different useIPv6 ip
  rw [getCountry_eq] at h
  cases hfound : foundAt ip t.customerRanges with
  | some i =>
    refine ⟨t.findsRight_customers.mpr ?_, fun hnone => nomatch hfound.symm.trans hnone⟩
    rw [hfound] at h ⊢
    by_cases hex : ∃ n ∈ t.customers, n.Contains ip
    · obtain ⟨n, code, ⟨j, hj, rfl⟩, hcontains, hcountry⟩ := h.customer hex
      exact ⟨n, different_inj hcountry ▸ hj, hcontains⟩
    · have hnone : ∀ n ∈ t.customers, ¬n.Contains ip := fun n hn hcontains => hex ⟨n, hn, hcontains⟩
      -- the country of a network is neither that of a range nor empty
      have hbase : ∀ r code, t.HasBase different r code → ¬r.Contains ip := by
        intro r code hr hcontains
        have hcountry := h.base hnone r code hr hcontains
        obtain ⟨j, -, rfl⟩ := (t.hasBase_iff different hcontains).mp hr
        rw [hcode] at hcountry
        exact absurd (List.cons.inj hcountry).1.symm hm
      exact absurd (h.unknown hnone hbase) (List.cons_ne_nil _ _)
  | none =>
    rw [hfound, Option.map_none, Option.none_or] at h
    have hnone : ∀ n ∈ t.customers, ¬n.Contains ip := by
      intro n hn hcontains
      obtain ⟨n', code, ⟨j, -, rfl⟩, -, hcountry⟩ := h.customer ⟨n, hn, hcontains⟩
      cases hplace : foundAt ip (t.base ip) with
      | some i =>
        rw [hplace, Option.map_some, Option.getD_some, hcode] at hcountry
        exact absurd (List.cons.inj hcountry).1 hm
      | none =>
        rw [hplace] at hcountry
        cases hcountry
    refine ⟨t.findsRight_customers.mpr (by rw [hfound]; exact hnone), fun _ hload hv6 => ?_⟩
    have hbase : t.base ip = t.dataV6.ranges :=
      if_pos (Bool.and_eq_true _ _ ▸ ⟨hload, hv6⟩)
    rw [← hbase, GeoIp.FindsRight]
    cases hplace : foundAt ip (t.base ip) with
    | some i =>
      rw [hplace, Option.map_some, Option.getD_some, hcode] at h
      by_cases hex : ∃ r code, t.HasBase different r code ∧ r.Contains ip
      · obtain ⟨r, code, hr, hcontains⟩ := hex
        have hcountry := h.base hnone r code hr hcontains
        obtain ⟨j, hj, rfl⟩ := (t.hasBase_iff different hcontains).mp hr
        rw [hcode] at hcountry
        exact ⟨r, different_inj hcountry ▸ hj, hcontains⟩
      · have hcountry := h.unknown hnone fun r code hr hcontains => hex ⟨r, code, hr, hcontains⟩
        cases hcountry
    | none =>
      rw [hplace] at h
      intro r hr hcontains
      obtain ⟨j, hj⟩ := List.mem_iff_getElem?.mp hr
      have hcountry := h.base hnone r _ ((t.hasBase_iff different hcontains).mpr ⟨j, hj, rfl⟩) hcontains
      rw [hcode] at hcountry
      cases hcountry

end Tables

/-! ## What `load` leaves -/

def noRanges (v6 : Bool) : BaseTable v6 := ⟨[], List.Pairwise.nil, nofun, nofun, List.Pairwise.nil⟩

structure BaseRows (v6 : Bool) (rows : List GeoIPCountryRec) : Prop where
  version : ∀ r ∈ rows, r.ipFrom.isV6 = v6 ∧ r.ipTo.isV6 = v6
  from_le_to : ∀ r ∈ rows, number r.ipFrom ≤ number r.ipTo
  disjoint : rows.Pairwise fun r r' => ∀ ip, ¬(r.range.Contains ip ∧ r'.range.Contains ip)

lemma exists_labelled (data : List GeoIPCountryRec) :
    ∃ code, data = labelled (data.map GeoIPCountryRec.range) code := by
  refine ⟨fun i => ((data[i]?).map GeoIPCountryRec.countryCode).getD [], ?_⟩
  refine List.ext_getElem? fun i => ?_
  rw [labelled, List.getElem?_mapIdx, List.getElem?_map, Option.map_map]
  cases data[i]? <;> rfl

lemma sorted_map_range (sort : Sorter GeoIPCountryRec.sortKey) (rows : List GeoIPCountryRec) :
    SortedBy Range.sortKey ((sort.sort rows).map GeoIPCountryRec.range) := by
  rw [SortedBy, List.pairwise_map]
  exact sort.sorted rows

def BaseRows.sorted {v6 : Bool} {rows : List GeoIPCountryRec} (h : BaseRows v6 rows)
    (sort : Sorter GeoIPCountryRec.sortKey) : BaseTable v6 where
  ranges := (sort.sort rows).map GeoIPCountryRec.range
  sorted := sorted_map_range sort rows
  version := List.forall_mem_map.mpr fun r hr => h.version r ((sort.perm rows).mem_iff.mp hr)
  from_le_to := List.forall_mem_map.mpr fun r hr => h.from_le_to r ((sort.perm rows).mem_iff.mp hr)
  disjoint := by
    rw [List.pairwise_map, (sort.perm rows).pairwise_iff fun h ip hboth => h ip hboth.symm]
    exact h.disjoint

def customerRow (n : Network × Bytes) : CustomerRow := ⟨n.1.ip, n.1.mask, n.2⟩

/-- `load` leaves tables as they are assumed here, for any rows and however `std::sort` orders
ranges with the same first address. -/
theorem load_tables (sort : Sorter GeoIPCountryRec.sortKey) (useIPv6 : Bool)
    {rows rowsV6 : List GeoIPCountryRec} (hrows : BaseRows false rows)
    (hrowsV6 : BaseRows true rowsV6) (customers : List (Network × Bytes)) :
    ∃ (t : Tables useIPv6) (c : Countries),
      load sort.sort useIPv6 rows rowsV6 (customers.map customerRow) = t.state c ∧
        t.customers.Perm (customers.map Prod.fst) := by
  let record : Network × Bytes → GeoIPCountryRec := fun n => .ofNetwork n.1.ip n.1.mask n.2
  have hmap : (customers.map customerRow).map
      (fun c => GeoIPCountryRec.ofNetwork c.ip c.mask c.country) = customers.map record :=
    List.map_map
  have hcomp := List.eq_map_comp_perm record
  obtain ⟨networks, hnetworks, hperm⟩ :=
    (congrFun (congrFun hcomp (sort.sort (customers.map record))) customers).mpr
      (sort.perm (customers.map record))
  have hranges : (networks.map Prod.fst).map Network.range =
      (sort.sort (customers.map record)).map GeoIPCountryRec.range := by
    rw [hnetworks, List.map_map, List.map_map]
    rfl
  -- the table of the IPv6 ranges
  obtain ⟨dataV6, hdataV6, hempty⟩ : ∃ dataV6 : BaseTable true,
      dataV6.ranges = (if useIPv6 then sort.sort rowsV6 else []).map GeoIPCountryRec.range ∧
        (useIPv6 = false → dataV6.ranges = []) := by
    cases useIPv6 with
    | false => exact ⟨noRanges true, rfl, fun _ => rfl⟩
    | true => exact ⟨hrowsV6.sorted sort, rfl, nofun⟩
  let t : Tables useIPv6 := ⟨networks.map Prod.fst, hrows.sorted sort, dataV6,
    hranges ▸ sorted_map_range sort _, hempty⟩
  obtain ⟨customer, hcustomer⟩ := exists_labelled (sort.sort (customers.map record))
  obtain ⟨base, hbase⟩ := exists_labelled (sort.sort rows)
  obtain ⟨baseV6, hbaseV6⟩ := exists_labelled (if useIPv6 then sort.sort rowsV6 else [])
  refine ⟨t, ⟨customer, base, baseV6⟩, ?_, hperm.map Prod.fst⟩
  have hcustomerRanges : t.customerRanges =
      (sort.sort (customers.map record)).map GeoIPCountryRec.range := hranges
  have hv6 : t.dataV6.ranges =
      (if useIPv6 then sort.sort rowsV6 else []).map GeoIPCountryRec.range := hdataV6
  rw [load, hmap, Tables.state, hcustomerRanges, hv6, ← hcustomer, ← hbaseV6]
  congr

/-- The lookup is the linear search, whatever the countries are, exactly when the search goes
right. -/
theorem getCountry_iff {useIPv6 : Bool} (t : Tables useIPv6) (ip : VmIP) :
    (∀ c, t.IsCountry c ip ((t.state c).getCountry useIPv6 ip)) ↔ t.FindsRight ip :=
  ⟨fun h => t.findsRight_of_isCountry (h Tables.different), fun h c => t.isCountry_of_findsRight c h⟩

lemma sorted_v4 (hv4 : ∀ r ∈ ranges, r.ipFrom.isV6 = false)
    (hnumbers : ranges.Pairwise fun r r' => number r.ipFrom ≤ number r'.ipFrom) :
    SortedBy Range.sortKey ranges :=
  hnumbers.imp_of_mem fun hr hr' hle => (sortKey_le_v4 (hv4 _ hr) (hv4 _ hr')).mpr hle

def nested : Tables true where
  customers := [⟨.v4 0x0A000000, 8, by decide⟩, ⟨.v4 0x0A010000, 16, by decide⟩,
    ⟨.v4 0x0A030000, 16, by decide⟩]
  data := noRanges false
  dataV6 := noRanges true
  sorted := sorted_v4 (by decide +kernel) (by decide +kernel)
  notLoaded := fun _ => rfl

/-- 10.2.0.1 is only in 10.0.0.0/8, and the search looks at 10.3.0.0/16 and 10.1.0.0/16. -/
theorem getCountry_misses : ¬∀ (useIPv6 : Bool) (t : Tables useIPv6) (c : Countries) (ip : VmIP),
    t.IsCountry c ip ((t.state c).getCountry useIPv6 ip) := by
  intro hall
  have hcountry : (nested.state Tables.different).getCountry true (.v4 0x0A020001) = [] := by
    decide +kernel
  have hcontains : ∃ n ∈ nested.customers, n.Contains (.v4 0x0A020001) :=
    ⟨_, List.mem_cons_self, by decide +kernel⟩
  obtain ⟨n, code, ⟨i, -, rfl⟩, -, hcode⟩ :=
    (hall true nested Tables.different (.v4 0x0A020001)).customer hcontains
  rw [hcountry] at hcode
  cases hcode

end VoipMonitor.GeoIp
