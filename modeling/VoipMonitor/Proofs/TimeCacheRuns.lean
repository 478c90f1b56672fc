import Mathlib
import VoipMonitor.Model.TimeCache

/-!
# Cached and uncached conversions

As long as all answers are right, every entry was made from a timestamp and its fields in the zone
of the cache. Such an entry answers for all of its quarter when the quarters of the zone are those
of the timestamps.
-/

namespace VoipMonitor.TimeCache
open VoipMonitor.Library

/-! ## Quarters -/

section Quarters
variable {offset t t₀ : Int}

def localQuarter (offset t : Int) : Int := (t + offset) / 900

lemma quarterOf_eq (h : 900 ≤ t) : quarterOf t = t / 900 := by
  unfold quarterOf
  rw [Int.tdiv_eq_ediv_of_nonneg (by omega)]
  rfl

lemma min_div (n : Int) : (n % 3600 / 60).tdiv 15 = n % 3600 / 900 := by
  rw [Int.tdiv_eq_ediv_of_nonneg (by omega)]
  omega

lemma localtime_eq_of_quarter (h : localQuarter offset t = localQuarter offset t₀) :
    localtime offset t =
      { localtime offset t₀ with
        min := (localtime offset t₀).min.tdiv 15 * 15 + (t + offset) % 900 / 60
        sec := (t + offset) % 60 } := by
  unfold localQuarter at h
  have hday : (t + offset) / 86400 = (t₀ + offset) / 86400 := by omega
  have hhour : (t + offset) % 86400 / 3600 = (t₀ + offset) % 86400 / 3600 := by omega
  have hmin : (t + offset) % 3600 / 60 =
      (t₀ + offset) % 3600 / 900 * 15 + (t + offset) % 900 / 60 := by omega
  unfold localtime Calendar.ofSeconds
  rw [min_div, hday, hhour, hmin]

lemma localQuarter_of_key
    (h : fieldsKey (localtime offset t) = fieldsKey (localtime offset t₀)) :
    localQuarter offset t = localQuarter offset t₀ := by
  have hm := Calendar.civilMonth_bounds ((t + offset) / 86400)
  have hm₀ := Calendar.civilMonth_bounds ((t₀ + offset) / 86400)
  have hd := Calendar.civilDay_bounds ((t + offset) / 86400)
  have hd₀ := Calendar.civilDay_bounds ((t₀ + offset) / 86400)
  have hday := Calendar.daysFromCivil_civil ((t + offset) / 86400)
  have hday₀ := Calendar.daysFromCivil_civil ((t₀ + offset) / 86400)
  unfold fieldsKey localtime Calendar.ofSeconds at h
  dsimp only at h
  rw [min_div, min_div] at h
  have hq : (t + offset) % 3600 / 900 = (t₀ + offset) % 3600 / 900 := by omega
  have hhour : (t + offset) % 86400 / 3600 = (t₀ + offset) % 86400 / 3600 := by omega
  have hmday : Calendar.civilDay ((t + offset) / 86400) =
    Calendar.civilDay ((t₀ + offset) / 86400) := by omega
  have hmon : Calendar.civilMonth ((t + offset) / 86400) =
    Calendar.civilMonth ((t₀ + offset) / 86400) := by omega
  have hyear : Calendar.civilYear ((t + offset) / 86400) =
    Calendar.civilYear ((t₀ + offset) / 86400) := by omega
  have hsame : (t + offset) / 86400 = (t₀ + offset) / 86400 := by
    rw [← hday, ← hday₀, hyear, hmon, hmday]
  unfold localQuarter
  omega

lemma fieldsKey_ne_zero : fieldsKey (localtime offset t) ≠ 0 := by
  have hd := Calendar.civilDay_bounds ((t + offset) / 86400)
  unfold fieldsKey localtime Calendar.ofSeconds
  dsimp only
  rw [min_div]
  omega

end Quarters

/-! ## Entries -/

section Entries
variable {offset t t₀ : Int}

lemma toU16_eq {n : Int} (h : 0 ≤ n) (h' : n < 2 ^ 16) : toU16 n = n := Int.emod_eq_of_lt h h'

lemma toInt32_eq {n : Int} (h : 0 ≤ n) (h' : n < 2 ^ 31) : toInt32 n = n := by
  unfold toInt32
  rw [Int.bmod_eq_of_le (by omega) (by omega)]

lemma setTime_getTime (ht : 900 ≤ t) :
    (CacheItem.setTime t₀ (localtime offset t₀)).getTime t =
      { localtime offset t₀ with
        year := toU16 (localtime offset t₀).year
        min := (localtime offset t₀).min.tdiv 15 * 15 + t % 900 / 60
        sec := t % 900 % 60 } := by
  have hm := Calendar.civilMonth_bounds ((t₀ + offset) / 86400)
  have hd := Calendar.civilDay_bounds ((t₀ + offset) / 86400)
  have hy := Calendar.dayOfCivilYear_bounds ((t₀ + offset) / 86400)
  have hsec : toU64 (t.tmod (15 * 60)) = t % 900 := by
    rw [Int.tmod_eq_emod_of_nonneg (by omega)]
    unfold toU64
    omega
  unfold CacheItem.getTime CacheItem.setTime localtime Calendar.ofSeconds
  dsimp only
  rw [hsec, min_div, Tm.mk.injEq]
  refine ⟨rfl, toU16_eq (by omega) (by omega), toU16_eq (by omega) (by omega),
    toU16_eq (by omega) (by omega), ?_, rfl, toU16_eq (by omega) (by omega),
    toU16_eq (by omega) (by omega), rfl⟩
  rw [toU16_eq (by omega) (by omega), toInt32_eq (by omega) (by omega)]

lemma setTime_getTime_iff (ht : 900 ≤ t) (hquarter : t / 900 = t₀ / 900) :
    (CacheItem.setTime t₀ (localtime offset t₀)).getTime t = localtime offset t ↔
      900 ∣ offset ∧ 0 ≤ (localtime offset t).year ∧ (localtime offset t).year < 2 ^ 16 := by
  rw [setTime_getTime ht]
  constructor
  · intro h
    have hmin := congrArg Tm.min h
    have hsec := congrArg Tm.sec h
    have hyear := congrArg Tm.year h
    dsimp only at hmin hsec hyear
    have haligned : 900 ∣ offset := by
      unfold localtime Calendar.ofSeconds at hmin hsec
      dsimp only at hmin hsec
      rw [min_div] at hmin
      omega
    refine ⟨haligned, ?_⟩
    unfold toU16 at hyear
    omega
  · rintro ⟨⟨k, rfl⟩, hyear⟩
    have hlocal : localQuarter (900 * k) t = localQuarter (900 * k) t₀ := by
      unfold localQuarter
      omega
    have hsame := localtime_eq_of_quarter hlocal
    have hyear₀ : (localtime (900 * k) t).year = (localtime (900 * k) t₀).year := by rw [hsame]
    have hmin : (t + 900 * k) % 900 = t % 900 := Int.add_mul_emod_self_left t 900 k
    have hsec : (t + 900 * k) % 60 = t % 900 % 60 := by omega
    rw [hyear₀] at hyear
    rw [hsame, toU16_eq hyear.1 hyear.2, hmin, hsec]

lemma setTime_getTimestamp_iff (ht₀ : 900 ≤ t₀)
    (hquarter : localQuarter offset t = localQuarter offset t₀) :
    (CacheItem.setTime t₀ (localtime offset t₀)).getTimestamp (localtime offset t) = t ↔
      900 ∣ offset := by
  unfold localQuarter at hquarter
  unfold CacheItem.getTimestamp CacheItem.setTime localtime Calendar.ofSeconds
  dsimp only
  rw [quarterOf_eq ht₀, min_div, toU16_eq (by omega) (by omega)]
  omega

end Entries

/-! ## Runs -/

section Runs
variable {zones : Zones} {c : CacheItems}

/-- The answer of an operation is that of the zone of the cache. -/
def Right (zones : Zones) (c : CacheItems) : Op → Prop
  | .getTime t => (c.getTime zones t).1 = localtime (c.zoneOffset zones) t
  | .getTimestamp t => (c.getTimestamp zones (localtime (c.zoneOffset zones) t)).1 = t

/-- The cache has an entry for the operation. -/
def Cached (zones : Zones) (c : CacheItems) : Op → Prop
  | .getTime t => ∃ i ∈ c.cacheItems, quarterOf t = i.timestampYmdhm15
  | .getTimestamp t =>
    ∃ i ∈ c.cacheItems, fieldsKey (localtime (c.zoneOffset zones) t) = i.ymdhm15

/-- An entry is used only if the offset of the zone is a number of quarters and, for the fields,
the year fits into 16 bits. `mktime` is used only if its zone is that of the cache. -/
def Fits (zones : Zones) (c : CacheItems) : Op → Prop
  | .getTime t => Cached zones c (.getTime t) →
      900 ∣ c.zoneOffset zones ∧ 0 ≤ (localtime (c.zoneOffset zones) t).year ∧
        (localtime (c.zoneOffset zones) t).year < 2 ^ 16
  | .getTimestamp t =>
      (Cached zones c (.getTimestamp t) → 900 ∣ c.zoneOffset zones) ∧
      (¬Cached zones c (.getTimestamp t) → c.tzOffset zones = c.zoneOffset zones)

/-- An entry was never set or has the fields of a timestamp. -/
def Honest (zones : Zones) (c : CacheItems) : Prop :=
  ∀ i ∈ c.cacheItems, i = {} ∨
    ∃ t₀, 900 ≤ t₀ ∧ i = CacheItem.setTime t₀ (localtime (c.zoneOffset zones) t₀)

lemma honest_create (zones : Zones) (gmt : Bool) (timezone : String) :
    Honest zones (CacheItems.create gmt timezone) := by
  intro i hi
  exact Or.inl (List.eq_of_mem_replicate hi)

lemma Honest.addToCache (h : Honest zones c) (t : Timestamp) :
    Honest zones (c.addToCache t (localtime (c.zoneOffset zones) t)) := by
  intro i hi
  rcases List.mem_or_eq_of_mem_set hi with hi | rfl
  · exact h i hi
  · exact Or.inr ⟨t, t.2, rfl⟩

section Find
variable {key : CacheItem → Int} {items : List CacheItem} {k : Int}

lemma find?_key_eq_none (h : ¬∃ i ∈ items, k = key i) :
    items.find? (fun i => k == key i) = none := by
  rw [List.find?_eq_none]
  intro i hi heq
  exact h ⟨i, hi, beq_iff_eq.mp heq⟩

lemma find?_key_eq_some (h : ∃ i ∈ items, k = key i) :
    ∃ j ∈ items, k = key j ∧ items.find? (fun i => k == key i) = some j := by
  obtain ⟨i, hi, hkey⟩ := h
  have hsome : (items.find? (fun i => k == key i)).isSome := by
    rw [List.find?_isSome]
    exact ⟨i, hi, beq_iff_eq.mpr hkey⟩
  obtain ⟨j, hj⟩ := Option.isSome_iff_exists.mp hsome
  exact ⟨j, List.mem_of_find?_eq_some hj, by simpa using List.find?_some hj, hj⟩

end Find

lemma getTime_of_not_cached {t : Timestamp} (h : ¬Cached zones c (.getTime t)) :
    c.getTime zones t = (localtime (c.zoneOffset zones) t,
      c.addToCache t (localtime (c.zoneOffset zones) t)) := by
  rw [CacheItems.getTime, find?_key_eq_none h, CacheItems.zoneOffset]
  cases c.gmt <;> rfl

lemma getTimestamp_of_not_cached {t : Timestamp} (h : ¬Cached zones c (.getTimestamp t)) :
    c.getTimestamp zones (localtime (c.zoneOffset zones) t) =
      (t + c.zoneOffset zones - c.tzOffset zones,
        c.addToCache (t + c.zoneOffset zones - c.tzOffset zones)
          (localtime (c.tzOffset zones) (t + c.zoneOffset zones - c.tzOffset zones))) := by
  have hsecond : Calendar.toSeconds (localtime (c.zoneOffset zones) t) =
      t + c.zoneOffset zones := Calendar.toSeconds_ofSeconds _
  rw [CacheItems.getTimestamp, find?_key_eq_none h]
  dsimp only [mktime]
  rw [hsecond]

lemma Honest.getTime_of_cached (h : Honest zones c) {t : Timestamp}
    (hcached : Cached zones c (.getTime t)) :
    ∃ t₀, (t : Int) / 900 = t₀ / 900 ∧
      c.getTime zones t =
        ((CacheItem.setTime t₀ (localtime (c.zoneOffset zones) t₀)).getTime t, c) := by
  obtain ⟨j, hmem, hquarter, hj⟩ := find?_key_eq_some hcached
  rw [quarterOf_eq t.2] at hquarter
  rcases h j hmem with rfl | ⟨t₀, ht₀, rfl⟩
  · dsimp only at hquarter
    omega
  · refine ⟨t₀, ?_, by rw [CacheItems.getTime, hj]⟩
    rw [hquarter]
    exact quarterOf_eq ht₀

lemma Honest.getTimestamp_of_cached (h : Honest zones c) {t : Timestamp}
    (hcached : Cached zones c (.getTimestamp t)) :
    ∃ t₀, 900 ≤ t₀ ∧
      localQuarter (c.zoneOffset zones) t = localQuarter (c.zoneOffset zones) t₀ ∧
      c.getTimestamp zones (localtime (c.zoneOffset zones) t) =
        ((CacheItem.setTime t₀ (localtime (c.zoneOffset zones) t₀)).getTimestamp
          (localtime (c.zoneOffset zones) t), c) := by
  obtain ⟨j, hmem, hsame, hj⟩ := find?_key_eq_some hcached
  rcases h j hmem with rfl | ⟨t₀, ht₀, rfl⟩
  · exact absurd hsame fieldsKey_ne_zero
  · exact ⟨t₀, ht₀, localQuarter_of_key hsame, by rw [CacheItems.getTimestamp, hj]⟩

lemma Honest.right_iff (h : Honest zones c) (op : Op) : Right zones c op ↔ Fits zones c op := by
  cases op with
  | getTime t =>
    by_cases hcached : Cached zones c (.getTime t)
    · obtain ⟨t₀, hquarter, hget⟩ := h.getTime_of_cached hcached
      rw [Right, Fits, hget, setTime_getTime_iff t.2 hquarter]
      exact ⟨fun hfits _ => hfits, fun hfits => hfits hcached⟩
    · rw [Right, Fits, getTime_of_not_cached hcached]
      exact iff_of_true rfl (fun hc => absurd hc hcached)
  | getTimestamp t =>
    by_cases hcached : Cached zones c (.getTimestamp t)
    · obtain ⟨t₀, ht₀, hquarter, hget⟩ := h.getTimestamp_of_cached hcached
      rw [Right, Fits, hget, setTime_getTimestamp_iff ht₀ hquarter]
      exact ⟨fun hfits => ⟨fun _ => hfits, fun hc => absurd hcached hc⟩,
        fun hfits => hfits.1 hcached⟩
    · rw [Right, Fits, getTimestamp_of_not_cached hcached]
      constructor
      · intro heq
        exact ⟨fun hc => absurd hc hcached, fun _ => by omega⟩
      · intro hfits
        have hzone := hfits.2 hcached
        omega

lemma Honest.step (h : Honest zones c) (op : Op) (hright : Right zones c op) :
    Honest zones (step zones c op) := by
  cases op with
  | getTime t =>
    by_cases hcached : Cached zones c (.getTime t)
    · obtain ⟨t₀, -, hget⟩ := h.getTime_of_cached hcached
      rw [TimeCache.step, hget]
      exact h
    · rw [TimeCache.step, getTime_of_not_cached hcached]
      exact h.addToCache t
  | getTimestamp t =>
    by_cases hcached : Cached zones c (.getTimestamp t)
    · obtain ⟨t₀, -, -, hget⟩ := h.getTimestamp_of_cached hcached
      rw [TimeCache.step, hget]
      exact h
    · have hzone : c.tzOffset zones = c.zoneOffset zones :=
        ((h.right_iff _).mp hright).2 hcached
      rw [TimeCache.step, getTimestamp_of_not_cached hcached, hzone, add_sub_cancel_right]
      exact h.addToCache t

end Runs

/-- All answers of a sequence of calls are right exactly when each call fits the cache. -/
theorem timeCache_right_iff (zones : Zones) (gmt : Bool) (timezone : String) (ops : List Op) :
    AlongRun (step zones) (Right zones) (CacheItems.create gmt timezone) ops ↔
      AlongRun (step zones) (Fits zones) (CacheItems.create gmt timezone) ops :=
  alongRun_iff (I := Honest zones) (fun _ op h => h.right_iff op) (fun _ op h => h.step op) ops
    (honest_create zones gmt timezone)

/-- With a local time one hour ahead the cache for GMT converts fields as local time, and gives
the fields of another timestamp back afterwards. -/
theorem timeCache_gmt_uses_local :
    let zones : Zones := ⟨3600, fun _ => 0⟩
    let c := CacheItems.create true ""
    (c.getTimestamp zones (localtime 0 3600000)).1 = 3596400 ∧
    ((step zones c (.getTimestamp ⟨3600000, by norm_num⟩)).getTime zones 3596400).1 ≠
      localtime 0 3596400 ∧
    ¬Right zones c (.getTimestamp ⟨3600000, by norm_num⟩) := by
  refine ⟨by decide, by decide, ?_⟩
  unfold Right
  decide

end VoipMonitor.TimeCache
