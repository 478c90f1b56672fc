import VoipMonitor.Model.SipTcpData
import VoipMonitor.Proofs.AddressSearch
import VoipMonitor.Proofs.SipHeaderSearch

/-!
# Messages that come again

A copy that is held back renews the time of its entry. A copy that finds an outdated entry
goes on and leaves the old time there, so that the next one goes on too. With no copy so soon
behind such a one, copies that go on are at least 100 ms apart.
-/

namespace VoipMonitor.SipTcp
open VoipMonitor.Library VoipMonitor.CallsHash
open VoipMonitor.SipHeaderFilter (stringLt)

/-! ## The order of the keys -/

def CacheId.sortKey (a : CacheId) :
    (ℕ ⊕ₗ List ℕ) ×ₗ (ℕ ⊕ₗ List ℕ) ×ₗ ℕ ×ₗ ℕ ×ₗ ℕ ×ₗ ℕ :=
  toLex (a.ipSrc.sortKey, toLex (a.ipDst.sortKey, toLex (a.portSrc.toNat, toLex (a.portDst.toNat,
    toLex (a.ack.toNat, a.seq.toNat)))))

lemma sortKey_injective : Function.Injective CacheId.sortKey := by
  intro a b h
  obtain ⟨hipSrc, h⟩ := Prod.ext_iff.mp (toLex.injective h)
  obtain ⟨hipDst, h⟩ := Prod.ext_iff.mp (toLex.injective h)
  obtain ⟨hportSrc, h⟩ := Prod.ext_iff.mp (toLex.injective h)
  obtain ⟨hportDst, h⟩ := Prod.ext_iff.mp (toLex.injective h)
  obtain ⟨hack, hseq⟩ := Prod.ext_iff.mp (toLex.injective h)
  cases a
  cases b
  rw [CacheId.mk.injEq]
  exact ⟨AddressLists.sortKey_inj hipSrc, AddressLists.sortKey_inj hipDst,
    UInt16.toNat_inj.mp hportSrc, UInt16.toNat_inj.mp hportDst, UInt32.toNat_inj.mp hack,
    UInt32.toNat_inj.mp hseq⟩

lemma lt_iff_sortKey (a b : CacheId) : a.lt b = true ↔ a.sortKey < b.sortKey := by
  have hip (x y : VmIP) : x = y ↔ x.sortKey = y.sortKey :=
    ⟨fun h => by rw [h], AddressLists.sortKey_inj⟩
  simp only [CacheId.sortKey, Prod.Lex.toLex_lt_toLex, ← AddressLists.lt_iff_sortKey, ← hip,
    ← UInt16.lt_iff_toNat_lt, ← UInt32.lt_iff_toNat_lt, UInt16.toNat_inj, UInt32.toNat_inj,
    CacheId.lt, Bool.or_eq_true, Bool.and_eq_true, decide_eq_true_iff]

instance : IsStrictTotalOrder CacheId (fun a b => CacheId.lt a b = true) :=
  SortedMap.isStrictTotalOrder_of_key CacheId.sortKey sortKey_injective lt_iff_sortKey

/-! ## Entries -/

structure Ordered (cache : List (CacheId × CacheData)) : Prop where
  outer : SortedMap.Sorted CacheId.lt cache
  inner : ∀ id data, SortedMap.get id cache = some data → SortedMap.Sorted stringLt data

def stored (cache : List (CacheId × CacheData)) (id : CacheId) (digest : Bytes) : Option Nat :=
  (SortedMap.get id cache).bind (SortedMap.get digest)

section Entries
variable {cache : List (CacheId × CacheData)}

lemma ordered_nil : Ordered [] := ⟨List.Pairwise.nil, fun _ _ h => by cases h⟩

lemma Ordered.set (h : Ordered cache) (id : CacheId) {data : CacheData}
    (hdata : SortedMap.Sorted stringLt data) : Ordered (SortedMap.set CacheId.lt id data cache) where
  outer := h.outer.set id data
  inner id' data' hget := by
    rw [SortedMap.get_set] at hget
    split at hget
    · cases hget
      exact hdata
    · exact h.inner id' data' hget

lemma Ordered.mapped (h : Ordered cache) (cacheTime : Nat) :
    SortedMap.Sorted CacheId.lt (cache.map (fun e =>
      (e.1, e.2.filter (fun x => cacheTime - 5000 ≤ x.2)))) :=
  h.outer.map _ (fun _ => rfl)

lemma get_recent (h : Ordered cache) (cacheTime : Nat) (id : CacheId) :
    SortedMap.get id (SipTcpData.recent cacheTime cache) =
      ((SortedMap.get id cache).map (fun data =>
        data.filter (fun x => cacheTime - 5000 ≤ x.2))).filter (fun data => data ≠ []) := by
  have hget := SortedMap.get_map (fun (_ : CacheId) (data : CacheData) =>
    data.filter (fun x => cacheTime - 5000 ≤ x.2)) id cache
  rw [SipTcpData.recent, (h.mapped cacheTime).get_filter, hget]

lemma Ordered.recent (h : Ordered cache) (cacheTime : Nat) :
    Ordered (SipTcpData.recent cacheTime cache) where
  outer := (h.mapped cacheTime).filter _
  inner id data hget := by
    rw [get_recent h] at hget
    obtain ⟨hmap, -⟩ := Option.filter_eq_some_iff.mp hget
    obtain ⟨data', hdata', rfl⟩ := Option.map_eq_some_iff.mp hmap
    exact (h.inner id data' hdata').filter _

lemma stored_recent (h : Ordered cache) (cacheTime : Nat) (id : CacheId) (digest : Bytes) :
    stored (SipTcpData.recent cacheTime cache) id digest =
      (stored cache id digest).filter (fun time => cacheTime - 5000 ≤ time) := by
  rw [stored, stored, get_recent h]
  cases hget : SortedMap.get id cache with
  | none => rfl
  | some data =>
    have hfilter := (h.inner id data hget).get_filter (fun x => cacheTime - 5000 ≤ x.2) digest
    rw [Option.map_some, Option.bind_some, ← hfilter]
    by_cases hempty : data.filter (fun x => cacheTime - 5000 ≤ x.2) = []
    · rw [hempty, Option.filter_some_neg (by simp)]
      rfl
    · rw [Option.filter_some_pos (by simpa using hempty)]
      rfl

end Entries

/-! ## One message -/

def Apart (a b : Message) : Prop := a.id = b.id → a.content = b.content → a.time + 100 ≤ b.time

instance (a b : Message) : Decidable (Apart a b) :=
  inferInstanceAs (Decidable (a.id = b.id → a.content = b.content → a.time + 100 ≤ b.time))

section Steps
variable (md5 : Bytes → Bytes)

def entry (d : SipTcpData) (m : Message) : Option Nat := stored d.cache m.id (md5 m.content)

structure Renewed (d d' : SipTcpData) (m : Message) : Prop where
  ordered : Ordered d'.cache
  stored_eq : ∀ id digest, stored d'.cache id digest =
    if id = m.id ∧ digest = md5 m.content then some m.time else stored d.cache id digest

variable {md5} {d : SipTcpData} {m : Message}

lemma renewed_set (h : Ordered d.cache) {data : CacheData} (hdata : SortedMap.Sorted stringLt data)
    (hget : ∀ digest, SortedMap.get digest data =
      if digest = md5 m.content then some m.time else stored d.cache m.id digest) :
    Renewed md5 d (d.setCache m.id data) m where
  ordered := h.set m.id hdata
  stored_eq id digest := by
    rw [SipTcpData.setCache, stored, SortedMap.get_set]
    by_cases hid : m.id = id
    · subst hid
      rw [if_pos rfl, Option.bind_some, hget]
      simp only [true_and]
    · rw [if_neg hid, if_neg (fun hand => hid hand.1.symm)]
      rfl

variable (md5) in
lemma renewed_entry (h : Ordered d.cache) {data : CacheData}
    (hdata : SortedMap.get m.id d.cache = some data) :
    Renewed md5 d (d.setCache m.id (SortedMap.set stringLt (md5 m.content) m.time data)) m := by
  refine renewed_set h ((h.inner m.id data hdata).set _ _) (fun digest => ?_)
  rw [SortedMap.get_set, stored, hdata, Option.bind_some]
  by_cases hdigest : digest = md5 m.content
  · rw [if_pos hdigest.symm, if_pos hdigest]
  · rw [if_neg (fun heq => hdigest heq.symm), if_neg hdigest]

variable (md5) in
lemma renewed_map (h : Ordered d.cache) (hnone : SortedMap.get m.id d.cache = none) :
    Renewed md5 d (d.setCache m.id [(md5 m.content, m.time)]) m := by
  refine renewed_set h (List.pairwise_singleton _ _) (fun digest => ?_)
  rw [stored, hnone, Option.bind_none, SortedMap.get]
  by_cases hdigest : digest = md5 m.content
  · rw [if_pos hdigest.symm, if_pos hdigest]
  · rw [if_neg (fun heq => hdigest heq.symm), if_neg hdigest]
    rfl

def shown (m : Message) : List Message := if m.data = [] then [] else [m]

/-- What a message does: it is held back and renews the entry, it finds an entry that is outdated, or
it makes a new one. -/
inductive Outcome (md5 : Bytes → Bytes) (d : SipTcpData) (m : Message) (d' : SipTcpData) : Prop
  | held (time : Nat) (hentry : entry md5 d m = some time) (hlt : m.time < time + 100)
      (hrenewed : Renewed md5 d d' m) (hpassed : d'.passed = d.passed)
  | outdated (time : Nat) (hentry : entry md5 d m = some time) (hle : time + 100 ≤ m.time)
      (hcache : d'.cache = d.cache) (hpassed : d'.passed = d.passed ++ shown m)
  | fresh (hentry : entry md5 d m = none) (hrenewed : Renewed md5 d d' m)
      (hpassed : d'.passed = d.passed ++ shown m)

lemma processMessage_goesOn {d' : SipTcpData} (hcheck : d.checkCache md5 m = (d', true)) :
    (d.processMessage md5 m).cache = d'.cache ∧
      (d.processMessage md5 m).passed = d'.passed ++ shown m := by
  rw [SipTcpData.processMessage, hcheck, shown]
  by_cases hdata : m.data = []
  · rw [if_pos hdata, List.append_nil]
    dsimp only
    rw [if_neg (fun h => h.2 hdata)]
    exact ⟨rfl, rfl⟩
  · rw [if_neg hdata]
    dsimp only
    rw [if_pos ⟨rfl, hdata⟩]
    exact ⟨rfl, rfl⟩

variable (md5 m) in
lemma processMessage_outcome (h : Ordered d.cache) :
    Outcome md5 d m (d.processMessage md5 m) := by
  cases hdata : SortedMap.get m.id d.cache with
  | none =>
    have hcheck : d.checkCache md5 m = (d.setCache m.id [(md5 m.content, m.time)], true) := by
      rw [SipTcpData.checkCache, hdata]
    obtain ⟨hcache, hpassed⟩ := processMessage_goesOn hcheck
    have hrenewed := renewed_map md5 h hdata
    refine .fresh ?_ ⟨by rw [hcache]; exact hrenewed.ordered, ?_⟩ hpassed
    · rw [entry, stored, hdata]
      rfl
    · rw [hcache]
      exact hrenewed.stored_eq
  | some data =>
    have hrenewed := renewed_entry md5 h hdata
    have hentry : entry md5 d m = SortedMap.get (md5 m.content) data := by
      rw [entry, stored, hdata]
      rfl
    cases htime : SortedMap.get (md5 m.content) data with
    | none =>
      have hcheck : d.checkCache md5 m =
          (d.setCache m.id (SortedMap.set stringLt (md5 m.content) m.time data), true) := by
        simp only [SipTcpData.checkCache, hdata, htime]
      obtain ⟨hcache, hpassed⟩ := processMessage_goesOn hcheck
      refine .fresh (hentry.trans htime) ⟨by rw [hcache]; exact hrenewed.ordered, ?_⟩ hpassed
      rw [hcache]
      exact hrenewed.stored_eq
    | some time =>
      by_cases hlt : time + 100 > m.time
      · have hcheck : d.processMessage md5 m =
            d.setCache m.id (SortedMap.set stringLt (md5 m.content) m.time data) := by
          simp only [SipTcpData.processMessage, SipTcpData.checkCache, hdata, htime, if_pos hlt,
            Bool.false_eq_true, false_and, if_false]
        rw [hcheck]
        exact .held time (hentry.trans htime) hlt hrenewed rfl
      · have hcheck : d.checkCache md5 m = (d, true) := by
          simp only [SipTcpData.checkCache, hdata, htime, if_neg hlt]
        obtain ⟨hcache, hpassed⟩ := processMessage_goesOn hcheck
        exact .outdated time (hentry.trans htime) (by omega) hcache hpassed

end Steps

/-! ## Runs -/

/-- The object with the messages that found their entry outdated. -/
structure History where
  d : SipTcpData
  outdated : List Message

def History.new : History := ⟨.new, []⟩

section Runs
variable (md5 : Bytes → Bytes)

def IsOutdated (d : SipTcpData) (m : Message) : Prop :=
  (entry md5 d m).any (fun time => time + 100 ≤ m.time) = true

instance (d : SipTcpData) (m : Message) : Decidable (IsOutdated md5 d m) :=
  inferInstanceAs (Decidable (_ = true))

namespace History

def message (h : History) (m : Message) : History where
  d := h.d.processMessage md5 m
  outdated := if IsOutdated md5 h.d m then h.outdated ++ [m] else h.outdated

def messages (h : History) (l : List Message) : History := l.foldl (message md5) h

def call (h : History) (c : Call) : History :=
  let h' := h.messages md5 c.messages
  { h' with d := h'.d.cleanupCache c.cacheTime }

/-- No message comes less than 100 ms behind a copy that found its entry outdated. -/
def FineMessages : History → List Message → Prop
  | _, [] => True
  | h, m :: l => (∀ a ∈ h.outdated, Apart a m) ∧ FineMessages (h.message md5 m) l

def FineRun : History → List Call → Prop
  | _, [] => True
  | h, c :: calls => h.FineMessages md5 c.messages ∧ FineRun (h.call md5 c) calls

instance decidableFineMessages : (h : History) → (l : List Message) →
    Decidable (h.FineMessages md5 l)
  | _, [] => .isTrue trivial
  | h, m :: l =>
    have := decidableFineMessages (h.message md5 m) l
    inferInstanceAs (Decidable ((∀ a ∈ h.outdated, Apart a m) ∧ FineMessages md5 (h.message md5 m) l))

instance decidableFineRun : (h : History) → (calls : List Call) → Decidable (h.FineRun md5 calls)
  | _, [] => .isTrue trivial
  | h, c :: calls =>
    have := decidableFineRun (h.call md5 c) calls
    inferInstanceAs (Decidable (h.FineMessages md5 c.messages ∧ FineRun md5 (h.call md5 c) calls))

/-- Each message that went on has an entry as late as it, found an entry outdated or is 100 ms old, and
they are apart. -/
structure Kept (h : History) (now : Nat) : Prop where
  ordered : Ordered h.d.cache
  past : ∀ a ∈ h.d.passed, a.time ≤ now
  fate : ∀ a ∈ h.d.passed, (∃ time, entry md5 h.d a = some time ∧ a.time ≤ time) ∨ a ∈ h.outdated ∨
    a.time + 100 ≤ now
  apart : h.d.passed.Pairwise Apart

variable {md5} {h : History} {now : Nat} {m : Message}

lemma kept_new : Kept md5 .new 0 where
  ordered := ordered_nil
  past a ha := by cases ha
  fate a ha := by cases ha
  apart := List.Pairwise.nil

lemma entry_renewed {d d' : SipTcpData} (hrenewed : Renewed md5 d d' m) {a : Message} {time : Nat}
    (hentry : entry md5 d a = some time) :
    (a.id = m.id ∧ md5 a.content = md5 m.content ∧ entry md5 d' a = some m.time) ∨
      entry md5 d' a = some time := by
  have hstored := hrenewed.stored_eq a.id (md5 a.content)
  split at hstored
  · rename_i hsame
    exact Or.inl ⟨hsame.1, hsame.2, hstored⟩
  · exact Or.inr (hstored.trans hentry)

lemma Kept.apart_message (hkept : Kept md5 h now) (hnow : now ≤ m.time)
    (hfine : ∀ a ∈ h.outdated, Apart a m)
    (hentry : ∀ time, entry md5 h.d m = some time → time + 100 ≤ m.time) :
    ∀ a ∈ h.d.passed, Apart a m := by
  intro a ha
  rcases hkept.fate a ha with ⟨time, htime, hle⟩ | houtdated | hold
  · intro hid hcontent
    have hsame : entry md5 h.d m = some time := by
      rw [entry, ← hid, ← hcontent]
      exact htime
    have hexpired := hentry time hsame
    omega
  · exact hfine a houtdated
  · intro _ _
    omega

lemma pairwise_shown {l : List Message} (hl : l.Pairwise Apart) (hm : ∀ a ∈ l, Apart a m) :
    (l ++ shown m).Pairwise Apart := by
  unfold shown
  split
  · rwa [List.append_nil]
  · refine List.pairwise_append.mpr ⟨hl, List.pairwise_singleton _ _, fun a ha b hb => ?_⟩
    rw [List.mem_singleton.mp hb]
    exact hm a ha

lemma mem_passed_shown {l : List Message} {a : Message} (ha : a ∈ l ++ shown m) :
    a ∈ l ∨ a = m := by
  rcases List.mem_append.mp ha with ha | ha
  · exact Or.inl ha
  · unfold shown at ha
    split at ha
    · cases ha
    · exact Or.inr (List.mem_singleton.mp ha)

lemma Kept.fate_renewed (hkept : Kept md5 h now) (hnow : now ≤ m.time) {h' : History}
    (hrenewed : Renewed md5 h.d h'.d m) (hstill : ∀ a ∈ h.outdated, a ∈ h'.outdated)
    {a : Message} (ha : a ∈ h.d.passed) :
    (∃ time, entry md5 h'.d a = some time ∧ a.time ≤ time) ∨ a ∈ h'.outdated ∨
      a.time + 100 ≤ m.time := by
  rcases hkept.fate a ha with ⟨time, htime, hle⟩ | houtdated | hold
  · rcases entry_renewed hrenewed htime with ⟨-, -, hnew⟩ | hsame
    · exact Or.inl ⟨m.time, hnew, (hkept.past a ha).trans hnow⟩
    · exact Or.inl ⟨time, hsame, hle⟩
  · exact Or.inr (Or.inl (hstill a houtdated))
  · exact Or.inr (Or.inr (by omega))

lemma past_shown (hkept : Kept md5 h now) (hnow : now ≤ m.time) :
    ∀ a ∈ h.d.passed ++ shown m, a.time ≤ m.time := by
  intro a ha
  rcases mem_passed_shown ha with ha | rfl
  · exact (hkept.past a ha).trans hnow
  · exact le_rfl

lemma Kept.message (hkept : Kept md5 h now) (hnow : now ≤ m.time)
    (hfine : ∀ a ∈ h.outdated, Apart a m) : Kept md5 (h.message md5 m) m.time := by
  have hstill (a : Message) (ha : a ∈ h.outdated) : a ∈ (h.message md5 m).outdated := by
    change a ∈ if IsOutdated md5 h.d m then h.outdated ++ [m] else h.outdated
    split
    · exact List.mem_append_left _ ha
    · exact ha
  rcases processMessage_outcome md5 m hkept.ordered with
    ⟨time, hentry, hlt, hrenewed, hpassed⟩ | ⟨time, hentry, hle, hcache, hpassed⟩ |
    ⟨hentry, hrenewed, hpassed⟩
  · have hpassed' : (h.message md5 m).d.passed = h.d.passed := hpassed
    refine ⟨hrenewed.ordered, ?_, ?_, ?_⟩
    · rw [hpassed']
      exact fun a ha => (hkept.past a ha).trans hnow
    · rw [hpassed']
      exact fun a ha => hkept.fate_renewed hnow hrenewed hstill ha
    · rw [hpassed']
      exact hkept.apart
  · have hpassed' : (h.message md5 m).d.passed = h.d.passed ++ shown m := hpassed
    have hentry_eq (a : Message) : entry md5 (h.message md5 m).d a = entry md5 h.d a :=
      congrArg (fun cache => stored cache a.id (md5 a.content)) hcache
    have hnew : m ∈ (h.message md5 m).outdated := by
      have houtdated : IsOutdated md5 h.d m := by
        rw [IsOutdated, hentry]
        exact decide_eq_true hle
      change m ∈ if IsOutdated md5 h.d m then h.outdated ++ [m] else h.outdated
      rw [if_pos houtdated]
      exact List.mem_append_right _ List.mem_cons_self
    refine ⟨hcache ▸ hkept.ordered, ?_, ?_, ?_⟩
    · rw [hpassed']
      exact past_shown hkept hnow
    · rw [hpassed']
      intro a ha
      rcases mem_passed_shown ha with ha | rfl
      · rw [hentry_eq]
        rcases hkept.fate a ha with hstored | houtdated | hold
        · exact Or.inl hstored
        · exact Or.inr (Or.inl (hstill a houtdated))
        · exact Or.inr (Or.inr (by omega))
      · exact Or.inr (Or.inl hnew)
    · rw [hpassed']
      refine pairwise_shown hkept.apart (hkept.apart_message hnow hfine fun t ht => ?_)
      obtain rfl := Option.some.inj (hentry.symm.trans ht)
      exact hle
  · have hpassed' : (h.message md5 m).d.passed = h.d.passed ++ shown m := hpassed
    refine ⟨hrenewed.ordered, ?_, ?_, ?_⟩
    · rw [hpassed']
      exact past_shown hkept hnow
    · rw [hpassed']
      intro a ha
      rcases mem_passed_shown ha with ha | rfl
      · exact hkept.fate_renewed hnow hrenewed hstill ha
      · have hnew := hrenewed.stored_eq a.id (md5 a.content)
        rw [if_pos ⟨rfl, rfl⟩] at hnew
        exact Or.inl ⟨a.time, hnew, le_rfl⟩
    · rw [hpassed']
      refine pairwise_shown hkept.apart (hkept.apart_message hnow hfine fun t ht => ?_)
      rw [hentry] at ht
      cases ht

lemma Kept.cleanup (hkept : Kept md5 h now) {cacheTime : Nat} (hle : cacheTime ≤ now) :
    Kept md5 ⟨h.d.cleanupCache cacheTime, h.outdated⟩ now := by
  rw [SipTcpData.cleanupCache]
  split
  · exact ⟨hkept.ordered, hkept.past, hkept.fate, hkept.apart⟩
  · split
    · refine ⟨hkept.ordered.recent cacheTime, hkept.past, fun a ha => ?_, hkept.apart⟩
      rcases hkept.fate a ha with ⟨time, htime, hat⟩ | hrest
      · have hstored := stored_recent hkept.ordered cacheTime a.id (md5 a.content)
        have htime' : stored h.d.cache a.id (md5 a.content) = some time := htime
        by_cases hrecent : cacheTime - 5000 ≤ time
        · rw [htime', Option.filter_some_pos (by simpa using hrecent)] at hstored
          exact Or.inl ⟨time, hstored, hat⟩
        · exact Or.inr (Or.inr (by omega))
      · exact Or.inr hrest
    · exact hkept

lemma Kept.messages {l : List Message} (hkept : Kept md5 h now)
    (htimes : (l.map Message.time).Pairwise (· ≤ ·)) (hnow : ∀ m ∈ l, now ≤ m.time)
    (hfine : h.FineMessages md5 l) :
    Kept md5 (h.messages md5 l) ((l.getLast?.map Message.time).getD now) := by
  induction l generalizing h now with
  | nil => exact hkept
  | cons m l ih =>
    rw [List.map_cons, List.pairwise_cons] at htimes
    have hrest := ih (hkept.message (hnow m List.mem_cons_self) hfine.1) htimes.2
      (fun a ha => htimes.1 a.time (List.mem_map_of_mem ha)) hfine.2
    cases l with
    | nil => exact hrest
    | cons m' l =>
      rw [List.getLast?_cons_cons]
      rw [List.getLast?_eq_some_getLast (List.cons_ne_nil m' l)] at hrest ⊢
      exact hrest

def lastTime (l : List Message) (now : Nat) : Nat := (l.getLast?.map Message.time).getD now

lemma lastTime_le {l l' : List Message}
    (htimes : ((l ++ l').map Message.time).Pairwise (· ≤ ·)) (hnow : ∀ m ∈ l ++ l', now ≤ m.time) :
    ∀ m ∈ l', lastTime l now ≤ m.time := by
  intro m hm
  cases hlast : l.getLast? with
  | none =>
    rw [lastTime, hlast]
    exact hnow m (List.mem_append_right _ hm)
  | some a =>
    rw [List.map_append, List.pairwise_append] at htimes
    rw [lastTime, hlast]
    exact htimes.2.2 a.time (List.mem_map_of_mem (List.mem_of_getLast? hlast)) m.time
      (List.mem_map_of_mem hm)

lemma Kept.call {c : Call} (hkept : Kept md5 h now)
    (htimes : (c.messages.map Message.time).Pairwise (· ≤ ·)) (hnow : ∀ m ∈ c.messages, now ≤ m.time)
    (hfine : h.FineMessages md5 c.messages) :
    Kept md5 (h.call md5 c) (lastTime c.messages now) := by
  refine (hkept.messages htimes hnow hfine).cleanup ?_
  rw [Call.cacheTime]
  cases c.messages.getLast? with
  | none => exact Nat.zero_le _
  | some m => exact le_rfl

lemma Kept.calls {calls : List Call} (hkept : Kept md5 h now)
    (htimes : ((calls.flatMap Call.messages).map Message.time).Pairwise (· ≤ ·))
    (hnow : ∀ m ∈ calls.flatMap Call.messages, now ≤ m.time) (hfine : h.FineRun md5 calls) :
    ∃ now', Kept md5 (calls.foldl (History.call md5) h) now' := by
  induction calls generalizing h now with
  | nil => exact ⟨now, hkept⟩
  | cons c calls ih =>
    rw [List.flatMap_cons] at htimes hnow
    have hlater := lastTime_le htimes hnow
    rw [List.map_append, List.pairwise_append] at htimes
    exact ih (hkept.call htimes.1 (fun m hm => hnow m (List.mem_append_left _ hm)) hfine.1)
      htimes.2.1 hlater hfine.2

lemma d_messages (h : History) (l : List Message) :
    (h.messages md5 l).d = l.foldl (SipTcpData.processMessage md5) h.d := by
  induction l generalizing h with
  | nil => rfl
  | cons m l ih => exact ih (h.message md5 m)

variable (md5) in
lemma d_calls (h : History) (calls : List Call) :
    (calls.foldl (History.call md5) h).d = calls.foldl (SipTcpData.processData md5) h.d := by
  induction calls generalizing h with
  | nil => rfl
  | cons c calls ih =>
    have hcall : (h.call md5 c).d = h.d.processData md5 c :=
      congrArg (fun d => d.cleanupCache c.cacheTime) (d_messages h c.messages)
    rw [List.foldl_cons, List.foldl_cons, ih, hcall]

end History

end Runs

/-- The messages come in the order of their times. -/
def InTime (calls : List Call) : Prop :=
  ((calls.flatMap Call.messages).map Message.time).Pairwise (· ≤ ·)

instance (calls : List Call) : Decidable (InTime calls) :=
  inferInstanceAs (Decidable (List.Pairwise (· ≤ ·) _))

/-- The messages that the calls pass on are apart. -/
def PassedApart (md5 : Bytes → Bytes) (calls : List Call) : Prop :=
  (calls.foldl (SipTcpData.processData md5) .new).passed.Pairwise Apart

/-- With no message less than 100 ms behind a copy that found its entry outdated, the same message is
passed on at most every 100 ms. -/
theorem passedApart_of_fineRun (md5 : Bytes → Bytes) {calls : List Call} (htimes : InTime calls)
    (hfine : History.new.FineRun md5 calls) : PassedApart md5 calls := by
  obtain ⟨now, hkept⟩ := History.kept_new.calls htimes (fun m _ => Nat.zero_le _) hfine
  have hd := History.d_calls md5 History.new calls
  rw [PassedApart]
  exact hd ▸ hkept.apart

def repeated (times : List Nat) : List Call :=
  times.map (fun time =>
    { ipSrc := .v4 1, ipDst := .v4 2, portSrc := 5060, portDst := 5061
      data := [⟨some [79, 75], true, time, 7, 8⟩], sipOffsets := [(0, 2)] })

theorem passedApart_repeated : InTime (repeated [1000, 1050, 1300, 1450]) ∧
    History.new.FineRun id (repeated [1000, 1050, 1300, 1450]) ∧
    PassedApart id (repeated [1000, 1050, 1300, 1450]) :=
  ⟨by decide, by decide, passedApart_of_fineRun id (by decide) (by decide)⟩

/-- The second copy comes when the entry is outdated and does not renew it, so that the third one
goes on 50 ms later. -/
theorem not_passedApart_repeated : ¬∀ (md5 : Bytes → Bytes) (calls : List Call),
    InTime calls → PassedApart md5 calls := by
  intro h
  have hpassed := h id (repeated [1000, 1200, 1250]) (by decide)
  exact absurd hpassed (by unfold PassedApart; decide)

end VoipMonitor.SipTcp
