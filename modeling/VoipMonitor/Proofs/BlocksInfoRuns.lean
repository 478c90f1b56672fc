import VoipMonitor.Library.Runs
import VoipMonitor.Proofs.DequeueOrder

/-!
# Runs of the table of blocks

The operations of the write thread keep the two lists and the heap. The times are those of the used
blocks after each recomputation, except that a time 0 counts as not set: what is the first time so
far is forgotten. An insert compares them with the new block only, so the first time may be that
of a block which has moved on.
-/

namespace VoipMonitor.Dequeue
open VoipMonitor.Library

/-- The states after any operations on a new table. -/
def BlocksInfo.Reachable (blockInfoMax : Nat) (s : BlocksInfo) : Prop :=
  ReachBy BlocksInfo.step (fun _ _ => True) (BlocksInfo.init blockInfoMax) s

def IsFirst (times : List Nat) (t : Nat) : Prop :=
  times = [] ∧ t = 0 ∨ t ∈ times ∧ ∀ u ∈ times, t ≤ u

def IsLast (times : List Nat) (t : Nat) : Prop :=
  times = [] ∧ t = 0 ∨ t ∈ times ∧ ∀ u ∈ times, u ≤ t

def IsFirstSet (times : List Nat) (t : Nat) : Prop :=
  ∃ front back, times = front ++ back ∧ (front = [] ∨ front.getLast? = some 0) ∧ 0 ∉ back ∧
    IsFirst back t

def BlocksInfo.usedTimes (s : BlocksInfo) (f : BlockInfo → Nat) : List Nat :=
  s.getUsed.map (fun i => f (s.blocks i))

/-- The times of the table are those of its used blocks. -/
structure BlocksInfo.TimesExact (s : BlocksInfo) : Prop where
  utimeFirst : IsFirst (s.usedTimes BlockInfo.utimeFirst) s.utimeFirst
  utimeLast : IsLast (s.usedTimes BlockInfo.utimeLast) s.utimeLast
  atFirst : IsFirst (s.usedTimes BlockInfo.atTime) s.atFirst
  atLast : IsLast (s.usedTimes BlockInfo.atTime) s.atLast

/-- The same, where a time 0 is not set. -/
structure BlocksInfo.TimesSet (s : BlocksInfo) : Prop where
  utimeFirst : IsFirstSet (s.usedTimes BlockInfo.utimeFirst) s.utimeFirst
  utimeLast : IsLast (s.usedTimes BlockInfo.utimeLast) s.utimeLast
  atFirst : IsFirstSet (s.usedTimes BlockInfo.atTime) s.atFirst
  atLast : IsLast (s.usedTimes BlockInfo.atTime) s.atLast

/-- What `update_times` makes of a first time. -/
def firstTime (t u : Nat) : Nat := if t = 0 ∨ u < t then u else t

/-- The times behind the `update_times` of an insert into `s`. -/
structure BlocksInfo.TimesNoted (s : BlocksInfo) (data : BlockInfo) (t : BlocksInfo) : Prop where
  utimeFirst : t.utimeFirst = firstTime s.utimeFirst data.utimeFirst
  utimeFirst_exact : 0 ∉ t.usedTimes BlockInfo.utimeFirst →
    IsFirst (s.usedTimes BlockInfo.utimeFirst) s.utimeFirst →
    IsFirst (t.usedTimes BlockInfo.utimeFirst) t.utimeFirst
  utimeLast : IsLast (t.usedTimes BlockInfo.utimeLast) t.utimeLast
  atFirst : 0 ∉ t.usedTimes BlockInfo.atTime → IsFirst (t.usedTimes BlockInfo.atTime) t.atFirst
  atLast : IsLast (t.usedTimes BlockInfo.atTime) t.atLast

/-- The times that a change of the minimum leaves as they are. -/
structure BlocksInfo.TimesKept (s : BlocksInfo) : Prop where
  utimeLast : IsLast (s.usedTimes BlockInfo.utimeLast) s.utimeLast
  atFirst : 0 ∉ s.usedTimes BlockInfo.atTime → IsFirst (s.usedTimes BlockInfo.atTime) s.atFirst
  atLast : IsLast (s.usedTimes BlockInfo.atTime) s.atLast

variable {times : List Nat} {t u : Nat} {s : BlocksInfo} {used free : List Nat}

lemma IsFirst.cons (h : IsFirst times t) (hset : 0 ∉ u :: times) :
    IsFirst (u :: times) (firstTime t u) := by
  right
  unfold firstTime
  rcases h with ⟨rfl, rfl⟩ | ⟨hmem, hle⟩
  · rw [if_pos (Or.inl rfl)]
    exact ⟨List.mem_cons_self, fun v hv => (List.mem_singleton.mp hv).ge⟩
  · have hpos : t ≠ 0 := fun ht => hset (ht ▸ List.mem_cons_of_mem u hmem)
    split
    · rename_i hless
      refine ⟨List.mem_cons_self, List.forall_mem_cons.mpr ⟨le_rfl, fun v hv => ?_⟩⟩
      have := hle v hv
      omega
    · refine ⟨List.mem_cons_of_mem u hmem, List.forall_mem_cons.mpr ⟨by omega, hle⟩⟩

lemma IsLast.cons (h : IsLast times t) :
    IsLast (u :: times) (if t = 0 ∨ u > t then u else t) := by
  right
  rcases h with ⟨rfl, rfl⟩ | ⟨hmem, hle⟩
  · rw [if_pos (Or.inl rfl)]
    exact ⟨List.mem_cons_self, fun v hv => (List.mem_singleton.mp hv).le⟩
  · split
    · rename_i hless
      refine ⟨List.mem_cons_self, List.forall_mem_cons.mpr ⟨le_rfl, fun v hv => ?_⟩⟩
      have := hle v hv
      omega
    · exact ⟨List.mem_cons_of_mem u hmem, List.forall_mem_cons.mpr ⟨by omega, hle⟩⟩

lemma IsFirstSet.isFirst (h : IsFirstSet times t) (hset : 0 ∉ times) : IsFirst times t := by
  obtain ⟨front, back, rfl, rfl | hfront, -, hfirst⟩ := h
  · exact hfirst
  · exact absurd (List.mem_append_left back (List.mem_of_getLast? hfront)) hset

lemma foldl_isFirstSet (times : List Nat) :
    IsFirstSet times (times.foldl (fun t u => if t = 0 ∨ u < t then u else t) 0) := by
  induction times using List.reverseRecOn with
  | nil => exact ⟨[], [], rfl, Or.inl rfl, List.not_mem_nil, Or.inl ⟨rfl, rfl⟩⟩
  | append_singleton times u ih =>
    rw [List.foldl_append, List.foldl_cons, List.foldl_nil]
    set t := times.foldl (fun t u => if t = 0 ∨ u < t then u else t) 0
    by_cases hu : u = 0
    · refine ⟨times ++ [u], [], (List.append_nil _).symm, Or.inr ?_, List.not_mem_nil,
        Or.inl ⟨rfl, ?_⟩⟩
      · rw [List.getLast?_concat, hu]
      · split <;> omega
    · obtain ⟨front, back, heq, hfront, hset, hfirst⟩ := ih
      refine ⟨front, back ++ [u], by rw [heq, List.append_assoc], hfront, ?_, Or.inr ?_⟩
      · rw [List.mem_append, List.mem_singleton]
        exact fun h => h.elim hset (fun h => hu h.symm)
      · rcases hfirst with ⟨rfl, ht⟩ | ⟨hmem, hle⟩
        · rw [if_pos (Or.inl ht)]
          exact ⟨List.mem_cons_self, fun v hv => (List.mem_singleton.mp hv).ge⟩
        · have hpos : t ≠ 0 := fun ht => hset (ht ▸ hmem)
          by_cases hless : u < t
          · rw [if_pos (Or.inr hless)]
            refine ⟨List.mem_append_right _ List.mem_cons_self, fun v hv => ?_⟩
            rcases List.mem_append.mp hv with hv | hv
            · exact le_trans hless.le (hle v hv)
            · exact (List.mem_singleton.mp hv).ge
          · rw [if_neg (by omega)]
            refine ⟨List.mem_append_left _ hmem, fun v hv => ?_⟩
            rcases List.mem_append.mp hv with hv | hv
            · exact hle v hv
            · rw [List.mem_singleton.mp hv]
              omega

lemma foldl_isLast (times : List Nat) :
    IsLast times (times.foldl (fun t u => if t = 0 ∨ u > t then u else t) 0) := by
  induction times using List.reverseRecOn with
  | nil => exact Or.inl ⟨rfl, rfl⟩
  | append_singleton times u ih =>
    rw [List.foldl_append, List.foldl_cons, List.foldl_nil]
    set t := times.foldl (fun t u => if t = 0 ∨ u > t then u else t) 0
    have hle : ∀ v ∈ times, v ≤ t := by
      rcases ih with ⟨rfl, -⟩ | ⟨-, hle⟩
      · exact fun v hv => absurd hv List.not_mem_nil
      · exact hle
    right
    by_cases hless : t = 0 ∨ u > t
    · rw [if_pos hless]
      refine ⟨List.mem_append_right _ List.mem_cons_self, fun v hv => ?_⟩
      rcases List.mem_append.mp hv with hv | hv
      · have := hle v hv
        omega
      · exact (List.mem_singleton.mp hv).le
    · rw [if_neg hless]
      rcases ih with ⟨-, ht⟩ | ⟨hmem, -⟩
      · exact absurd (Or.inl ht) hless
      · refine ⟨List.mem_append_left _ hmem, fun v hv => ?_⟩
        rcases List.mem_append.mp hv with hv | hv
        · exact hle v hv
        · rw [List.mem_singleton.mp hv]
          omega

lemma foldl_updateTimesOf (l : List Nat) (s : BlocksInfo) :
    l.foldl BlocksInfo.updateTimesOf s = { s with
      utimeFirst := (l.map (fun i => (s.blocks i).utimeFirst)).foldl
        (fun t u => if t = 0 ∨ u < t then u else t) s.utimeFirst
      utimeLast := (l.map (fun i => (s.blocks i).utimeLast)).foldl
        (fun t u => if t = 0 ∨ u > t then u else t) s.utimeLast
      atFirst := (l.map (fun i => (s.blocks i).atTime)).foldl
        (fun t u => if t = 0 ∨ u < t then u else t) s.atFirst
      atLast := (l.map (fun i => (s.blocks i).atTime)).foldl
        (fun t u => if t = 0 ∨ u > t then u else t) s.atLast } := by
  induction l generalizing s with
  | nil => rfl
  | cons i l ih =>
    rw [List.foldl_cons, ih]
    rfl

lemma updateTimes_timesSet (s : BlocksInfo) : s.updateTimes.TimesSet := by
  have hshape : s.updateTimes = _ := foldl_updateTimesOf s.getUsed s.cleanTimes
  have hblocks : s.updateTimes.blocks = s.blocks := by rw [hshape]; rfl
  have hused : s.updateTimes.getUsed = s.getUsed := by rw [hshape]; rfl
  constructor
  · rw [BlocksInfo.usedTimes, hused, hblocks, hshape]
    exact foldl_isFirstSet _
  · rw [BlocksInfo.usedTimes, hused, hblocks, hshape]
    exact foldl_isLast _
  · rw [BlocksInfo.usedTimes, hused, hblocks, hshape]
    exact foldl_isFirstSet _
  · rw [BlocksInfo.usedTimes, hused, hblocks, hshape]
    exact foldl_isLast _

lemma TableInv.getMin_none (h : TableInv s [] free) : s.minHeap.getMin = none := by
  rw [MinHeap.getMin]
  exact if_pos h.heap_size

lemma TableInv.push (h : TableInv s used free) {data : BlockInfo} {t : BlocksInfo}
    (ht : s.push data = some t) :
    (∃ used' free', TableInv t used' free') ∧ t.blockInfoMax = s.blockInfoMax ∧
      (∀ f, t.usedTimes f = f data :: s.usedTimes f) ∧
      t.utimeFirst = firstTime s.utimeFirst data.utimeFirst ∧
      t.utimeLast = (if s.utimeLast = 0 ∨ data.utimeLast > s.utimeLast then data.utimeLast
        else s.utimeLast) ∧
      t.atFirst = firstTime s.atFirst data.atTime ∧
      t.atLast = (if s.atLast = 0 ∨ data.atTime > s.atLast then data.atTime else s.atLast) := by
  unfold BlocksInfo.push at ht
  cases hnew : s.newBlock with
  | none =>
    rw [hnew] at ht
    cases ht
  | some new =>
    obtain ⟨i, s'⟩ := new
    rw [hnew] at ht
    obtain ⟨free', -, hi, hinv, hblocks⟩ := h.insert hnew data
    obtain ⟨hmax, hfirst, hlast, hatFirst, hatLast⟩ : s'.blockInfoMax = s.blockInfoMax ∧
        s'.utimeFirst = s.utimeFirst ∧ s'.utimeLast = s.utimeLast ∧ s'.atFirst = s.atFirst ∧
        s'.atLast = s.atLast := by
      unfold BlocksInfo.newBlock at hnew
      split at hnew
      · cases hnew
      · cases hnew
        exact ⟨rfl, rfl, rfl, rfl, rfl⟩
    have hself : (s'.set i data).blocks i = data := by
      rw [BlocksInfo.set]
      exact Function.update_self ..
    obtain rfl : _ = t := Option.some.inj ht
    refine ⟨⟨_, _, hinv⟩, hmax, ?_, ?_, ?_, ?_, ?_⟩
    · intro f
      rw [BlocksInfo.usedTimes, hinv.getUsed_eq, BlocksInfo.usedTimes, h.getUsed_eq,
        List.map_cons]
      change f (((s'.set i data).updateTimesOf i).blocks i) ::
        used.map (fun k => f (((s'.set i data).updateTimesOf i).blocks k)) = _
      rw [hblocks, Function.update_self]
      congr 1
      apply List.map_congr_left
      intro k hk
      have hne : k ≠ i := by
        rintro rfl
        exact hi hk
      rw [Function.update_of_ne hne]
    · simp only [BlocksInfo.updateTimesOf, hself]
      rw [← hfirst]
      rfl
    · simp only [BlocksInfo.updateTimesOf, hself]
      rw [← hlast]
      rfl
    · simp only [BlocksInfo.updateTimesOf, hself]
      rw [← hatFirst]
      rfl
    · simp only [BlocksInfo.updateTimesOf, hself]
      rw [← hatLast]
      rfl

lemma TableInv.push_noted (h : TableInv s used free) (hkept : s.TimesKept) {data : BlockInfo}
    {t : BlocksInfo} (ht : s.push data = some t) : s.TimesNoted data t := by
  obtain ⟨-, -, htimes, hfirst, hlast, hatFirst, hatLast⟩ := h.push ht
  refine ⟨hfirst, ?_, ?_, ?_, ?_⟩
  · intro hset hexact
    rw [htimes] at hset ⊢
    rw [hfirst]
    exact hexact.cons hset
  · rw [htimes, hlast]
    exact hkept.utimeLast.cons
  · intro hset
    rw [htimes] at hset ⊢
    rw [hatFirst]
    exact (hkept.atFirst fun hmem => hset (List.mem_cons_of_mem _ hmem)).cons hset
  · rw [htimes, hatLast]
    exact hkept.atLast.cons

lemma TableInv.updateMin (h : TableInv s used free) {posAct utimeFirst : Nat} {t : BlocksInfo}
    (ht : s.updateMin posAct utimeFirst = some t) :
    (∃ used' free', TableInv t used' free') ∧ t.blockInfoMax = s.blockInfoMax ∧
      (s.TimesKept → t.TimesKept) := by
  unfold BlocksInfo.updateMin at ht
  by_cases hused : used = []
  · subst hused
    rw [h.getMin_none] at ht
    cases ht
  · rw [(h.getMin_some hused).1] at ht
    obtain rfl : _ = t := Option.some.inj ht
    let i := s.minHeap.data 0
    let data : BlockInfo := { s.blocks i with posAct := posAct, utimeFirst := utimeFirst }
    have hinv := h.update data
    refine ⟨⟨_, _, hinv⟩, rfl, ?_⟩
    have htimes (f : BlockInfo → Nat) (hf : f data = f (s.blocks i)) :
        used.map (fun k => f (Function.update s.blocks i data k)) =
          used.map (fun k => f (s.blocks k)) := by
      apply List.map_congr_left
      intro k _
      by_cases hk : k = i
      · rw [hk, Function.update_self, hf]
      · rw [Function.update_of_ne hk]
    have hlast := htimes BlockInfo.utimeLast rfl
    have hat := htimes BlockInfo.atTime rfl
    rintro ⟨hutime, hfirst, hatLast⟩
    unfold BlocksInfo.usedTimes at hutime hfirst hatLast
    rw [h.getUsed_eq] at hutime hfirst hatLast
    refine ⟨?_, ?_, ?_⟩
    · rw [BlocksInfo.usedTimes, hinv.getUsed_eq]
      exact hlast ▸ hutime
    · rw [BlocksInfo.usedTimes, hinv.getUsed_eq]
      exact hat ▸ hfirst
    · rw [BlocksInfo.usedTimes, hinv.getUsed_eq]
      exact hat ▸ hatLast

lemma TableInv.popMin (h : TableInv s used free) {t : BlocksInfo} (ht : s.popMin = some t) :
    (∃ used' free', TableInv t used' free') ∧ t.blockInfoMax = s.blockInfoMax := by
  unfold BlocksInfo.popMin at ht
  by_cases hused : used = []
  · subst hused
    rw [h.getMin_none] at ht
    cases ht
  · rw [(h.getMin_some hused).1] at ht
    have hsame : s.set (s.minHeap.data 0) (s.blocks (s.minHeap.data 0)) = s := by
      rw [BlocksInfo.set, Function.update_eq_self]
    have hdata : (s.blocks (s.minHeap.data 0)).utimeFirst = s.key (s.minHeap.data 0) := rfl
    have hinv := (h.extract hused hdata).1
    rw [hsame] at hinv
    cases ht
    refine ⟨⟨_, _, hinv⟩, ?_⟩
    rw [BlocksInfo.updateTimes, foldl_updateTimesOf]
    change (s.freeBlock (s.minHeap.data 0)).blockInfoMax = _
    unfold BlocksInfo.freeBlock
    split <;> rfl

lemma popMin_timesSet {t : BlocksInfo} (ht : s.popMin = some t) : t.TimesSet := by
  unfold BlocksInfo.popMin at ht
  split at ht
  · cases ht
  · cases ht
    exact updateTimes_timesSet _

lemma BlocksInfo.TimesSet.kept (h : s.TimesSet) : s.TimesKept :=
  ⟨h.utimeLast, h.atFirst.isFirst, h.atLast⟩

lemma BlocksInfo.TimesNoted.kept {data : BlockInfo} {t : BlocksInfo} (h : s.TimesNoted data t) :
    t.TimesKept :=
  ⟨h.utimeLast, h.atFirst, h.atLast⟩

lemma TableInv.step (h : TableInv s used free) (hkept : s.TimesKept) {op : BlocksInfo.Op}
    {t : BlocksInfo} (ht : s.step op = some t) :
    (∃ used' free', TableInv t used' free') ∧ t.blockInfoMax = s.blockInfoMax ∧ t.TimesKept := by
  cases op with
  | push data =>
    obtain ⟨hinv, hmax, -⟩ := h.push ht
    exact ⟨hinv, hmax, (h.push_noted hkept ht).kept⟩
  | updateMin posAct utimeFirst =>
    obtain ⟨hinv, hmax, hkeeps⟩ := h.updateMin ht
    exact ⟨hinv, hmax, hkeeps hkept⟩
  | popMin =>
    obtain ⟨hinv, hmax⟩ := h.popMin ht
    exact ⟨hinv, hmax, (popMin_timesSet ht).kept⟩

lemma timesKept_init (blockInfoMax : Nat) : (BlocksInfo.init blockInfoMax).TimesKept := by
  have htimes (f : BlockInfo → Nat) : (BlocksInfo.init blockInfoMax).usedTimes f = [] := by
    cases blockInfoMax <;> rfl
  refine ⟨?_, ?_, ?_⟩
  · rw [htimes]
    exact Or.inl ⟨rfl, rfl⟩
  · intro _
    rw [htimes]
    exact Or.inl ⟨rfl, rfl⟩
  · rw [htimes]
    exact Or.inl ⟨rfl, rfl⟩

/-- In every run the two lists share out the places and the heap holds the used ones in order.
After a recomputation the times are those of the used blocks, where 0 is not set, and after an
insert they are noted. -/
theorem blocksInfo_consistent (blockInfoMax : Nat) (hmax : 0 < blockInfoMax) (s : BlocksInfo)
    (h : BlocksInfo.Reachable blockInfoMax s) :
    s.blockInfoMax = blockInfoMax ∧ (∃ used free, TableInv s used free) ∧
      (∀ t, s.popMin = some t → t.TimesSet) ∧
      ∀ data t, s.push data = some t → s.TimesNoted data t := by
  have hinv : (∃ used free, TableInv s used free) ∧ s.blockInfoMax = blockInfoMax ∧
      s.TimesKept := by
    induction h with
    | initial => exact ⟨⟨_, _, tableInv_init hmax⟩, rfl, timesKept_init blockInfoMax⟩
    | step _ _ hstep ih =>
      obtain ⟨⟨used, free, hold⟩, heq, hkept⟩ := ih
      obtain ⟨hnew, heq', hkept'⟩ := hold.step hkept hstep
      exact ⟨hnew, heq'.trans heq, hkept'⟩
  obtain ⟨⟨used, free, htable⟩, heq, hkept⟩ := hinv
  exact ⟨heq, ⟨used, free, htable⟩, fun _ => popMin_timesSet,
    fun _ _ => htable.push_noted hkept⟩

def threePushes (first second third : Nat) : List BlocksInfo.Op :=
  [.push { utimeFirst := first }, .push { utimeFirst := second }, .push { utimeFirst := third }]

theorem blocksInfo_consistent_three : ∃ s,
    run BlocksInfo.step (BlocksInfo.init 3) (threePushes 5 7 6) = some s ∧
      s.blockInfoMax = 3 ∧ (∃ used free, TableInv s used free) ∧
      (∀ t, s.popMin = some t → t.TimesSet) ∧
      ∀ data t, s.push data = some t → s.TimesNoted data t := by
  obtain ⟨s, hs⟩ : ∃ s, run BlocksInfo.step (BlocksInfo.init 3) (threePushes 5 7 6) = some s :=
    Option.isSome_iff_exists.mp (by decide +kernel)
  exact ⟨s, hs, blocksInfo_consistent 3 (by decide) s
    (ReachBy.initial.run (fun _ _ => trivial) _ hs)⟩

lemma not_isFirst_of_lt {v : Nat} (hv : v ∈ times) (hlt : v < t) : ¬IsFirst times t := by
  rintro (⟨rfl, -⟩ | ⟨-, hle⟩)
  · cases hv
  · exact absurd (hle v hv) (Nat.not_le.mpr hlt)

lemma not_isFirst_of_notMem (ht : t ∉ times) (hne : times ≠ []) : ¬IsFirst times t := by
  rintro (⟨hnil, -⟩ | ⟨hmem, -⟩)
  · exact hne hnil
  · exact ht hmem

/-- Of two blocks that are left, with the times 0 and 5, the second one sets the first time. And a
block that has moved on from 1 to 5 leaves the first time at 1 when one with the time 6 comes. -/
theorem times_not_exact :
    (∃ s t, BlocksInfo.Reachable 3 s ∧ s.popMin = some t ∧ ¬t.TimesExact) ∧
      ∃ s t data, BlocksInfo.Reachable 3 s ∧ s.push data = some t ∧
        t.usedTimes BlockInfo.utimeFirst = [6, 5] ∧ t.utimeFirst = 1 ∧ ¬t.TimesExact := by
  constructor
  · have hrun : (run BlocksInfo.step (BlocksInfo.init 3) (threePushes 5 0 0)).bind
        (fun s => s.popMin.map (fun t => (t.utimeFirst, t.usedTimes BlockInfo.utimeFirst))) =
        some (5, [0, 5]) := by decide +kernel
    obtain ⟨s, hs, hpop⟩ := Option.bind_eq_some_iff.mp hrun
    obtain ⟨t, ht, heq⟩ := Option.map_eq_some_iff.mp hpop
    obtain ⟨hfirst, htimes⟩ := Prod.mk.inj heq
    refine ⟨s, t, ReachBy.initial.run (fun _ _ => trivial) _ hs, ht, ?_⟩
    intro hexact
    have h := hexact.utimeFirst
    rw [hfirst, htimes] at h
    exact not_isFirst_of_lt List.mem_cons_self (by decide) h
  · have hrun : (run BlocksInfo.step (BlocksInfo.init 3)
        [.push { utimeFirst := 1 }, .updateMin 1 5]).bind
        (fun s => (s.push { utimeFirst := 6 }).map
          (fun t => (t.utimeFirst, t.usedTimes BlockInfo.utimeFirst))) = some (1, [6, 5]) := by
      decide +kernel
    obtain ⟨s, hs, hpush⟩ := Option.bind_eq_some_iff.mp hrun
    obtain ⟨t, ht, heq⟩ := Option.map_eq_some_iff.mp hpush
    obtain ⟨hfirst, htimes⟩ := Prod.mk.inj heq
    refine ⟨s, t, _, ReachBy.initial.run (fun _ _ => trivial) _ hs, ht, htimes, hfirst, ?_⟩
    intro hexact
    have h := hexact.utimeFirst
    rw [hfirst, htimes] at h
    exact not_isFirst_of_notMem (by decide) (by decide) h

end VoipMonitor.Dequeue
