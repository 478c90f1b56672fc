import VoipMonitor.Library.CircularList
import VoipMonitor.Model.HeapItem

/-!
# The blocks of the heap item

The buffer is a row of blocks. A block of the row is free or holds an object; the row says what
the headers in the memory are. The links of the free blocks are a ring.
-/

namespace VoipMonitor.Heap
open VoipMonitor.Library

/-- A block with the size that was asked for; none when it is free. -/
structure Block where
  start : Nat
  size : Nat
  asked : Option Nat

namespace Block

/-- What `Size` holds: the lowest bit says that the block is in use. -/
def sizeField (b : Block) : Nat := b.size + if b.asked.isSome then 1 else 0

def freeStart (b : Block) : Option Nat := if b.asked.isSome then none else some b.start

def object (b : Block) : Option (Nat × Nat) := b.asked.map fun n => (b.start + 16, n)

end Block

structure Header (mem : Memory) (prev : Nat) (b : Block) : Prop where
  size : mem b.start = b.sizeField
  prevReal : mem (b.start + 8) = prev
  min : 32 ≤ b.size
  unit : b.size % 32 = 0
  fits : ∀ n ∈ b.asked, n + 16 ≤ b.size

/-- The blocks lie behind each other from `lo` to `hi`, each with a link to the one in front. -/
def Tiles (mem : Memory) : Nat → Nat → List Block → Nat → Prop
  | _, lo, [], hi => lo = hi
  | prev, lo, b :: blocks, hi =>
    b.start = lo ∧ Header mem prev b ∧ Tiles mem b.start (b.start + b.size) blocks hi

def lastStart (prev : Nat) (blocks : List Block) : Nat :=
  (blocks.getLast?.map Block.start).getD prev

def firstStart (blocks : List Block) : Nat := (blocks.head?.map Block.start).getD 0

variable {mem mem' : Memory} {prev prev' lo hi p r : Nat} {b c : Block}
  {blocks before behind : List Block} {h h' : HeapItem} {ring : List Nat}

lemma lastStart_cons : lastStart prev (b :: blocks) = lastStart b.start blocks := by
  cases blocks with
  | nil => rfl
  | cons c blocks =>
    simp only [lastStart, List.getLast?_cons_cons]
    rw [List.getLast?_eq_some_getLast (List.cons_ne_nil c blocks)]
    rfl

lemma lastStart_concat : lastStart prev (blocks ++ [b]) = b.start := by
  simp [lastStart]

lemma lastStart_append_cons :
    lastStart prev (before ++ b :: blocks) = lastStart b.start blocks := by
  induction before generalizing prev with
  | nil => exact lastStart_cons
  | cons a before ih => rw [List.cons_append, lastStart_cons, ih]

lemma tiles_append : Tiles mem prev lo (before ++ behind) hi ↔
    ∃ mid, Tiles mem prev lo before mid ∧ Tiles mem (lastStart prev before) mid behind hi := by
  induction before generalizing prev lo with
  | nil =>
    constructor
    · exact fun ht => ⟨lo, rfl, ht⟩
    · rintro ⟨mid, rfl, ht⟩
      exact ht
  | cons b before ih =>
    rw [List.cons_append, Tiles, ih, lastStart_cons]
    constructor
    · rintro ⟨hb, hheader, mid, hfront, hback⟩
      exact ⟨mid, ⟨hb, hheader, hfront⟩, hback⟩
    · rintro ⟨mid, ⟨hb, hheader, hfront⟩, hback⟩
      exact ⟨hb, hheader, mid, hfront, hback⟩

lemma tiles_split : Tiles mem prev lo (before ++ b :: behind) hi ↔
    Tiles mem prev lo before b.start ∧ Header mem (lastStart prev before) b ∧
      Tiles mem b.start (b.start + b.size) behind hi := by
  rw [tiles_append]
  constructor
  · rintro ⟨mid, hfront, rfl, hheader, hback⟩
    exact ⟨hfront, hheader, hback⟩
  · rintro ⟨hfront, hheader, hback⟩
    exact ⟨b.start, hfront, rfl, hheader, hback⟩

lemma Tiles.le (ht : Tiles mem prev lo blocks hi) : lo ≤ hi ∧ lo % 32 = hi % 32 := by
  induction blocks generalizing prev lo with
  | nil => exact ⟨le_of_eq ht, congrArg (· % 32) ht⟩
  | cons b blocks ih =>
    obtain ⟨rfl, hheader, hrest⟩ := ht
    have hunit := hheader.unit
    have := ih hrest
    omega

lemma Tiles.range (ht : Tiles mem prev lo blocks hi) (hb : b ∈ blocks) :
    lo ≤ b.start ∧ b.start + b.size ≤ hi ∧ b.start % 32 = lo % 32 ∧ 32 ≤ b.size ∧
      b.size % 32 = 0 := by
  obtain ⟨before, behind, rfl⟩ := List.append_of_mem hb
  obtain ⟨hfront, hheader, hback⟩ := tiles_split.mp ht
  have hmin := hheader.min
  have hunit := hheader.unit
  have := hfront.le
  have := hback.le
  omega

lemma Tiles.length_le (ht : Tiles mem prev lo blocks hi) : lo + 32 * blocks.length ≤ hi := by
  induction blocks generalizing prev lo with
  | nil => exact le_of_eq ht
  | cons b blocks ih =>
    obtain ⟨rfl, hheader, hrest⟩ := ht
    have hmin := hheader.min
    have := ih hrest
    rw [List.length_cons]
    omega

lemma Tiles.change (ht : Tiles mem prev lo blocks hi) (hfirst : blocks ≠ [] → mem' (lo + 8) = prev')
    (hsame : ∀ b ∈ blocks, mem' b.start = mem b.start ∧
      (b.start ≠ lo → mem' (b.start + 8) = mem (b.start + 8))) :
    Tiles mem' prev' lo blocks hi := by
  induction blocks generalizing prev prev' lo with
  | nil => exact ht
  | cons b blocks ih =>
    obtain ⟨rfl, hheader, hrest⟩ := ht
    have hmin := hheader.min
    have hb := hsame b List.mem_cons_self
    refine ⟨rfl, ⟨hb.1.trans hheader.size, hfirst (List.cons_ne_nil _ _), hheader.min,
      hheader.unit, hheader.fits⟩, ih hrest (fun hne => ?_) fun c hc => ?_⟩
    · obtain ⟨c, rest, rfl⟩ := List.exists_cons_of_ne_nil hne
      obtain ⟨hc, hcheader, -⟩ := hrest
      rw [← hc, (hsame c (by simp)).2 (by omega), hcheader.prevReal]
    · have hrange := hrest.range hc
      have hsame' := hsame c (List.mem_cons_of_mem b hc)
      exact ⟨hsame'.1, fun _ => hsame'.2 (by omega)⟩

lemma Tiles.congr (ht : Tiles mem prev lo blocks hi)
    (hsame : ∀ b ∈ blocks, mem' b.start = mem b.start ∧ mem' (b.start + 8) = mem (b.start + 8)) :
    Tiles mem' prev lo blocks hi := by
  refine ht.change (fun hne => ?_) fun b hb => ⟨(hsame b hb).1, fun _ => (hsame b hb).2⟩
  obtain ⟨b, rest, rfl⟩ := List.exists_cons_of_ne_nil hne
  obtain ⟨rfl, hheader, -⟩ := ht
  rw [(hsame b List.mem_cons_self).2, hheader.prevReal]

lemma Tiles.start_inj (ht : Tiles mem prev lo (before ++ b :: behind) hi)
    (hc : c ∈ before ++ behind) : c.start ≠ b.start := by
  obtain ⟨hfront, hheader, hback⟩ := tiles_split.mp ht
  have hmin := hheader.min
  rcases List.mem_append.mp hc with hc | hc
  · have := hfront.range hc
    omega
  · have := hback.range hc
    omega

structure SameMembers (h h' : HeapItem) : Prop where
  size : h'.size = h.size
  buff : h'.buff = h.buff
  brk : h'.brk = h.brk
  first : h'.first = h.first
  last : h'.last = h.last
  initBuffError : h'.initBuffError = h.initBuffError

lemma SameMembers.trans {h'' : HeapItem} (hs : SameMembers h h') (hs' : SameMembers h' h'') :
    SameMembers h h'' :=
  ⟨hs'.size.trans hs.size, hs'.buff.trans hs.buff, hs'.brk.trans hs.brk,
    hs'.first.trans hs.first, hs'.last.trans hs.last,
    hs'.initBuffError.trans hs.initBuffError⟩

structure SameHeaders (r : Nat) (h h' : HeapItem) : Prop extends SameMembers h h' where
  header : ∀ p, p % 32 = r → h'.mem p = h.mem p ∧ h'.mem (p + 8) = h.mem (p + 8)

lemma SameHeaders.trans {h'' : HeapItem} (hs : SameHeaders r h h') (hs' : SameHeaders r h' h'') :
    SameHeaders r h h'' :=
  ⟨hs.toSameMembers.trans hs'.toSameMembers, fun p hp =>
    ⟨(hs'.header p hp).1.trans (hs.header p hp).1, (hs'.header p hp).2.trans (hs.header p hp).2⟩⟩

lemma sameHeaders_rover (h : HeapItem) (v : Nat) : SameHeaders r h { h with rover := v } :=
  ⟨⟨rfl, rfl, rfl, rfl, rfl, rfl⟩, fun _ _ => ⟨rfl, rfl⟩⟩

lemma sameHeaders_setNextFree (h : HeapItem) (hp : p % 32 = r) (v : Nat) :
    SameHeaders r h (h.setNextFree p v) := by
  refine ⟨⟨rfl, rfl, rfl, rfl, rfl, rfl⟩, fun a ha => ⟨?_, ?_⟩⟩
  all_goals
    simp only [HeapItem.setNextFree, HeapItem.store]
    rw [Function.update_of_ne (by omega)]

lemma sameHeaders_setPrevFree (h : HeapItem) (hp : p % 32 = r) (v : Nat) :
    SameHeaders r h (h.setPrevFree p v) := by
  refine ⟨⟨rfl, rfl, rfl, rfl, rfl, rfl⟩, fun a ha => ⟨?_, ?_⟩⟩
  all_goals
    simp only [HeapItem.setPrevFree, HeapItem.store]
    rw [Function.update_of_ne (by omega)]

structure FreeRing (r : Nat) (h : HeapItem) (ring : List Nat) : Prop where
  circular : Circular h.nextFree h.prevFree ring
  rover : h.rover = ring.head?.getD 0
  nodup : ring.Nodup
  aligned : ∀ p ∈ ring, p ≠ 0 ∧ p % 32 = r

lemma FreeRing.congr (hr : FreeRing r h ring) (hrover : h'.rover = h.rover)
    (hmem : ∀ p ∈ ring, h'.mem (p + 16) = h.mem (p + 16) ∧ h'.mem (p + 24) = h.mem (p + 24)) :
    FreeRing r h' ring :=
  ⟨hr.circular.congr (fun p hp => (hmem p hp).2) fun p hp => (hmem p hp).1,
    hrover.trans hr.rover, hr.nodup, hr.aligned⟩

lemma FreeRing.eq_nil_iff (hr : FreeRing r h ring) : h.rover = 0 ↔ ring = [] := by
  rw [hr.rover]
  cases ring with
  | nil => simp
  | cons p ring =>
    have := (hr.aligned p List.mem_cons_self).1
    simpa using this

lemma FreeRing.sameHeaders_pullFreeBlock (hr : FreeRing r h ring) (hp : p ∈ ring) :
    SameHeaders r h (h.pullFreeBlock p) := by
  obtain ⟨hnextMem, hprevMem⟩ := hr.circular.neighbours_mem hp
  have hnext := (hr.aligned _ hnextMem).2
  have hprev := (hr.aligned _ hprevMem).2
  clear hnextMem hprevMem
  rw [HeapItem.pullFreeBlock]
  split
  · exact sameHeaders_rover h 0
  · exact ((sameHeaders_rover h _).trans (sameHeaders_setPrevFree _ hnext _)).trans
      (sameHeaders_setNextFree _ hprev _)

lemma FreeRing.pullFreeBlock (hr : FreeRing r h ring) (hp : p ∈ ring) :
    ∃ ring', FreeRing r (h.pullFreeBlock p) ring' ∧ ring.Perm (p :: ring') := by
  obtain ⟨hnextMem, hprevMem⟩ := hr.circular.neighbours_mem hp
  have hnext := (hr.aligned _ hnextMem).2
  have hprev := (hr.aligned _ hprevMem).2
  clear hnextMem hprevMem
  obtain ⟨front, back, rfl⟩ := List.append_of_mem hp
  have hcircular : Circular h.nextFree h.prevFree (p :: (back ++ front)) := hr.circular.rotate
  have hperm : (front ++ p :: back).Perm (p :: (back ++ front)) := List.perm_append_comm
  have hnodup := hperm.nodup_iff.mp hr.nodup
  have haligned : ∀ q ∈ back ++ front, q ≠ 0 ∧ q % 32 = r :=
    fun q hq => hr.aligned q (hperm.mem_iff.mpr (List.mem_cons_of_mem p hq))
  refine ⟨back ++ front, ?_, hperm⟩
  generalize back ++ front = rest at hcircular hnodup haligned
  rw [HeapItem.pullFreeBlock]
  cases rest with
  | nil =>
    rw [if_pos (circular_singleton.mp hcircular).1]
    exact ⟨circular_nil, rfl, List.nodup_nil, by simp⟩
  | cons q rest =>
    have hq := hcircular.next_cons.1
    have hpq : h.nextFree p ≠ p := by
      rintro heq
      exact (List.nodup_cons.mp hnodup).1 (by rw [← heq, hq]; exact List.mem_cons_self)
    rw [if_neg hpq]
    refine ⟨hcircular.remove hnodup ?_ (fun a ha hne => ?_) ?_ fun a ha hne => ?_, hq,
      (List.nodup_cons.mp hnodup).2, haligned⟩
    all_goals
      simp only [HeapItem.nextFree, HeapItem.prevFree, HeapItem.setNextFree,
        HeapItem.setPrevFree, HeapItem.store] at *
    · rw [Function.update_self]
    · have ha := (haligned a ha).2
      rw [Function.update_of_ne (by omega), Function.update_of_ne (by omega)]
    · rw [Function.update_of_ne (by omega), Function.update_self]
    · have ha := (haligned a ha).2
      rw [Function.update_of_ne (by omega), Function.update_of_ne (by omega)]

lemma FreeRing.sameHeaders_insertFreeBlock (hr : FreeRing r h ring) (hp : p % 32 = r) :
    SameHeaders r h (h.insertFreeBlock p) := by
  rw [HeapItem.insertFreeBlock]
  split
  · rename_i hrover
    obtain ⟨q, rest, rfl⟩ := List.exists_cons_of_ne_nil (mt hr.eq_nil_iff.mpr hrover)
    have hq : h.rover % 32 = r := by
      rw [hr.rover]
      exact (hr.aligned q List.mem_cons_self).2
    have hnext : h.nextFree h.rover % 32 = r := by
      rw [hr.rover]
      exact (hr.aligned _ (hr.circular.neighbours_mem List.mem_cons_self).1).2
    exact (((sameHeaders_setNextFree h hq _).trans (sameHeaders_setPrevFree _ hnext _)).trans
      (sameHeaders_setNextFree _ hp _)).trans (sameHeaders_setPrevFree _ hp _)
  · exact ((sameHeaders_rover h p).trans (sameHeaders_setPrevFree _ hp _)).trans
      (sameHeaders_setNextFree _ hp _)

lemma FreeRing.insertFreeBlock (hr : FreeRing r h ring) (hp : p % 32 = r) (hpos : p ≠ 0)
    (hnew : p ∉ ring) :
    ∃ ring', FreeRing r (h.insertFreeBlock p) ring' ∧ ring'.Perm (p :: ring) := by
  rw [HeapItem.insertFreeBlock]
  split
  · rename_i hrover
    obtain ⟨q, rest, rfl⟩ := List.exists_cons_of_ne_nil (mt hr.eq_nil_iff.mpr hrover)
    have hq : h.rover = q := hr.rover
    have hqr := (hr.aligned q List.mem_cons_self).2
    have hnext := (hr.aligned _ (hr.circular.neighbours_mem List.mem_cons_self).1).2
    have hpq : p ≠ q := fun heq => hnew (heq ▸ List.mem_cons_self)
    have hperm : (q :: p :: rest).Perm (p :: q :: rest) := List.Perm.swap p q rest
    have hmem : ∀ a ∈ q :: rest, a ≠ p ∧ a % 32 = r :=
      fun a ha => ⟨fun heq => hnew (heq ▸ ha), (hr.aligned a ha).2⟩
    have hne : ∀ a ∈ rest, a ≠ q :=
      fun a ha heq => (List.nodup_cons.mp hr.nodup).1 (heq ▸ ha)
    refine ⟨q :: p :: rest, ⟨?_, hq, ?_, fun a ha => ?_⟩, hperm⟩
    · simp only [HeapItem.nextFree] at hnext
      refine hr.circular.insert hr.nodup ?_ ?_ ?_ (fun a ha => ?_) ?_ fun a ha hne => ?_
      all_goals
        simp only [HeapItem.nextFree, HeapItem.prevFree, HeapItem.setNextFree,
          HeapItem.setPrevFree, HeapItem.store, hq] at *
      · rw [Function.update_of_ne (by omega), Function.update_of_ne (by omega),
          Function.update_of_ne (by omega), Function.update_self]
      · rw [Function.update_self]
      · rw [Function.update_of_ne (by omega), Function.update_self]
      · obtain ⟨hap, har⟩ := hmem a (List.mem_cons_of_mem q ha)
        have haq := hne a ha
        rw [Function.update_of_ne (by omega), Function.update_of_ne (by omega),
          Function.update_of_ne (by omega), Function.update_of_ne (by omega)]
      · obtain ⟨hap, -⟩ := hmem _ (hr.circular.neighbours_mem List.mem_cons_self).1
        simp only [HeapItem.nextFree] at hap
        rw [Function.update_of_ne (by omega), Function.update_of_ne (by omega),
          Function.update_self]
      · obtain ⟨hap, har⟩ := hmem a ha
        rw [Function.update_of_ne (by omega), Function.update_of_ne (by omega),
          Function.update_of_ne (by omega), Function.update_of_ne (by omega)]
    · exact hperm.nodup_iff.mpr (List.nodup_cons.mpr ⟨hnew, hr.nodup⟩)
    · rcases List.mem_cons.mp (hperm.mem_iff.mp ha) with rfl | ha
      · exact ⟨hpos, hp⟩
      · exact hr.aligned a ha
  · rename_i hrover
    obtain rfl := hr.eq_nil_iff.mp (not_not.mp hrover)
    refine ⟨[p], ⟨?_, rfl, List.nodup_singleton p, ?_⟩, List.Perm.refl _⟩
    · rw [circular_singleton]
      simp only [HeapItem.nextFree, HeapItem.prevFree, HeapItem.setNextFree,
        HeapItem.setPrevFree, HeapItem.store]
      rw [Function.update_self, Function.update_of_ne (by omega), Function.update_self]
      exact ⟨rfl, rfl⟩
    · intro a ha
      rw [List.mem_singleton.mp ha]
      exact ⟨hpos, hp⟩

end VoipMonitor.Heap
