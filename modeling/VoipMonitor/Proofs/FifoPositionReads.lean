import VoipMonitor.Proofs.FifoBufferRuns

/-!
# Reads by position

The bytes that are still there are the end of the stream from `freedPos` on. A position before it
becomes a very large number by the unsigned subtraction, and behind the end there is nothing.
-/

namespace VoipMonitor.Fifo
open VoipMonitor.Library

namespace PosBuffer

lemma dropFreed_eq (items : List FifoBufferItem) (pos freedPos : Nat)
    (h : freedPos + (contents items).length < 2 ^ 32) :
    ∃ freed, contents items = freed ++ contents (dropFreed items pos freedPos).1 ∧
      (dropFreed items pos freedPos).2 = freedPos + freed.length ∧ freed.length ≤ pos := by
  induction items generalizing pos freedPos with
  | nil => exact ⟨[], rfl, rfl, Nat.zero_le _⟩
  | cons first next ih =>
    rw [contents_cons, List.length_append] at h
    have hlen : first.length = first.data.length := rfl
    rw [dropFreed]
    by_cases hbefore : pos ≥ first.length
    · obtain ⟨freed, hcontents, hpos, hle⟩ := ih (pos - first.length)
        (add32 freedPos first.length) (by rw [add32_eq (by omega)]; omega)
      rw [if_pos hbefore]
      refine ⟨first.data ++ freed, ?_, ?_, ?_⟩
      · rw [contents_cons, List.append_assoc, ← hcontents]
      · rw [hpos, add32_eq (by omega), List.length_append, hlen, Nat.add_assoc]
      · rw [List.length_append]
        omega
    · rw [if_neg hbefore]
      exact ⟨[], rfl, rfl, Nat.zero_le _⟩

structure Holds (b : PosBuffer) (added : Bytes) : Prop where
  unlocked : b.sync = false
  enabled : b.disable = false
  bytes : ∃ freed, added = freed ++ contents b.first ∧ b.freedPos = freed.length

section Holds
variable {b : PosBuffer} {added : Bytes}

lemma Holds.lock (h : b.Holds added) : b.lock = some { b with sync := true } := by
  rw [PosBuffer.lock, Fifo.lock_eq h.unlocked]
  rfl

/-- The bytes of the stream from a position on, not more than the size unless it is zero. Before
`freedPos` and behind the end there are none. -/
def readAt (freedPos : Nat) (added : Bytes) (getSize pos : Nat) : Option Bytes :=
  if freedPos ≤ pos ∧ pos < added.length then
    some ((added.drop pos).take
      (if getSize = 0 then added.length - pos else min getSize (added.length - pos)))
  else none

lemma Holds.getFromPos (h : b.Holds added) (hsize : added.length < 2 ^ 32) (getSize pos : Nat)
    (hpos : pos < 2 ^ 32) :
    b.getFromPos getSize pos = some (readAt b.freedPos added getSize pos, b) := by
  obtain ⟨freed, hadded, hfreed⟩ := h.bytes
  have hlength : added.length = freed.length + (contents b.first).length := by
    rw [hadded, List.length_append]
  have hunlock : ({ b with sync := true } : PosBuffer).unlock = b := by
    have hsync := h.unlocked
    rw [unlock, FifoBuffer.unlock, ← hsync]
  have hbytes : FifoBuffer.getBytes { b.toFifoBuffer with sync := true } getSize
      (sub32 pos b.freedPos) = _ :=
    getBytes_eq h.enabled (by omega) getSize (sub32 pos b.freedPos)
  unfold PosBuffer.getFromPos readAt
  rw [h.lock, Option.bind_eq_bind, Option.bind_some]
  rw [hbytes]
  by_cases hthere : b.freedPos ≤ pos ∧ pos < added.length
  · have hsub : sub32 pos b.freedPos = pos - freed.length := by
      rw [sub32_eq hpos hthere.1, hfreed]
    have hrest : (contents b.first).length - (pos - freed.length) = added.length - pos := by omega
    have hdrop : added.drop pos = (contents b.first).drop (pos - freed.length) := by
      rw [hadded, List.drop_append, List.drop_eq_nil_of_le (by omega), List.nil_append]
    rw [if_pos hthere, hsub, if_pos (by omega), hrest, ← hdrop, granted_eq]
    exact congrArg (fun b => some (_, b)) hunlock
  · -- before `freedPos` the difference is too large by 2^32
    have hbehind : ¬sub32 pos b.freedPos < (contents b.first).length := by
      unfold sub32
      omega
    rw [if_neg hthere, if_neg hbehind]
    exact congrArg (fun b => some (none, b)) hunlock

lemma Holds.add (h : b.Holds added) (buffer : Bytes) :
    ∃ t taken, b.add buffer = some (taken, t) ∧
      t.Holds (if taken then added ++ buffer else added) := by
  obtain ⟨freed, hadded, hfreed⟩ := h.bytes
  rcases add_cases h.unlocked h.enabled buffer with hrefused | ⟨first, htaken, hcontents⟩
  · exact ⟨b, false, by rw [PosBuffer.add, hrefused]; rfl, h⟩
  · refine ⟨{ b with first := first, sync := false }, true, by rw [PosBuffer.add, htaken]; rfl, rfl,
      h.enabled, freed, ?_, hfreed⟩
    rw [if_pos rfl, hcontents, hadded, List.append_assoc]

lemma Holds.freePos (h : b.Holds added) (hsize : added.length < 2 ^ 32) (pos : Nat) :
    ∃ t, b.freePos pos = some t ∧ t.Holds added ∧ b.freedPos ≤ t.freedPos ∧
      ∀ i, b.freedPos ≤ i → i < t.freedPos → i < pos := by
  obtain ⟨freed, hadded, hfreed⟩ := h.bytes
  have hlength : added.length = freed.length + (contents b.first).length := by
    rw [hadded, List.length_append]
  unfold PosBuffer.freePos
  rw [h.lock, Option.bind_eq_bind, Option.bind_some]
  by_cases hahead : pos > b.freedPos
  · obtain ⟨more, hcontents, hpos, hle⟩ := dropFreed_eq b.first (pos - b.freedPos) b.freedPos
      (by omega)
    rw [if_pos hahead]
    refine ⟨_, rfl, ⟨rfl, h.enabled, freed ++ more, ?_, ?_⟩, ?_, ?_⟩
    · change added = freed ++ more ++ contents (dropFreed b.first (pos - b.freedPos) b.freedPos).1
      rw [List.append_assoc, ← hcontents, hadded]
    · change (dropFreed b.first (pos - b.freedPos) b.freedPos).2 = _
      rw [hpos, List.length_append, hfreed]
    · change b.freedPos ≤ (dropFreed b.first (pos - b.freedPos) b.freedPos).2
      omega
    · intro i hi hlt
      change i < (dropFreed b.first (pos - b.freedPos) b.freedPos).2 at hlt
      omega
  · rw [if_neg hahead]
    refine ⟨_, rfl, ⟨rfl, h.enabled, freed, hadded, hfreed⟩, le_rfl, ?_⟩
    intro i hi hlt
    exact absurd hlt (not_lt.mpr hi)

lemma lock_eq (h : b.sync = false) : b.lock = some { b with sync := true } := by
  rw [lock, Fifo.lock_eq h]
  rfl

lemma add_unlocks (h : b.sync = false) (buffer : Bytes) :
    ∃ r, b.add buffer = some r ∧ r.2.sync = false := by
  unfold add FifoBuffer.add
  by_cases hne : buffer = []
  · rw [if_pos hne]
    exact ⟨_, rfl, h⟩
  · rw [if_neg hne, Fifo.lock_eq h, Option.bind_eq_bind, Option.bind_some]
    split
    · exact ⟨_, rfl, rfl⟩
    · split
      · exact ⟨_, rfl, rfl⟩
      · exact ⟨_, rfl, rfl⟩

lemma freePos_unlocks (h : b.sync = false) (pos : Nat) :
    ∃ t, b.freePos pos = some t ∧ t.sync = false := by
  unfold freePos
  rw [lock_eq h, Option.bind_eq_bind, Option.bind_some]
  split
  · exact ⟨_, rfl, rfl⟩
  · exact ⟨_, rfl, rfl⟩

end Holds

end PosBuffer

/-! ## Runs -/

/-- An addition or a freeing, the two operations of a writer and a reader by position. -/
inductive StreamOp where
  | add (buffer : Bytes)
  | freePos (pos : Nat)

def streamStep (s : PosBuffer × Bytes) : StreamOp → Option (PosBuffer × Bytes)
  | .add buffer => (s.1.add buffer).map (fun r => (r.2, if r.1 then s.2 ++ buffer else s.2))
  | .freePos pos => (s.1.freePos pos).map (fun b => (b, s.2))

def streamRun (s : PosBuffer × Bytes) (ops : List StreamOp) : Option (PosBuffer × Bytes) :=
  ops.foldlM streamStep s

/-- The bytes of the stream are held as long as there are less than `2 ^ 32` of them. -/
def HeldBelow (s : PosBuffer × Bytes) : Prop :=
  s.1.sync = false ∧ (s.2.length < 2 ^ 32 → s.1.Holds s.2)

lemma streamStep_held {s : PosBuffer × Bytes} (h : HeldBelow s) (op : StreamOp) :
    ∃ t, streamStep s op = some t ∧ HeldBelow t := by
  cases op with
  | add buffer =>
    obtain ⟨⟨taken, t⟩, ht, hsync⟩ := PosBuffer.add_unlocks h.1 buffer
    refine ⟨_, by rw [streamStep, ht]; rfl, hsync, fun hsize => ?_⟩
    have hlt : s.2.length < 2 ^ 32 := by
      cases taken
      · exact hsize
      · exact lt_of_le_of_lt (by simp) hsize
    obtain ⟨t', taken', ht', hholds⟩ := (h.2 hlt).add buffer
    obtain ⟨rfl, rfl⟩ := Prod.mk.inj (Option.some.inj (ht.symm.trans ht'))
    exact hholds
  | freePos pos =>
    obtain ⟨t, ht, hsync⟩ := PosBuffer.freePos_unlocks h.1 pos
    refine ⟨(t, s.2), by rw [streamStep, ht]; rfl, hsync, fun hsize => ?_⟩
    obtain ⟨t', ht', hholds, -⟩ := (h.2 hsize).freePos hsize pos
    obtain rfl := Option.some.inj (ht.symm.trans ht')
    exact hholds

lemma streamRun_held {s : PosBuffer × Bytes} (h : HeldBelow s) (ops : List StreamOp) :
    ∃ t, streamRun s ops = some t ∧ HeldBelow t := by
  induction ops generalizing s with
  | nil => exact ⟨s, rfl, h⟩
  | cons op ops ih =>
    obtain ⟨t, ht, hheld⟩ := streamStep_held h op
    obtain ⟨r, hr, hend⟩ := ih hheld
    refine ⟨r, ?_, hend⟩
    rw [streamRun, List.foldlM_cons, ht]
    exact hr

lemma posStart_holds (settings : Settings) : (posStart settings).Holds [] where
  unlocked := rfl
  enabled := rfl
  bytes := ⟨[], rfl, rfl⟩

/-- After any sequence of additions and freeings a read by position gives the bytes of the stream,
where a size of zero asks for all that are left, and a freeing deletes no byte at its position or
behind it. -/
theorem streamRun_reads (settings : Settings) (ops : List StreamOp) :
    ∃ s, streamRun (posStart settings, []) ops = some s ∧ (s.2.length < 2 ^ 32 →
      (∀ getSize pos, pos < 2 ^ 32 → s.1.getFromPos getSize pos =
        some (PosBuffer.readAt s.1.freedPos s.2 getSize pos, s.1)) ∧
      ∀ pos, ∃ t, s.1.freePos pos = some t ∧ s.1.freedPos ≤ t.freedPos ∧
        ∀ i, s.1.freedPos ≤ i → i < t.freedPos → i < pos) := by
  have hstart : HeldBelow (posStart settings, []) := ⟨rfl, fun _ => posStart_holds settings⟩
  obtain ⟨s, hs, -, hheld⟩ := streamRun_held hstart ops
  refine ⟨s, hs, fun hlength => ?_⟩
  have hholds := hheld hlength
  refine ⟨fun getSize pos hpos => hholds.getFromPos hlength getSize pos hpos, fun pos => ?_⟩
  obtain ⟨t, ht, -, hle, hbefore⟩ := hholds.freePos hlength pos
  exact ⟨t, ht, hle, hbefore⟩

theorem streamRun_reads_example : ∃ s, streamRun (posStart { maxItemBufferLength := 2 }, [])
      [.add [1, 2, 3], .freePos 2, .add [4, 5]] = some s ∧
    s.1.getFromPos 600 2 = some (some [3, 4, 5], s.1) ∧
    s.1.getFromPos 600 1 = some (none, s.1) := by
  obtain ⟨s, hs, hreads⟩ := streamRun_reads { maxItemBufferLength := 2 }
    [.add [1, 2, 3], .freePos 2, .add [4, 5]]
  have hstate : s.1.freedPos = 2 ∧ s.2 = [1, 2, 3, 4, 5] := by
    obtain rfl := Option.some.inj hs
    decide
  obtain ⟨hreads, -⟩ := hreads (by rw [hstate.2]; decide)
  have hlast := hreads 600 2 (by decide)
  have hfirst := hreads 600 1 (by decide)
  rw [hstate.1, hstate.2] at hlast hfirst
  exact ⟨s, hs, hlast, hfirst⟩

/-- For a size of zero `get_from_pos` gives not the empty part of the stream but all the rest. -/
theorem getFromPos_zero : ∃ s, streamRun (posStart {}, []) [.add [1, 2, 3]] = some s ∧
    s.1.freedPos ≤ 1 ∧ 1 < s.2.length ∧ s.1.getFromPos 0 1 = some (some [2, 3], s.1) ∧
    s.1.getFromPos 0 1 ≠ some (some ((s.2.drop 1).take (min 0 (s.2.length - 1))), s.1) := by
  refine ⟨_, rfl, ?_⟩
  decide +kernel

/-!
## The lock of a byte queue

Every operation gives the lock back, but for a `get` that finds nothing to return. After that no
operation that locks returns.
-/

namespace PosBuffer
variable {b : PosBuffer}

def CanGet (b : PosBuffer) : Prop :=
  b.disable = false ∧ b.size ≠ 0 ∧ b.getPos ≤ b.size - 1

lemma getBytes_eq_none_iff (b : FifoBuffer) (getSize getPos : Nat) :
    b.getBytes getSize getPos = none ↔
      ¬(b.disable = false ∧ b.size ≠ 0 ∧ getPos ≤ b.size - 1) := by
  unfold FifoBuffer.getBytes
  cases hdisable : b.disable with
  | true => simp
  | false =>
    rw [if_neg (by decide)]
    dsimp only
    split
    · exact iff_of_true rfl (by omega)
    · exact iff_of_false (Option.some_ne_none _) (by simp only [true_and]; omega)

lemma get_unlocks (h : b.sync = false) (getSize : Nat) :
    ∃ r, b.get getSize = some r ∧ (r.2.sync = false ↔ b.CanGet) := by
  have hbytes := getBytes_eq_none_iff { b.toFifoBuffer with sync := true } getSize b.getPos
  unfold get FifoBuffer.get
  rw [Fifo.lock_eq h, Option.bind_eq_bind, Option.bind_some]
  cases hget : FifoBuffer.getBytes { b.toFifoBuffer with sync := true } getSize b.getPos with
  | none =>
    refine ⟨_, rfl, iff_of_false (fun hsync => by cases hsync) (hbytes.mp hget)⟩
  | some r =>
    refine ⟨_, rfl, iff_of_true rfl ?_⟩
    by_contra hnot
    rw [hbytes.mpr hnot] at hget
    cases hget

lemma getFromPos_unlocks (h : b.sync = false) (getSize getPos : Nat) :
    ∃ r, b.getFromPos getSize getPos = some r ∧ r.2.sync = false := by
  unfold getFromPos
  rw [lock_eq h, Option.bind_eq_bind, Option.bind_some]
  split
  · exact ⟨_, rfl, rfl⟩
  · exact ⟨_, rfl, rfl⟩

lemma last_unlocks (h : b.sync = false) : ∃ r, b.last = some r ∧ r.2.sync = false := by
  unfold last
  split
  · exact ⟨_, rfl, h⟩
  · rw [lock_eq h]
    exact ⟨_, rfl, rfl⟩

end PosBuffer

/-! ## Steps -/

/-- The operation is no `get`, or one that finds something to return. -/
def Unlocks (b : PosBuffer) : PosOp → Prop
  | .get _ => b.CanGet
  | _ => True

lemma posStep_unlocks {b : PosBuffer} (h : b.sync = false) (op : PosOp) :
    ∃ t, posStep b op = some t ∧ (t.sync = false ↔ Unlocks b op) := by
  have hlocked : b.lock = some { b with sync := true } := PosBuffer.lock_eq h
  cases op with
  | add buffer =>
    obtain ⟨r, hr, hsync⟩ := PosBuffer.add_unlocks h buffer
    exact ⟨r.2, by rw [posStep, hr]; rfl, iff_of_true hsync trivial⟩
  | get getSize =>
    obtain ⟨r, hr, hsync⟩ := PosBuffer.get_unlocks h getSize
    exact ⟨r.2, by rw [posStep, hr]; rfl, hsync⟩
  | getFromPos getSize getPos =>
    obtain ⟨r, hr, hsync⟩ := PosBuffer.getFromPos_unlocks h getSize getPos
    exact ⟨r.2, by rw [posStep, hr]; rfl, iff_of_true hsync trivial⟩
  | free =>
    exact ⟨_, by rw [posStep, PosBuffer.free, hlocked]; rfl, iff_of_true rfl trivial⟩
  | freePos pos =>
    obtain ⟨t, ht, hsync⟩ := PosBuffer.freePos_unlocks h pos
    exact ⟨t, ht, iff_of_true hsync trivial⟩
  | cleanAndDisable =>
    exact ⟨_, by rw [posStep, PosBuffer.cleanAndDisable, hlocked]; rfl, iff_of_true rfl trivial⟩
  | enable =>
    exact ⟨_, by rw [posStep, PosBuffer.enable, hlocked]; rfl, iff_of_true rfl trivial⟩
  | sizeAll =>
    exact ⟨_, by rw [posStep, PosBuffer.sizeAll, hlocked]; rfl, iff_of_true rfl trivial⟩
  | sizeAllWithFreedPos =>
    exact ⟨_, by rw [posStep, PosBuffer.sizeAllWithFreedPos, hlocked]; rfl,
      iff_of_true rfl trivial⟩
  | sizeGet =>
    exact ⟨_, by rw [posStep, PosBuffer.sizeGet, hlocked]; rfl, iff_of_true rfl trivial⟩
  | last =>
    obtain ⟨r, hr, hsync⟩ := PosBuffer.last_unlocks h
    exact ⟨r.2, by rw [posStep, hr]; rfl, iff_of_true hsync trivial⟩

/-! ## Runs -/

/-- All operations return, and the lock is free before each of them and at the end. -/
def LockFree : PosBuffer → List PosOp → Prop
  | b, [] => b.sync = false
  | b, op :: ops => b.sync = false ∧ ∃ t, posStep b op = some t ∧ LockFree t ops

/-- Every `get` of the run finds something to return. -/
def AllUnlock : PosBuffer → List PosOp → Prop
  | _, [] => True
  | b, op :: ops => Unlocks b op ∧ ∀ t, posStep b op = some t → AllUnlock t ops

lemma LockFree.sync {b : PosBuffer} {ops : List PosOp} (h : LockFree b ops) : b.sync = false := by
  cases ops with
  | nil => exact h
  | cons op ops => exact h.1

lemma lockFree_iff {b : PosBuffer} (h : b.sync = false) (ops : List PosOp) :
    LockFree b ops ↔ AllUnlock b ops := by
  induction ops generalizing b with
  | nil => exact iff_of_true h trivial
  | cons op ops ih =>
    obtain ⟨t, ht, hsync⟩ := posStep_unlocks h op
    constructor
    · rintro ⟨-, t', ht', hfree⟩
      obtain rfl := Option.some.inj (ht.symm.trans ht')
      refine ⟨hsync.mp hfree.sync, fun t'' ht'' => ?_⟩
      obtain rfl := Option.some.inj (ht.symm.trans ht'')
      exact (ih hfree.sync).mp hfree
    · rintro ⟨hunlocks, hrest⟩
      exact ⟨h, t, ht, (ih (hsync.mpr hunlocks)).mpr (hrest t ht)⟩

/-- The operations on a new buffer all return and leave the lock free exactly when every `get` is
called on an enabled buffer with bytes that were not returned yet. -/
theorem posStart_lockFree_iff (settings : Settings) (ops : List PosOp) :
    LockFree (posStart settings) ops ↔ AllUnlock (posStart settings) ops :=
  lockFree_iff rfl ops

/-- A `get` of a new buffer finds nothing and keeps the lock, so that an `add` does not return. -/
theorem posStart_get_keeps_lock :
    ∃ b, posStep (posStart {}) (.get 600) = some b ∧ (posStart {}).sync = false ∧ b.sync = true ∧
      posStep b (.add [1]) = none ∧ ¬LockFree (posStart {}) [.get 600] := by
  refine ⟨_, rfl, rfl, rfl, rfl, ?_⟩
  rintro ⟨-, t, ht, hfree⟩
  obtain rfl := Option.some.inj ht
  cases hfree

end VoipMonitor.Fifo
