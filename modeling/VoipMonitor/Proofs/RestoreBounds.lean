import VoipMonitor.Library.Runs
import VoipMonitor.Proofs.BlockWire

/-!
# What the restore of a block reads

The length of a save buffer is computed from three 32-bit fields of its header and kept in an
`int`. The two copies of `restoreFromSaveBuffer` use the fields themselves. A length that does
not fit into 32 bits is therefore compared without its upper part, and the copies run past the
bytes that were received.
-/

namespace VoipMonitor.BlockStore
open VoipMonitor.Library

/-- The two copies of `restoreFromSaveBuffer`: position and length in the restore buffer. -/
def restoreCopies (rb : Bytes) : List (Nat × Nat) :=
  let h := headerOf rb
  [(sizeofHeader, h.count * 4),
    (sizeofHeader + h.count * 4, if h.sizeCompress ≠ 0 then h.sizeCompress else h.size)]

def RestoreCovered (rb : Bytes) : Prop :=
  announcedSize rb ≤ rb.length ∧ ∀ c ∈ restoreCopies rb, c.1 + c.2 ≤ rb.length

/-- What callers do with a block store: they add the bytes of a buffer from an offset on, drop
the restore buffer, or take a new block store. -/
inductive RestoreAct where
  | addRestoreChunk (now : Nat) (restoreFromStore : Bool) (buffer : Bytes) (offset : Option Nat)
  | destroyRestoreBuffer
  | newBlockStore

def restoreStep (cfg : Config) (b : PcapBlockStore) : RestoreAct → PcapBlockStore
  | .addRestoreChunk now fs buffer offset => (addRestoreChunk cfg now fs b buffer offset).store
  | .destroyRestoreBuffer => destroyRestoreBuffer b
  | .newBlockStore => {}

def collected (b : PcapBlockStore) (buffer : Bytes) (offset : Option Nat) : Bytes :=
  b.restoreBuffer ++ buffer.drop (offset.getD 0)

/-- The restore buffer after the check of the sender's time. -/
def clearedTime (restoreFromStore : Bool) (rb : Bytes) : Bytes :=
  if restoreFromStore = false ∧ sizeofHeader ≤ rb.length ∧ (headerOf rb).timeS ≠ 0 then
    overwrite rb 60 (encodeLe 4 0)
  else rb

/-- A call that restores finds all the bytes it copies. -/
def RestoreInBounds (cfg : Config) (b : PcapBlockStore) : RestoreAct → Prop
  | .addRestoreChunk now fs buffer offset =>
    (addRestoreChunk cfg now fs b buffer offset).ret = 1 →
      RestoreCovered (clearedTime fs (collected b buffer offset))
  | _ => True

/-- The checks in front of the comparison of the lengths. -/
structure HeaderAccepted (cfg : Config) (now : Nat) (fs : Bool) (rb : Bytes) : Prop where
  size_le : rb.length ≤ cfg.blockMaxSize * 10
  title : sizeofHeader ≤ rb.length → (headerOf rb).title = headerString
  version : sizeofHeader ≤ rb.length → (headerOf rb).version = headerVersion
  time : fs = false → sizeofHeader ≤ rb.length → (headerOf rb).timeS ≠ 0 →
    timeDiff (headerOf rb).timeS now ≤ cfg.receiveMaximumTimeDiffS

def ChecksumMatches (rb : Bytes) (n : Nat) : Prop :=
  (headerOf rb).checksum = 0 ∨
    (headerOf rb).checksum =
      max (checksum32buf (slice rb sizeofHeader (toSizeT (n - sizeofHeader)))) 1

/-- The fields announce more bytes than 32 bits can count and than there are, and what is left
of the length in an `int` is met by the new bytes. -/
structure LengthWraps (cfg : Config) (now : Nat) (fs : Bool) (b : PcapBlockStore) (buffer : Bytes)
    (offset : Option Nat) : Prop where
  part_ne : buffer.drop (offset.getD 0) ≠ []
  complete : sizeofHeader ≤ (collected b buffer offset).length
  accepted : HeaderAccepted cfg now fs (collected b buffer offset)
  wide : 2 ^ 32 ≤ announcedSize (collected b buffer offset)
  missing : (collected b buffer offset).length < announcedSize (collected b buffer offset)
  nonneg : announcedSize (collected b buffer offset) % 2 ^ 32 < 2 ^ 31
  old_le : b.restoreBuffer.length ≤ announcedSize (collected b buffer offset) % 2 ^ 32
  le_new : announcedSize (collected b buffer offset) % 2 ^ 32 ≤ (collected b buffer offset).length
  checksum : ChecksumMatches (clearedTime fs (collected b buffer offset))
    (announcedSize (collected b buffer offset) % 2 ^ 32)

def LengthFits (cfg : Config) (b : PcapBlockStore) : RestoreAct → Prop
  | .addRestoreChunk now fs buffer offset => ¬LengthWraps cfg now fs b buffer offset
  | _ => True

/-! ## The cleared time -/

lemma slice_overwrite_before {dst src : Bytes} {o p n : Nat} (h : p + n ≤ o) (ho : o ≤ dst.length) :
    slice (overwrite dst o src) p n = slice dst p n := by
  have hl : p + n ≤ (dst.take o).length := by
    rw [List.length_take]
    omega
  rw [overwrite, List.append_assoc, slice_append_left hl]
  conv_rhs => rw [← List.take_append_drop o dst, slice_append_left hl]

lemma length_clearedTime (fs : Bool) (rb : Bytes) : (clearedTime fs rb).length = rb.length := by
  unfold clearedTime
  split
  · rename_i h
    have hlen := h.2.1
    unfold sizeofHeader at hlen
    exact length_overwrite (by rw [length_encodeLe]; omega)
  · rfl

lemma headerOf_clearedTime (fs : Bool) (rb : Bytes) :
    (headerOf (clearedTime fs rb)).count = (headerOf rb).count ∧
      (headerOf (clearedTime fs rb)).size = (headerOf rb).size ∧
      (headerOf (clearedTime fs rb)).sizeCompress = (headerOf rb).sizeCompress := by
  unfold clearedTime
  split
  · rename_i h
    have hlen := h.2.1
    unfold sizeofHeader at hlen
    simp only [headerOf]
    rw [slice_overwrite_before (by omega) (by omega), slice_overwrite_before (by omega) (by omega),
      slice_overwrite_before (by omega) (by omega)]
    exact ⟨rfl, rfl, rfl⟩
  · exact ⟨rfl, rfl, rfl⟩

lemma announcedSize_clearedTime (fs : Bool) (rb : Bytes) :
    announcedSize (clearedTime fs rb) = announcedSize rb := by
  obtain ⟨hcount, hsize, hcompress⟩ := headerOf_clearedTime fs rb
  simp only [announcedSize, hcount, hsize, hcompress]

lemma restoreCovered_iff (rb : Bytes) : RestoreCovered rb ↔ announcedSize rb ≤ rb.length := by
  constructor
  · exact And.left
  · intro h
    refine ⟨h, ?_⟩
    unfold announcedSize at h
    simp only [restoreCopies, List.mem_cons, List.not_mem_nil, or_false]
    rintro c (rfl | rfl)
    · dsimp only at h ⊢
      omega
    · exact h

/-! ## When a call restores -/

lemma toInt32_of_lt {n : Nat} (h : n % 2 ^ 32 < 2 ^ 31) : toInt32 n = (n % 2 ^ 32 : Nat) := by
  unfold toInt32
  rw [Int.bmod_def]
  split <;> omega

lemma toInt32_neg {n : Nat} (h : ¬n % 2 ^ 32 < 2 ^ 31) : toInt32 n < 0 := by
  unfold toInt32
  rw [Int.bmod_def]
  split <;> omega

lemma toSizeT_natCast {n : Nat} (h : n < 2 ^ 64) : toSizeT n = n := by
  unfold toSizeT
  omega

def restoredStore (b : PcapBlockStore) (rb : Bytes) : PcapBlockStore :=
  destroyRestoreBuffer (restoreFromSaveBuffer { b with restoreBuffer := rb } rb)

variable {cfg : Config} {now : Nat} {fs : Bool} {b : PcapBlockStore} {buffer : Bytes}
  {offset : Option Nat} {rb : Bytes}

lemma sizeFromRestoreBuffer_announced (hlen : sizeofHeader ≤ rb.length) :
    getSizeSaveBufferFromRestoreBuffer rb = toInt32 (announcedSize rb) := by
  rw [getSizeSaveBufferFromRestoreBuffer, if_pos hlen]
  rfl

lemma tryRestore_oversize (partLength bufferLength : Nat) (hlen : sizeofHeader ≤ rb.length)
    (h : toSizeT (toInt32 (announcedSize rb)) < rb.length - partLength) :
    (tryRestore b rb partLength bufferLength offset).ret = -4 := by
  unfold tryRestore
  dsimp only
  rw [sizeFromRestoreBuffer_announced hlen, if_pos h]

lemma tryRestore_more (partLength bufferLength : Nat) (hlen : sizeofHeader ≤ rb.length)
    (h : rb.length - partLength ≤ toSizeT (toInt32 (announcedSize rb)))
    (hmore : ¬(announcedSize rb % 2 ^ 32 < 2 ^ 31 ∧ announcedSize rb % 2 ^ 32 ≤ rb.length)) :
    tryRestore b rb partLength bufferLength offset = ⟨0, { b with restoreBuffer := rb }, offset⟩ := by
  unfold tryRestore
  rw [sizeFromRestoreBuffer_announced hlen, if_neg (Nat.not_lt.mpr h)]
  by_cases hpos : announcedSize rb % 2 ^ 32 < 2 ^ 31
  · rw [toInt32_of_lt hpos, toSizeT_natCast (by omega), if_pos (by omega)]
  · rw [if_pos (Or.inl (toInt32_neg hpos))]

lemma tryRestore_enough (partLength bufferLength : Nat) (hlen : sizeofHeader ≤ rb.length)
    (hold : rb.length - partLength ≤ announcedSize rb % 2 ^ 32)
    (hpos : announcedSize rb % 2 ^ 32 < 2 ^ 31) (hnew : announcedSize rb % 2 ^ 32 ≤ rb.length) :
    (ChecksumMatches rb (announcedSize rb % 2 ^ 32) →
      (tryRestore b rb partLength bufferLength offset).ret = 1 ∧
      (tryRestore b rb partLength bufferLength offset).store = restoredStore b rb) ∧
    (¬ChecksumMatches rb (announcedSize rb % 2 ^ 32) →
      (tryRestore b rb partLength bufferLength offset).ret = -5) := by
  unfold tryRestore
  dsimp only
  rw [sizeFromRestoreBuffer_announced hlen, toInt32_of_lt hpos, toSizeT_natCast (by omega),
    if_neg (by omega), if_neg (by omega), Int.toNat_natCast]
  unfold ChecksumMatches
  constructor
  · intro hsum
    rw [if_neg (by tauto)]
    exact ⟨rfl, rfl⟩
  · intro hsum
    rw [if_pos (by tauto)]

lemma tryRestore_restores_iff (partLength bufferLength : Nat) (hlen : sizeofHeader ≤ rb.length) :
    (tryRestore b rb partLength bufferLength offset).ret = 1 ↔
      announcedSize rb % 2 ^ 32 < 2 ^ 31 ∧ rb.length - partLength ≤ announcedSize rb % 2 ^ 32 ∧
        announcedSize rb % 2 ^ 32 ≤ rb.length ∧
        ChecksumMatches rb (announcedSize rb % 2 ^ 32) := by
  constructor
  · intro h
    have hold : rb.length - partLength ≤ toSizeT (toInt32 (announcedSize rb)) := by
      by_contra hold
      rw [tryRestore_oversize _ _ hlen (Nat.lt_of_not_le hold)] at h
      cases h
    by_cases hmore : announcedSize rb % 2 ^ 32 < 2 ^ 31 ∧ announcedSize rb % 2 ^ 32 ≤ rb.length
    · rw [toInt32_of_lt hmore.1, toSizeT_natCast (by omega)] at hold
      refine ⟨hmore.1, hold, hmore.2, ?_⟩
      by_contra hsum
      rw [(tryRestore_enough _ _ hlen hold hmore.1 hmore.2).2 hsum] at h
      cases h
    · rw [tryRestore_more _ _ hlen hold hmore] at h
      cases h
  · rintro ⟨hpos, hold, hnew, hsum⟩
    exact ((tryRestore_enough _ _ hlen hold hpos hnew).1 hsum).1

lemma tryRestore_short (partLength bufferLength : Nat) (hlen : ¬sizeofHeader ≤ rb.length) :
    tryRestore b rb partLength bufferLength offset = ⟨0, { b with restoreBuffer := rb }, offset⟩ := by
  have hsize : getSizeSaveBufferFromRestoreBuffer rb = -1 := by
    rw [getSizeSaveBufferFromRestoreBuffer, if_neg hlen]
  have hbig : toSizeT (-1) = 2 ^ 64 - 1 := by decide
  unfold tryRestore
  dsimp only
  unfold sizeofHeader at hlen
  rw [hsize, hbig, if_neg (by omega), if_pos (Or.inl (by decide))]

lemma addRestoreChunk_accepted (hne : buffer.drop (offset.getD 0) ≠ [])
    (h : HeaderAccepted cfg now fs (collected b buffer offset)) :
    addRestoreChunk cfg now fs b buffer offset =
      tryRestore { b with restoreBuffer := collected b buffer offset }
        (clearedTime fs (collected b buffer offset)) (buffer.drop (offset.getD 0)).length
        buffer.length offset := by
  have hlen : (buffer.drop (offset.getD 0)).length ≠ 0 :=
    fun h0 => hne (List.length_eq_zero_iff.mp h0)
  unfold addRestoreChunk
  dsimp only
  rw [← collected, if_neg hlen, if_neg (Nat.not_lt.mpr h.size_le),
    if_neg (fun h0 => h0.2 (h.title h0.1)), if_neg (fun h0 => h0.2 (h.version h0.1)), clearedTime]
  split
  · rename_i htime
    rw [if_neg (Nat.not_lt.mpr (h.time htime.1 htime.2.1 htime.2.2))]
  · rfl

lemma addRestoreChunk_refused (hne : buffer.drop (offset.getD 0) ≠ [])
    (h : ¬HeaderAccepted cfg now fs (collected b buffer offset)) :
    (addRestoreChunk cfg now fs b buffer offset).ret < 0 ∧
      (addRestoreChunk cfg now fs b buffer offset).ret ≠ -5 := by
  have hlen : (buffer.drop (offset.getD 0)).length ≠ 0 :=
    fun h0 => hne (List.length_eq_zero_iff.mp h0)
  unfold addRestoreChunk
  dsimp only
  rw [← collected, if_neg hlen]
  split_ifs with hbig htitle hversion htime hdiff
  · exact (by decide : (-2 : Int) < 0 ∧ (-2 : Int) ≠ -5)
  · exact (by decide : (-3 : Int) < 0 ∧ (-3 : Int) ≠ -5)
  · exact (by decide : (-6 : Int) < 0 ∧ (-6 : Int) ≠ -5)
  · exact (by decide : (-7 : Int) < 0 ∧ (-7 : Int) ≠ -5)
  · exact absurd ⟨by omega, by tauto, by tauto, fun _ _ _ => by omega⟩ h
  · exact absurd ⟨by omega, by tauto, by tauto, fun h1 h2 h3 => absurd ⟨h1, h2, h3⟩ htime⟩ h

lemma addRestoreChunk_no_bytes (h : buffer.drop (offset.getD 0) = []) :
    addRestoreChunk cfg now fs b buffer offset = ⟨-1, b, offset⟩ := by
  unfold addRestoreChunk
  rw [h, if_pos List.length_nil]

lemma addRestoreChunk_restores_iff :
    (addRestoreChunk cfg now fs b buffer offset).ret = 1 ↔
      buffer.drop (offset.getD 0) ≠ [] ∧ sizeofHeader ≤ (collected b buffer offset).length ∧
        HeaderAccepted cfg now fs (collected b buffer offset) ∧
        announcedSize (collected b buffer offset) % 2 ^ 32 < 2 ^ 31 ∧
        b.restoreBuffer.length ≤ announcedSize (collected b buffer offset) % 2 ^ 32 ∧
        announcedSize (collected b buffer offset) % 2 ^ 32 ≤ (collected b buffer offset).length ∧
        ChecksumMatches (clearedTime fs (collected b buffer offset))
          (announcedSize (collected b buffer offset) % 2 ^ 32) := by
  have hold : (collected b buffer offset).length - (buffer.drop (offset.getD 0)).length =
      b.restoreBuffer.length := by
    rw [collected, List.length_append]
    omega
  by_cases hne : buffer.drop (offset.getD 0) = []
  · rw [addRestoreChunk_no_bytes hne]
    exact ⟨fun h => (by cases h), fun h => absurd hne h.1⟩
  by_cases haccept : HeaderAccepted cfg now fs (collected b buffer offset)
  swap
  · obtain ⟨hneg, -⟩ := addRestoreChunk_refused hne haccept
    exact ⟨fun h => by omega, fun h => absurd h.2.2.1 haccept⟩
  rw [addRestoreChunk_accepted hne haccept]
  by_cases hcomplete : sizeofHeader ≤ (collected b buffer offset).length
  · rw [tryRestore_restores_iff _ _ (by rw [length_clearedTime]; exact hcomplete),
      announcedSize_clearedTime, length_clearedTime, hold]
    exact ⟨fun h => ⟨hne, hcomplete, haccept, h⟩, fun h => h.2.2.2⟩
  · rw [tryRestore_short _ _ (by rw [length_clearedTime]; exact hcomplete)]
    exact ⟨fun h => (by cases h), fun h => absurd h.2.1 hcomplete⟩

/-! ## Runs -/

lemma restoreInBounds_iff (cfg : Config) (b : PcapBlockStore) (a : RestoreAct) :
    RestoreInBounds cfg b a ↔ LengthFits cfg b a := by
  cases a with
  | destroyRestoreBuffer => exact Iff.rfl
  | newBlockStore => exact Iff.rfl
  | addRestoreChunk now fs buffer offset =>
    change ((addRestoreChunk cfg now fs b buffer offset).ret = 1 → _) ↔
      ¬LengthWraps cfg now fs b buffer offset
    rw [addRestoreChunk_restores_iff, restoreCovered_iff, announcedSize_clearedTime,
      length_clearedTime]
    constructor
    · intro h hwraps
      have hle := h ⟨hwraps.part_ne, hwraps.complete, hwraps.accepted, hwraps.nonneg,
        hwraps.old_le, hwraps.le_new, hwraps.checksum⟩
      have := hwraps.missing
      omega
    · rintro h ⟨hne, hcomplete, haccept, hneg, hold, hnew, hsum⟩
      by_contra hmissing
      refine h ⟨hne, hcomplete, haccept, ?_, by omega, hneg, hold, hnew, hsum⟩
      -- a length below 2^32 is kept by the conversion, and then it was compared
      by_contra hwide
      rw [Nat.mod_eq_of_lt (by omega)] at hnew
      omega

/-- For every sequence of chunks: all restores stay inside of the received bytes if and only if
no header announces a length that wraps and is then met. -/
theorem restores_in_bounds_iff (cfg : Config) (b : PcapBlockStore) (acts : List RestoreAct) :
    AlongRun (restoreStep cfg) (RestoreInBounds cfg) b acts ↔
      AlongRun (restoreStep cfg) (LengthFits cfg) b acts :=
  alongRun_iff (I := fun _ => True) (fun b a _ => restoreInBounds_iff cfg b a)
    (fun _ _ _ _ => trivial) acts trivial

/-- A header that announces `2 ^ 30` packets and no bytes. -/
def hostileHeader : PcapBlockStoreHeader := { count := 2 ^ 30 }

/-- The header alone is taken for a whole block: the copy of the offsets asks for 4 GiB. -/
theorem restores_past_the_header :
    ¬AlongRun (restoreStep {}) (RestoreInBounds {}) {}
      [.addRestoreChunk 0 false hostileHeader.bytes (some 0)] := by
  intro h
  have hcovered := h.1 (by decide +kernel)
  exact absurd hcovered.1 (by decide +kernel)

end VoipMonitor.BlockStore
