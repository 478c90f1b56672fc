import VoipMonitor.Proofs.BlockValidators
import VoipMonitor.Proofs.RestoreBounds

/-!
# Which buffers of a client are taken for a block

`addRestoreChunk` asks for more bytes when a buffer is only the beginning of a block. This result
is no error, so such a buffer is answered like a whole block and an empty block is pushed. Other
buffers make it or `check_offsets` read memory behind the buffer, and there is no result.
-/

namespace VoipMonitor.BlockStore
open VoipMonitor.Library

def ChecksOk (behind : Bytes) (b : BlockContent) : Prop :=
  checkOffsetsReads b = some true ∧
    (b.sizeCompress = 0 → checkHeaders { b with block := b.block ++ behind } = none)

def receivedBlock (buffer : Bytes) : BlockContent :=
  (restoreFromSaveBuffer {} (clearedTime false buffer)).toBlockContent

structure CompleteBlock (cfg : Config) (now : Nat) (behind buffer : Bytes) : Prop where
  complete : sizeofHeader ≤ buffer.length
  accepted : HeaderAccepted cfg now false buffer
  announced_le : announcedSize buffer ≤ buffer.length
  checksum : ChecksumMatches (clearedTime false buffer) (announcedSize buffer)
  checks : ChecksOk behind (receivedBlock buffer)

def addBlock (q : ServerQueue) (b : BlockContent) : ServerQueue :=
  if q.blockCounter = b.blockCounter then q
  else { blockCounter := b.blockCounter, pcapStoreQueue := q.pcapStoreQueue ++ [b] }

/-- There is a result: the buffer is added as the block that it holds, or refused. -/
def AddsOnlyBlocks (cfg : Config) (now : Nat) (e : NewBlockEnv) (q : ServerQueue)
    (buffer : Bytes) : Prop :=
  ∃ r, addBlockStoreToPcapStoreQueue cfg now e q buffer = some r ∧
    (r.ok = true →
      CompleteBlock cfg now e.behind buffer ∧ r.queue = addBlock q (receivedBlock buffer)) ∧
    (¬CompleteBlock cfg now e.behind buffer → r.ok = false ∧ r.error ≠ "" ∧ r.queue = q)

/-- Nothing is wrong with the bytes so far, but the header is not complete, or the length that it
announces is negative as an `int` or not reached. -/
structure OnlyBeginning (cfg : Config) (now : Nat) (buffer : Bytes) : Prop where
  buffer_ne : buffer ≠ []
  accepted : HeaderAccepted cfg now false buffer
  short : sizeofHeader ≤ buffer.length →
    ¬(announcedSize buffer % 2 ^ 32 < 2 ^ 31 ∧ announcedSize buffer % 2 ^ 32 ≤ buffer.length)

structure LengthReached (cfg : Config) (now : Nat) (buffer : Bytes) : Prop where
  complete : sizeofHeader ≤ buffer.length
  accepted : HeaderAccepted cfg now false buffer
  nonneg : announcedSize buffer % 2 ^ 32 < 2 ^ 31
  reached : announcedSize buffer % 2 ^ 32 ≤ buffer.length

/-- What is read lies in the buffer: the bytes of the checksum, and when it matches those that are
announced and the first offset. -/
structure ReadsInside (buffer : Bytes) : Prop where
  checksum : (headerOf buffer).checksum = 0 ∨ sizeofHeader ≤ announcedSize buffer % 2 ^ 32
  announced : ChecksumMatches (clearedTime false buffer) (announcedSize buffer % 2 ^ 32) →
    announcedSize buffer ≤ buffer.length
  packets : ChecksumMatches (clearedTime false buffer) (announcedSize buffer % 2 ^ 32) →
    (headerOf buffer).count ≠ 0

/-- The fields announce a length that does not fit into 32 bits, what is left of it has the checksum,
and the announced bytes do not have it. -/
structure LengthMisleads (cfg : Config) (now : Nat) (behind buffer : Bytes) : Prop where
  reached : LengthReached cfg now buffer
  wide : 2 ^ 32 ≤ announcedSize buffer
  checksum : ChecksumMatches (clearedTime false buffer) (announcedSize buffer % 2 ^ 32)
  checks : ChecksOk behind (receivedBlock buffer)
  wrong : ¬ChecksumMatches (clearedTime false buffer) (announcedSize buffer)

/-- The length does not mislead, and the buffer is not a beginning only. A whole block of 2 GiB and
more counts as one unless it is a duplicate that the new block store's counter hides. -/
structure WholeMessage (cfg : Config) (now : Nat) (e : NewBlockEnv) (q : ServerQueue)
    (buffer : Bytes) : Prop where
  beginning : OnlyBeginning cfg now buffer → CompleteBlock cfg now e.behind buffer ∧
    q.blockCounter = (receivedBlock buffer).blockCounter ∧ q.blockCounter = e.blockCounter
  inside : LengthReached cfg now buffer → ReadsInside buffer
  wraps : ¬LengthMisleads cfg now e.behind buffer

/-! ## The error text -/

lemma errorString_ne (code : Int) : errorString code ≠ "" := by
  unfold errorString
  split_ifs <;> decide

lemma serverRestoreError_ne (now : Nat) (b : PcapBlockStore) (code : Int) :
    serverRestoreError now b code ≠ "" := by
  unfold serverRestoreError
  split
  · intro h
    have hlen := congrArg String.length h
    simp [String.length_append] at hlen
  · exact errorString_ne code

lemma addBlockError_restored (now : Nat) (behind : Bytes) {r : ChunkResult} (h : r.ret = 1)
    (hne : r.store.offsets ≠ []) :
    ∃ error, addBlockError now behind r = some error ∧
      (error = "" ↔ ChecksOk behind r.store.toBlockContent) := by
  unfold addBlockError ChecksOk
  rw [if_pos (by omega)]
  cases hoffsets : checkOffsetsReads r.store.toBlockContent with
  | none => exact absurd hoffsets (checkOffsetsReads_cons hne).2
  | some ok =>
    cases ok with
    | false => exact ⟨_, rfl, by simp⟩
    | true =>
      by_cases hcompress : r.store.sizeCompress = 0
      · rw [if_pos hcompress]
        cases checkHeaders { r.store.toBlockContent with block := r.store.block ++ behind } with
        | none => exact ⟨_, rfl, by simp⟩
        | some error =>
          refine ⟨_, rfl, ?_⟩
          simp only [hcompress, true_and, forall_const, reduceCtorEq, iff_false]
          intro h0
          have hlen := congrArg String.length h0
          simp [String.length_append] at hlen
      · exact ⟨"", by dsimp only; rw [if_neg hcompress], by simp [hcompress]⟩

lemma addBlockError_more (now : Nat) (behind : Bytes) {r : ChunkResult} (h : r.ret = 0) :
    addBlockError now behind r = some "" := by
  unfold addBlockError
  rw [if_neg (by omega), if_neg (by omega)]

lemma addBlockError_negative (now : Nat) (behind : Bytes) {r : ChunkResult} (h : r.ret < 0) :
    ∃ error, addBlockError now behind r = some error ∧ error ≠ "" := by
  unfold addBlockError
  rw [if_neg (by omega), if_pos h]
  exact ⟨_, rfl, serverRestoreError_ne now r.store r.ret⟩

/-! ## The three outcomes -/

variable {cfg : Config} {now : Nat} {e : NewBlockEnv} {q : ServerQueue} {buffer : Bytes}

lemma collected_new (e : NewBlockEnv) (buffer : Bytes) :
    collected (newBlockStore e) buffer none = buffer := rfl

def chunkResult (cfg : Config) (now : Nat) (e : NewBlockEnv) (buffer : Bytes) : ChunkResult :=
  addRestoreChunk cfg now false (newBlockStore e) buffer none

lemma add_no_error (hread : readsInside buffer (chunkResult cfg now e buffer).ret = true)
    (h : addBlockError now e.behind (chunkResult cfg now e buffer) = some "") :
    ∃ r, addBlockStoreToPcapStoreQueue cfg now e q buffer = some r ∧ r.ok = true ∧
      r.queue = addBlock q (chunkResult cfg now e buffer).store.toBlockContent := by
  unfold addBlockStoreToPcapStoreQueue addBlock
  rw [← chunkResult, if_neg (by rw [hread]; decide), h]
  dsimp only
  rw [if_pos rfl]
  split <;> exact ⟨_, rfl, rfl, rfl⟩

lemma add_error (hread : readsInside buffer (chunkResult cfg now e buffer).ret = true)
    {error : String} (h : addBlockError now e.behind (chunkResult cfg now e buffer) = some error)
    (hne : error ≠ "") : AddsOnlyBlocks cfg now e q buffer := by
  have hresult : ∃ r, addBlockStoreToPcapStoreQueue cfg now e q buffer = some r ∧ r.ok = false ∧
      r.error ≠ "" ∧ r.queue = q := by
    unfold addBlockStoreToPcapStoreQueue
    rw [← chunkResult, if_neg (by rw [hread]; decide), h]
    dsimp only
    rw [if_neg hne]
    exact ⟨_, rfl, rfl, hne, rfl⟩
  obtain ⟨r, hr, hrefused⟩ := hresult
  refine ⟨r, hr, fun hok => ?_, fun _ => hrefused⟩
  rw [hrefused.1] at hok
  cases hok

lemma not_adds_of_none (h : readsInside buffer (chunkResult cfg now e buffer).ret = false ∨
      addBlockError now e.behind (chunkResult cfg now e buffer) = none) :
    ¬AddsOnlyBlocks cfg now e q buffer := by
  rintro ⟨r, hr, -⟩
  unfold addBlockStoreToPcapStoreQueue at hr
  dsimp only at hr
  rw [← chunkResult] at hr
  rcases h with hread | hnone
  · rw [if_pos hread] at hr
    cases hr
  · rw [hnone, ite_self] at hr
    cases hr

lemma chunkResult_more (h : OnlyBeginning cfg now buffer) :
    (chunkResult cfg now e buffer).ret = 0 ∧
      (chunkResult cfg now e buffer).store.toBlockContent = (newBlockStore e).toBlockContent := by
  have hlen := length_clearedTime false buffer
  have hne : buffer.drop ((none : Option Nat).getD 0) ≠ [] := h.buffer_ne
  unfold chunkResult
  rw [addRestoreChunk_accepted hne h.accepted, collected_new]
  by_cases hcomplete : sizeofHeader ≤ buffer.length
  · rw [tryRestore_more _ _ (by rw [hlen]; exact hcomplete)
      (by rw [hlen, Option.getD_none, List.drop_zero, Nat.sub_self]; exact Nat.zero_le _)
      (by rw [hlen, announcedSize_clearedTime]; exact h.short hcomplete)]
    exact ⟨rfl, rfl⟩
  · rw [tryRestore_short _ _ (by rw [hlen]; exact hcomplete)]
    exact ⟨rfl, rfl⟩

lemma chunkResult_reached (h : LengthReached cfg now buffer) :
    (ChecksumMatches (clearedTime false buffer) (announcedSize buffer % 2 ^ 32) →
      (chunkResult cfg now e buffer).ret = 1 ∧
      (chunkResult cfg now e buffer).store.toBlockContent = receivedBlock buffer) ∧
    (¬ChecksumMatches (clearedTime false buffer) (announcedSize buffer % 2 ^ 32) →
      (chunkResult cfg now e buffer).ret = -5) := by
  have hlen := length_clearedTime false buffer
  have hne : buffer.drop ((none : Option Nat).getD 0) ≠ [] := by
    rintro h0
    rw [Option.getD_none, List.drop_zero] at h0
    have := h.complete
    rw [h0] at this
    exact absurd this (by decide)
  have henough := @tryRestore_enough { newBlockStore e with restoreBuffer := buffer } none
    (clearedTime false buffer) (buffer.drop 0).length buffer.length (by rw [hlen]; exact h.complete)
    (by rw [hlen, List.drop_zero, Nat.sub_self]; exact Nat.zero_le _)
    (by rw [announcedSize_clearedTime]; exact h.nonneg)
    (by rw [announcedSize_clearedTime, hlen]; exact h.reached)
  rw [announcedSize_clearedTime] at henough
  unfold chunkResult
  rw [addRestoreChunk_accepted hne h.accepted, collected_new, Option.getD_none]
  refine ⟨fun hsum => ⟨(henough.1 hsum).1, ?_⟩, henough.2⟩
  rw [(henough.1 hsum).2]
  rfl

lemma buffer_cases (cfg : Config) (now : Nat) (e : NewBlockEnv) (buffer : Bytes) :
    ((chunkResult cfg now e buffer).ret < 0 ∧ (chunkResult cfg now e buffer).ret ≠ -5) ∧
        ¬OnlyBeginning cfg now buffer ∧
        ¬(sizeofHeader ≤ buffer.length ∧ HeaderAccepted cfg now false buffer) ∨
      OnlyBeginning cfg now buffer ∨ LengthReached cfg now buffer := by
  by_cases hne : buffer = []
  · subst hne
    exact Or.inl ⟨(by decide : (-1 : Int) < 0 ∧ (-1 : Int) ≠ -5), fun h => h.buffer_ne rfl,
      fun h => absurd h.1 (by decide)⟩
  by_cases haccept : HeaderAccepted cfg now false buffer
  · right
    by_cases hmore : sizeofHeader ≤ buffer.length →
        ¬(announcedSize buffer % 2 ^ 32 < 2 ^ 31 ∧ announcedSize buffer % 2 ^ 32 ≤ buffer.length)
    · exact Or.inl ⟨hne, haccept, hmore⟩
    · rw [Classical.not_imp, not_not] at hmore
      exact Or.inr ⟨hmore.1, haccept, hmore.2.1, hmore.2.2⟩
  · exact Or.inl ⟨addRestoreChunk_refused hne haccept, fun h => haccept h.accepted,
      fun h => haccept h.2⟩

lemma readsInside_of_ne {ret : Int} (h : ret ≠ 1) (h' : ret ≠ -5) : readsInside buffer ret = true := by
  simp [readsInside, h, h']

lemma LengthReached.checksumInside (h : LengthReached cfg now buffer) :
    (sizeofHeader : Int) ≤ getSizeSaveBufferFromRestoreBuffer buffer ↔
      sizeofHeader ≤ announcedSize buffer % 2 ^ 32 := by
  rw [sizeFromRestoreBuffer_announced h.complete, toInt32_of_lt h.nonneg]
  exact Int.ofNat_le

lemma LengthReached.readsInside_iff (h : LengthReached cfg now buffer) :
    (readsInside buffer (-5) = true ↔
      (headerOf buffer).checksum = 0 ∨ sizeofHeader ≤ announcedSize buffer % 2 ^ 32) ∧
    (readsInside buffer 1 = true ↔
      ((headerOf buffer).checksum = 0 ∨ sizeofHeader ≤ announcedSize buffer % 2 ^ 32) ∧
        announcedSize buffer ≤ buffer.length) := by
  simp [readsInside, h.checksumInside]

lemma receivedBlock_offsets (buffer : Bytes) :
    (receivedBlock buffer).offsets ≠ [] ↔ (headerOf buffer).count ≠ 0 := by
  obtain ⟨hcount, -⟩ := headerOf_clearedTime false buffer
  unfold receivedBlock restoreFromSaveBuffer
  simp [hcount]

/-! ## The result -/

lemma LengthReached.not_beginning (h : LengthReached cfg now buffer) :
    ¬OnlyBeginning cfg now buffer :=
  fun hb => hb.short h.complete ⟨h.nonneg, h.reached⟩

lemma not_checksOk_new (e : NewBlockEnv) : ¬ChecksOk e.behind (newBlockStore e).toBlockContent := by
  rintro ⟨h, -⟩
  rw [checkOffsetsReads_nil rfl] at h
  cases h

lemma addsOnlyBlocks_beginning (h : OnlyBeginning cfg now buffer) :
    AddsOnlyBlocks cfg now e q buffer ↔ CompleteBlock cfg now e.behind buffer ∧
      q.blockCounter = (receivedBlock buffer).blockCounter ∧ q.blockCounter = e.blockCounter := by
  obtain ⟨hret, hstore⟩ := @chunkResult_more cfg now e buffer h
  have hread : readsInside buffer (chunkResult cfg now e buffer).ret = true :=
    readsInside_of_ne (by omega) (by omega)
  obtain ⟨r, hr, hok, hqueue⟩ :=
    @add_no_error cfg now e q buffer hread (addBlockError_more now e.behind hret)
  rw [hstore] at hqueue
  constructor
  · rintro ⟨r', hr', hadds, -⟩
    obtain rfl := Option.some.inj (hr.symm.trans hr')
    obtain ⟨hcomplete, hadded⟩ := hadds hok
    refine ⟨hcomplete, ?_⟩
    rw [hqueue] at hadded
    have hnew : (newBlockStore e).toBlockContent.blockCounter = e.blockCounter := rfl
    unfold addBlock at hadded
    rw [hnew] at hadded
    split_ifs at hadded with h1 h2 h2
    · exact ⟨h2, h1⟩
    · have hlen := congrArg (fun q => q.pcapStoreQueue.length) hadded
      simp at hlen
    · have hlen := congrArg (fun q => q.pcapStoreQueue.length) hadded
      simp at hlen
    · have hlast := List.append_cancel_left (congrArg ServerQueue.pcapStoreQueue hadded)
      have hsame : (newBlockStore e).toBlockContent = receivedBlock buffer :=
        List.singleton_inj.mp hlast
      exact absurd (hsame ▸ hcomplete.checks) (not_checksOk_new e)
  · rintro ⟨hcomplete, hreceived, hnew⟩
    refine ⟨r, hr, fun _ => ⟨hcomplete, ?_⟩, fun hno => absurd hcomplete hno⟩
    have hcounter : (newBlockStore e).toBlockContent.blockCounter = e.blockCounter := rfl
    rw [hqueue, addBlock, addBlock, if_pos hreceived, hcounter, if_pos hnew]

lemma not_adds_of_not_inside (h : LengthReached cfg now buffer) (hout : ¬ReadsInside buffer) :
    ¬AddsOnlyBlocks cfg now e q buffer := by
  have hcases := @chunkResult_reached cfg now e buffer h
  apply not_adds_of_none
  by_cases hsum : ChecksumMatches (clearedTime false buffer) (announcedSize buffer % 2 ^ 32)
  · obtain ⟨hret, hstore⟩ := hcases.1 hsum
    rw [hret]
    by_cases hread : readsInside buffer 1 = true
    · obtain ⟨hchecksum, hannounced⟩ := h.readsInside_iff.2.mp hread
      have hnil : (receivedBlock buffer).offsets = [] := by
        by_contra hne
        have hcount := (receivedBlock_offsets buffer).mp hne
        exact hout ⟨hchecksum, fun _ => hannounced, fun _ => hcount⟩
      right
      unfold addBlockError
      rw [if_pos (by omega), hstore, checkOffsetsReads_nil hnil]
    · exact Or.inl (Bool.eq_false_iff.mpr hread)
  · left
    rw [hcases.2 hsum, Bool.eq_false_iff]
    intro hread
    exact hout ⟨h.readsInside_iff.1.mp hread, fun h' => absurd h' hsum, fun h' => absurd h' hsum⟩

lemma addsOnlyBlocks_reached (h : LengthReached cfg now buffer) (hin : ReadsInside buffer) :
    AddsOnlyBlocks cfg now e q buffer ↔ ¬LengthMisleads cfg now e.behind buffer := by
  have hcases := @chunkResult_reached cfg now e buffer h
  by_cases hsum : ChecksumMatches (clearedTime false buffer) (announcedSize buffer % 2 ^ 32)
  · obtain ⟨hret, hstore⟩ := hcases.1 hsum
    have hread : readsInside buffer (chunkResult cfg now e buffer).ret = true := by
      rw [hret]
      exact h.readsInside_iff.2.mpr ⟨hin.checksum, hin.announced hsum⟩
    have hne : (chunkResult cfg now e buffer).store.offsets ≠ [] := by
      rw [hstore]
      exact (receivedBlock_offsets buffer).mpr (hin.packets hsum)
    obtain ⟨error, herror, hempty⟩ := addBlockError_restored now e.behind hret hne
    rw [hstore] at hempty
    by_cases hchecks : ChecksOk e.behind (receivedBlock buffer)
    · rw [hempty.mpr hchecks] at herror
      obtain ⟨r, hr, hok, hqueue⟩ := @add_no_error cfg now e q buffer hread herror
      rw [hstore] at hqueue
      constructor
      · rintro ⟨r', hr', hadds, -⟩ hwrong
        obtain rfl := Option.some.inj (hr.symm.trans hr')
        exact hwrong.wrong (hadds hok).1.checksum
      · intro hright
        have hmatches : ChecksumMatches (clearedTime false buffer) (announcedSize buffer) := by
          by_contra hwrong
          by_cases hwide : 2 ^ 32 ≤ announcedSize buffer
          · exact hright ⟨h, hwide, hsum, hchecks, hwrong⟩
          · rw [Nat.mod_eq_of_lt (Nat.lt_of_not_le hwide)] at hsum
            exact hwrong hsum
        have hcomplete : CompleteBlock cfg now e.behind buffer :=
          ⟨h.complete, h.accepted, hin.announced hsum, hmatches, hchecks⟩
        exact ⟨r, hr, fun _ => ⟨hcomplete, hqueue⟩, fun hno => absurd hcomplete hno⟩
    · refine iff_of_true (add_error hread herror fun h0 => hchecks (hempty.mp h0)) ?_
      exact fun hwrong => hchecks hwrong.checks
  · have hret := hcases.2 hsum
    have hread : readsInside buffer (chunkResult cfg now e buffer).ret = true := by
      rw [hret]
      exact h.readsInside_iff.1.mpr hin.checksum
    obtain ⟨error, herror, hne⟩ := addBlockError_negative now e.behind
      (show (chunkResult cfg now e buffer).ret < 0 by rw [hret]; decide)
    exact iff_of_true (add_error hread herror hne) fun hwrong => hsum hwrong.checksum

/-- For every buffer, every state of the queue and whatever a new block store finds: a buffer is
added only as the block that it holds, and refused otherwise, exactly when it is not taken for more
than it is and what is read lies in it. -/
theorem adds_only_blocks_iff (cfg : Config) (now : Nat) (e : NewBlockEnv) (q : ServerQueue)
    (buffer : Bytes) : AddsOnlyBlocks cfg now e q buffer ↔ WholeMessage cfg now e q buffer := by
  rcases buffer_cases cfg now e buffer with ⟨hret, hbegin, haccept⟩ | hbegin | hreached
  · obtain ⟨error, herror, hne⟩ := addBlockError_negative now e.behind hret.1
    have hread : readsInside buffer (chunkResult cfg now e buffer).ret = true :=
      readsInside_of_ne (by omega) hret.2
    refine iff_of_true (add_error hread herror hne) ⟨fun h => absurd h hbegin, fun h => ?_, fun h => ?_⟩
    · exact absurd ⟨h.complete, h.accepted⟩ haccept
    · exact haccept ⟨h.reached.complete, h.reached.accepted⟩
  · rw [addsOnlyBlocks_beginning hbegin]
    exact ⟨fun h => ⟨fun _ => h, fun hreached => absurd hbegin hreached.not_beginning,
      fun hwrong => hwrong.reached.not_beginning hbegin⟩, fun h => h.beginning hbegin⟩
  · by_cases hin : ReadsInside buffer
    · rw [addsOnlyBlocks_reached hreached hin]
      exact ⟨fun h => ⟨fun hbegin => absurd hbegin hreached.not_beginning, fun _ => hin, h⟩,
        fun h => h.wraps⟩
    · exact iff_of_false (not_adds_of_not_inside hreached hin) fun h => hin (h.inside hreached)

/-- A header of a block without packets. -/
def emptyHeader (size checksum : Nat) : Bytes :=
  PcapBlockStoreHeader.bytes { size := size, checksum := checksum, count := 0 }

/-- A message of one byte is answered with true. With the last counter 5 an empty block is pushed
and the counter is lost. A header alone whose size leads to a length of 32 makes the checksum run
over 2^64 - 32 bytes, and behind one without packets an offset is read that is not there. -/
theorem one_byte_added :
    ¬AddsOnlyBlocks {} 0 {} { blockCounter := 5 } [0] ∧
      addBlockStoreToPcapStoreQueue {} 0 {} { blockCounter := 5 } [0] =
        some { ok := true, warning := "loss packetbuffer block",
               queue := { blockCounter := 0, pcapStoreQueue := [{}] } } ∧
      addBlockStoreToPcapStoreQueue {} 0 {} {} (emptyHeader (2 ^ 32 - 32) 5) = none ∧
      addBlockStoreToPcapStoreQueue {} 0 {} {} (emptyHeader 1 0 ++ [0]) = none := by
  refine ⟨?_, by decide +kernel, by decide +kernel, by decide +kernel⟩
  rintro ⟨r, hr, hadds, -⟩
  have hok : (addBlockStoreToPcapStoreQueue {} 0 {} { blockCounter := 5 } [0]).map
      AddBlockResult.ok = some true := by decide +kernel
  rw [hr] at hok
  exact absurd (hadds (Option.some.inj hok)).1.complete (by decide)

end VoipMonitor.BlockStore
