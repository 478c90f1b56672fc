import VoipMonitor.Model.MirrorReceiver
import VoipMonitor.Proofs.BlockRestore

/-!
# A stream of save buffers in chunks

The save buffers of a list of blocks, one after another, are a stream. The restore loop is given
the part of the stream between two positions; it restores the blocks that end there and keeps
what has arrived of the next one.
-/

namespace VoipMonitor.BlockStore
open VoipMonitor.Library

section Stream
variable (cfg : Config) (ms : List SentBlock)

def wires : List Bytes := ms.map (SentBlock.wire cfg)

def stream : Bytes := (wires cfg ms).flatten

/-- The position in the stream at which the `i`-th block begins. -/
def blockStart (i : Nat) : Nat := cut (wires cfg ms) i

lemma length_wires : (wires cfg ms).length = ms.length := List.length_map _

lemma blockStart_succ {i : Nat} (hi : i < ms.length) :
    blockStart cfg ms (i + 1) = blockStart cfg ms i + (ms[i].wire cfg).length := by
  unfold blockStart
  rw [cut_succ (by rwa [length_wires])]
  simp [wires]

lemma blockStart_length : blockStart cfg ms ms.length = (stream cfg ms).length := by
  rw [blockStart, ← length_wires cfg ms, cut_length]
  rfl

lemma part_block {i : Nat} (hi : i < ms.length) :
    part (stream cfg ms) (blockStart cfg ms i) (blockStart cfg ms (i + 1)) = ms[i].wire cfg := by
  have h := part_cut (l := wires cfg ms) (i := i) (by rwa [length_wires])
  rw [stream, blockStart, blockStart, h]
  simp [wires]

lemma blockStart_le (i : Nat) : blockStart cfg ms i ≤ (stream cfg ms).length :=
  cut_le_length _ _

/-- After the bytes up to `pos`: `i` blocks are restored and the restore buffer holds what has
arrived of the next one. -/
structure Holding (i pos : Nat) (store : PcapBlockStore) : Prop where
  le_pos : blockStart cfg ms i ≤ pos
  pos_lt : i < ms.length → pos < blockStart cfg ms (i + 1)
  le_length : i ≤ ms.length
  pos_le : pos ≤ (stream cfg ms).length
  restoreBuffer : store.restoreBuffer =
    seenBuffer false (part (stream cfg ms) (blockStart cfg ms i) pos)

lemma holding_start {i : Nat} (hi : i ≤ ms.length) {store : PcapBlockStore}
    (h : store.restoreBuffer = []) : Holding cfg ms i (blockStart cfg ms i) store where
  le_pos := le_rfl
  pos_lt hlt := by
    have := ms[i].wire_length_ge cfg
    rw [blockStart_succ cfg ms hlt]
    omega
  le_length := hi
  pos_le := blockStart_le cfg ms i
  restoreBuffer := by
    rw [h, part_self]
    rfl

/-- A chunk, the bytes from `a` to `b`, consumed with the given clock: the blocks that end in it
fit in the restore buffer together with the rest of the chunk, and the time of a block whose
header ends in it is accepted. -/
structure ChunkOk (clock : Nat → Nat) (a b : Nat) : Prop where
  le : a ≤ b
  le_length : b ≤ (stream cfg ms).length
  fits : ∀ i < ms.length, a < blockStart cfg ms (i + 1) → blockStart cfg ms (i + 1) ≤ b →
    b - blockStart cfg ms i ≤ cfg.blockMaxSize * 10
  accepted : ∀ i (hi : i < ms.length), a < blockStart cfg ms i + sizeofHeader →
    blockStart cfg ms i + sizeofHeader ≤ b → ms[i].Accepted cfg (clock (blockStart cfg ms i - a))

end Stream

def Accepts {σ : Type} (cfg : Config) (ms : List SentBlock)
    (accept : Nat → σ → PcapBlockStore → σ × Except String PcapBlockStore)
    (Ext : Nat → σ → Prop) : Prop :=
  ∀ i (hi : i < ms.length) o s b, Ext i s → b.toBlockContent = ms[i].restored →
    b.requireConfirmation = cfg.mirrorRequireConfirmation → b.restoreBuffer = [] →
    ∃ s' b', accept o s b = (s', .ok b') ∧ b'.restoreBuffer = [] ∧ Ext (i + 1) s'

section Loop
variable {σ : Type} {cfg : Config} {ms : List SentBlock} {clock : Nat → Nat}
  {accept : Nat → σ → PcapBlockStore → σ × Except String PcapBlockStore} {Ext : Nat → σ → Prop}
  {a b : Nat}

lemma restoreLoop_done {buffer : Bytes} (fuel : Nat) {st : LoopState σ}
    (h : buffer.length ≤ st.offset) :
    restoreLoop cfg clock accept buffer fuel st = (st, .done) := by
  cases fuel with
  | zero => rw [restoreLoop, if_neg (by omega)]
  | succ fuel => rw [restoreLoop, if_neg (by omega)]

lemma addRestoreChunk_stream_absorb (hwire : ∀ m ∈ ms, (m.wire cfg).length ≤ cfg.blockMaxSize * 10)
    (hc : ChunkOk cfg ms clock a b) {i pos : Nat} {store : PcapBlockStore}
    (hh : Holding cfg ms i pos store) (hpos : pos = max a (blockStart cfg ms i)) (hlt : pos < b)
    (hi : i < ms.length) (hend : b < blockStart cfg ms (i + 1)) :
    addRestoreChunk cfg (clock (pos - a)) false store (part (stream cfg ms) a b)
        (some (pos - a)) =
      ⟨0, { store with
        restoreBuffer := seenBuffer false (part (stream cfg ms) (blockStart cfg ms i) b) },
        some (pos - a)⟩ := by
  have hb := hc.le_length
  have hstart := hh.le_pos
  have hjoin : part (stream cfg ms) (blockStart cfg ms i) pos ++ part (stream cfg ms) pos b =
      part (stream cfg ms) (blockStart cfg ms i) b := part_append hstart hlt.le
  have hlen : (part (stream cfg ms) (blockStart cfg ms i) b).length =
      b - blockStart cfg ms i := length_part (by omega) hb
  have hplen : (part (stream cfg ms) (blockStart cfg ms i) pos).length =
      pos - blockStart cfg ms i := length_part hstart (by omega)
  have hwl := blockStart_succ cfg ms hi
  have hblock := part_block cfg ms hi
  have hmax := hwire _ (List.getElem_mem hi)
  rw [← hjoin]
  refine addRestoreChunk_absorb (m := ms[i]) hh.restoreBuffer ?_ ?_ ?_ ?_ ?_ ?_
  · rw [Option.getD_some, drop_part, show a + (pos - a) = pos by omega]
  · rw [← List.length_pos_iff, length_part hlt.le hb]
    omega
  · rw [hjoin, ← hblock, ← part_append (b := b) (by omega) hend.le]
    exact List.prefix_append _ _
  · rw [hjoin, hlen]
    omega
  · rw [hjoin, hlen]
    omega
  · intro _ hp hle
    rw [hjoin, hlen] at hle
    rw [hplen] at hp
    have := hc.accepted i hi (by omega) (by omega)
    rwa [show pos - a = blockStart cfg ms i - a by omega]

lemma addRestoreChunk_stream_restore (hc : ChunkOk cfg ms clock a b) {i pos : Nat}
    {store : PcapBlockStore} (hh : Holding cfg ms i pos store)
    (hpos : pos = max a (blockStart cfg ms i)) (hi : i < ms.length)
    (hend : blockStart cfg ms (i + 1) ≤ b) :
    ∃ store', addRestoreChunk cfg (clock (pos - a)) false store (part (stream cfg ms) a b)
        (some (pos - a)) = ⟨1, store', some (blockStart cfg ms (i + 1) - a)⟩ ∧
      store'.toBlockContent = ms[i].restored ∧
      store'.requireConfirmation = cfg.mirrorRequireConfirmation ∧ store'.restoreBuffer = [] := by
  have hb := hc.le_length
  have hstart := hh.le_pos
  have hlt := hh.pos_lt hi
  have hjoin : part (stream cfg ms) (blockStart cfg ms i) pos ++ part (stream cfg ms) pos b =
      part (stream cfg ms) (blockStart cfg ms i) b := part_append hstart (by omega)
  have hlen : (part (stream cfg ms) (blockStart cfg ms i) b).length =
      b - blockStart cfg ms i := length_part (by omega) hb
  have hplen : (part (stream cfg ms) (blockStart cfg ms i) pos).length =
      pos - blockStart cfg ms i := length_part hstart (by omega)
  have htlen : (part (stream cfg ms) (blockStart cfg ms (i + 1)) b).length =
      b - blockStart cfg ms (i + 1) := length_part hend hb
  have hwl := blockStart_succ cfg ms hi
  have hsplit : part (stream cfg ms) (blockStart cfg ms i) b =
      ms[i].wire cfg ++ part (stream cfg ms) (blockStart cfg ms (i + 1)) b := by
    rw [← part_block cfg ms hi]
    exact (part_append (by omega) hend).symm
  have hpart : (part (stream cfg ms) a b).drop ((some (pos - a)).getD 0) =
      part (stream cfg ms) pos b := by
    rw [Option.getD_some, drop_part, show a + (pos - a) = pos by omega]
  have hacc : false = false →
      (part (stream cfg ms) (blockStart cfg ms i) pos).length < sizeofHeader →
      sizeofHeader ≤ (part (stream cfg ms) (blockStart cfg ms i) pos ++
        part (stream cfg ms) pos b).length →
      ms[i].Accepted cfg (clock (pos - a)) := by
    intro _ hp hle
    rw [hjoin, hlen] at hle
    rw [hplen] at hp
    have := hc.accepted i hi (by omega) (by omega)
    rwa [show pos - a = blockStart cfg ms i - a by omega]
  obtain ⟨store', hcall, hrest⟩ := addRestoreChunk_restore hh.restoreBuffer hpart
    (by rw [← List.length_pos_iff, length_part (by omega) hb]; omega) (hjoin.trans hsplit)
    (by rw [hplen]; omega) (by rw [hjoin, hlen]; exact hc.fits i hi (by omega) hend) hacc
  refine ⟨store', ?_, hrest⟩
  rw [hcall, Option.map_some, length_part hc.le hb, htlen]
  congr 2
  omega

def Returned (k : Nat) (rs : List Int) : Prop := (∀ r ∈ rs, r = 0 ∨ r = 1) ∧ rs.count 1 = k

lemma Returned.append {k l : Nat} {rs ts : List Int} (h : Returned k rs) (h' : Returned l ts) :
    Returned (k + l) (rs ++ ts) := by
  refine ⟨?_, ?_⟩
  · intro r hr
    rcases List.mem_append.mp hr with hr | hr
    · exact h.1 r hr
    · exact h'.1 r hr
  · rw [List.count_append, h.2, h'.2]

lemma returned_zero : Returned 0 [0] := ⟨by simp, by decide⟩

lemma returned_one : Returned 1 [1] := ⟨by simp, by decide⟩

lemma returned_nil : Returned 0 [] := ⟨by simp, rfl⟩

lemma restoreLoop_stream (hwire : ∀ m ∈ ms, (m.wire cfg).length ≤ cfg.blockMaxSize * 10)
    (hacc : Accepts cfg ms accept Ext) (hc : ChunkOk cfg ms clock a b) (fuel i pos : Nat)
    (st : LoopState σ) (hh : Holding cfg ms i pos st.store)
    (hpos : pos = max a (blockStart cfg ms i)) (hle : pos ≤ b) (hfuel : b - pos ≤ fuel)
    (hoff : st.offset = pos - a) (hext : Ext i st.ext) :
    ∃ k st', restoreLoop cfg clock accept (part (stream cfg ms) a b) fuel st = (st', .done) ∧
      Holding cfg ms (i + k) b st'.store ∧ Ext (i + k) st'.ext ∧
      ∃ rs, st'.rets = st.rets ++ rs ∧ Returned k rs := by
  have hlen : (part (stream cfg ms) a b).length = b - a := length_part hc.le hc.le_length
  induction fuel generalizing i pos st with
  | zero =>
    obtain rfl : pos = b := by omega
    refine ⟨0, st, restoreLoop_done 0 (by omega), hh, hext, [], by simp, returned_nil⟩
  | succ fuel ih =>
    by_cases hend : pos = b
    · subst hend
      refine ⟨0, st, restoreLoop_done _ (by omega), hh, hext, [], by simp, returned_nil⟩
    have hlt : pos < b := by omega
    have hi : i < ms.length := by
      by_contra hge
      have heq : i = ms.length := le_antisymm hh.le_length (by omega)
      have hstart := hh.le_pos
      have hstream := hc.le_length
      rw [heq, blockStart_length] at hstart
      omega
    have hsucc := hh.pos_lt hi
    by_cases hin : blockStart cfg ms (i + 1) ≤ b
    · obtain ⟨store', hcall, hcontent, hconfirm, hempty⟩ :=
        addRestoreChunk_stream_restore hc hh hpos hi hin
      obtain ⟨s', b', haccept, hempty', hext'⟩ :=
        hacc i hi (blockStart cfg ms (i + 1) - a) st.ext store' hext hcontent hconfirm hempty
      obtain ⟨k, st', hrun, hh', hext'', rs, hrets, hreturned⟩ :=
        ih (i + 1) (blockStart cfg ms (i + 1))
          { store := b', offset := blockStart cfg ms (i + 1) - a, ext := s', countErrors := 0,
            rets := st.rets ++ [1] }
          (holding_start cfg ms hi hempty') (by omega) hin (by omega) rfl hext'
      refine ⟨1 + k, st', ?_, ?_, ?_, [1] ++ rs, ?_, returned_one.append hreturned⟩
      · rw [restoreLoop, if_pos (by omega)]
        dsimp only
        rw [hoff, hcall]
        dsimp only
        rw [if_pos (by decide), Option.getD_some, haccept]
        exact hrun
      · rwa [← Nat.add_assoc]
      · rwa [← Nat.add_assoc]
      · rw [hrets, List.append_assoc]
    · have hcall := addRestoreChunk_stream_absorb hwire hc hh hpos hlt hi (by omega)
      refine ⟨0, { store :=
                      { st.store with
                        restoreBuffer :=
                          seenBuffer false (part (stream cfg ms) (blockStart cfg ms i) b) }
                   offset := (part (stream cfg ms) a b).length
                   ext := st.ext
                   countErrors := 0
                   rets := st.rets ++ [0] }, ?_, ?_, hext, [0], rfl, returned_zero⟩
      · rw [restoreLoop, if_pos (by omega)]
        dsimp only
        rw [hoff, hcall]
        dsimp only
        rw [if_neg (by decide), if_neg (by decide)]
        exact restoreLoop_done fuel le_rfl
      · exact ⟨hh.le_pos.trans hle, fun _ => Nat.lt_of_not_le hin, hh.le_length, hc.le_length,
          rfl⟩

end Loop

section Chunks
variable {σ : Type} {cfg : Config} {ms : List SentBlock} {clock : Nat → Nat → Nat}
  {accept : Nat → σ → PcapBlockStore → σ × Except String PcapBlockStore} {Ext : Nat → σ → Prop}
  {chunks : List Bytes}

lemma part_chunk (hchunks : chunks.flatten = stream cfg ms) {j : Nat} (hj : j < chunks.length) :
    part (stream cfg ms) (cut chunks j) (cut chunks (j + 1)) = chunks[j] := by
  rw [← hchunks, part_cut hj]

lemma consumeChunks_stream (hwire : ∀ m ∈ ms, (m.wire cfg).length ≤ cfg.blockMaxSize * 10)
    (hacc : Accepts cfg ms accept Ext) (hchunks : chunks.flatten = stream cfg ms)
    (hc : ∀ j < chunks.length, ChunkOk cfg ms (clock j) (cut chunks j) (cut chunks (j + 1)))
    (rest : List Bytes) (j i : Nat) (hrest : chunks.drop j = rest) (hj : j ≤ chunks.length)
    (st : LoopState σ) (hh : Holding cfg ms i (cut chunks j) st.store) (hext : Ext i st.ext) :
    ∃ k st', consumeChunks cfg clock accept j st rest = (st', .done) ∧
      Holding cfg ms (i + k) (stream cfg ms).length st'.store ∧ Ext (i + k) st'.ext ∧
      ∃ rs, st'.rets = st.rets ++ rs ∧ Returned k rs := by
  induction rest generalizing j i st with
  | nil =>
    have heq : j = chunks.length := by
      have := List.drop_eq_nil_iff.mp hrest
      omega
    rw [heq, cut_length, hchunks] at hh
    exact ⟨0, st, rfl, hh, hext, [], by simp, returned_nil⟩
  | cons chunk rest ih =>
    have hlt : j < chunks.length := by
      by_contra hge
      rw [List.drop_eq_nil_iff.mpr (by omega)] at hrest
      exact List.cons_ne_nil _ _ hrest.symm
    rw [List.drop_eq_getElem_cons hlt] at hrest
    obtain ⟨hchunk, hrest⟩ := List.cons.inj hrest
    have hpart := part_chunk hchunks hlt
    have hok := hc j hlt
    obtain ⟨k, st₁, hloop, hh₁, hext₁, rs, hrets, hreturned⟩ :=
      restoreLoop_stream hwire hacc hok chunk.length i (cut chunks j) { st with offset := 0 } hh
        (by have := hh.le_pos; omega) hok.le
        (by rw [← hchunk, ← hpart, length_part hok.le hok.le_length]) (by simp) hext
    obtain ⟨l, st₂, hrun, hh₂, hext₂, ts, hrets', hreturned'⟩ :=
      ih (j + 1) (i + k) hrest hlt st₁ hh₁ hext₁
    refine ⟨k + l, st₂, ?_, ?_, ?_, rs ++ ts, ?_, hreturned.append hreturned'⟩
    · rw [hpart, hchunk] at hloop
      rw [consumeChunks, hloop]
      exact hrun
    · rwa [← Nat.add_assoc]
    · rwa [← Nat.add_assoc]
    · rw [hrets', hrets, List.append_assoc]

lemma Holding.all_restored {i : Nat} {store : PcapBlockStore}
    (h : Holding cfg ms i (stream cfg ms).length store) : i = ms.length := by
  by_contra hne
  have hi : i < ms.length := lt_of_le_of_ne h.le_length hne
  have := h.pos_lt hi
  have := blockStart_le cfg ms (i + 1)
  omega

end Chunks

lemma accepts_collect (cfg : Config) (ms : List SentBlock) :
    Accepts cfg ms collect (fun i l => l = (ms.take i).map SentBlock.restored) := by
  intro i hi o l b hl hb _ _
  refine ⟨l ++ [b.toBlockContent], {}, rfl, rfl, ?_⟩
  dsimp only
  rw [hl, hb, List.take_succ_eq_append_getElem hi, List.map_append]
  rfl

/-- **Round trip.** However the save buffers of a list of blocks are cut into chunks, the
receiver restores exactly these blocks, in order, and no call returns an error, as long as a
chunk that ends a block does not fill the restore buffer beyond its limit. -/
theorem consumeChunks_blocks (cfg : Config) (ms : List SentBlock) (chunks : List Bytes)
    (clock : Nat → Nat → Nat) (hchunks : chunks.flatten = stream cfg ms)
    (hwire : ∀ m ∈ ms, (m.wire cfg).length ≤ cfg.blockMaxSize * 10)
    (hfits : ∀ i < ms.length, ∀ j < chunks.length, cut chunks j < blockStart cfg ms (i + 1) →
      blockStart cfg ms (i + 1) ≤ cut chunks (j + 1) →
      cut chunks (j + 1) - blockStart cfg ms i ≤ cfg.blockMaxSize * 10)
    (haccepted : ∀ i (hi : i < ms.length), ∀ j < chunks.length,
      cut chunks j < blockStart cfg ms i + sizeofHeader →
      blockStart cfg ms i + sizeofHeader ≤ cut chunks (j + 1) →
      ms[i].Accepted cfg (clock j (blockStart cfg ms i - cut chunks j))) :
    ∃ st, consumeChunks cfg clock collect 0 { ext := [] } chunks = (st, .done) ∧
      (∀ r ∈ st.rets, r = 0 ∨ r = 1) ∧ st.rets.count 1 = ms.length ∧
      st.ext = ms.map SentBlock.restored := by
  have hc : ∀ j < chunks.length,
      ChunkOk cfg ms (clock j) (cut chunks j) (cut chunks (j + 1)) := by
    intro j hj
    refine ⟨cut_le_succ chunks j, ?_, fun i hi => hfits i hi j hj,
      fun i hi => haccepted i hi j hj⟩
    rw [← hchunks]
    exact cut_le_length chunks _
  obtain ⟨k, st, hrun, hh, hext, rs, hrets, hreturned⟩ :=
    consumeChunks_stream hwire (accepts_collect cfg ms) hchunks hc chunks 0 0 rfl
      (Nat.zero_le _) { ext := [] } (holding_start cfg ms (Nat.zero_le _) rfl) (by simp)
  have hk : 0 + k = ms.length := hh.all_restored
  rw [Nat.zero_add] at hk
  rw [List.nil_append] at hrets
  refine ⟨st, hrun, ?_, ?_, ?_⟩
  · rw [hrets]
    exact hreturned.1
  · rw [hrets, hreturned.2, hk]
  · rw [hext, Nat.zero_add, hk, List.take_length]

/-- A block of one packet of three bytes, sent as number `c`. -/
def smallBlock (c : Nat) (hc : c < 2 ^ 32) : SentBlock where
  env := { timeS := 1000 }
  content :=
    { size := 3
      count := 1
      dlink := 1
      sensorId := -1
      ifname := [101, 116, 104]
      offsets := [0]
      block := [1, 2, 3] }
  counter := c
  env_valid := ⟨by decide, rfl, rfl, rfl⟩
  storable := ⟨⟨by decide, by decide, by decide, by decide, nofun, by decide, rfl, by decide,
    rfl⟩, by decide, by decide⟩
  counter_lt := hc

theorem consumeChunks_blocks_example :
    let cfg : Config := { blockMaxSize := 1024, mirrorUseChecksum := true }
    let ms := [smallBlock 1 (by decide), smallBlock 2 (by decide)]
    let s := stream cfg ms
    ∃ st, consumeChunks cfg (fun _ _ => 990) collect 0 { ext := [] }
        [part s 0 10, part s 10 100, part s 100 142] = (st, .done) ∧
      (∀ r ∈ st.rets, r = 0 ∨ r = 1) ∧ st.rets.count 1 = 2 ∧
      st.ext = ms.map SentBlock.restored := by
  intro cfg ms s
  exact consumeChunks_blocks cfg ms [part s 0 10, part s 10 100, part s 100 142]
    (fun _ _ => 990) (by decide +kernel) (by decide +kernel) (by decide +kernel)
    (by
      intro i hi j _ _ _
      match i, hi with
      | 0, _ => exact (by decide : timeDiff 1000 990 ≤ 30)
      | 1, _ => exact (by decide : timeDiff 1000 990 ≤ 30))

section TooBig

lemma restoreLoop_too_big {σ : Type} {cfg : Config} {clock : Nat → Nat}
    {accept : Nat → σ → PcapBlockStore → σ × Except String PcapBlockStore} {buffer : Bytes}
    {fuel : Nat} {st : LoopState σ} (hoff : st.offset = 0)
    (hlen : cfg.blockMaxSize * 10 < buffer.length) :
    (restoreLoop cfg clock accept buffer (fuel + 1) st).2 = .failed "too big" := by
  have hcall : addRestoreChunk cfg (clock 0) false st.store buffer (some 0) =
      ⟨-2, { st.store with restoreBuffer := st.store.restoreBuffer ++ buffer }, some 0⟩ := by
    unfold addRestoreChunk
    rw [Option.getD_some, List.drop_zero]
    rw [if_neg (by omega), if_pos (by rw [List.length_append]; omega)]
  rw [restoreLoop, if_pos (by omega)]
  dsimp only
  rw [hoff, hcall]
  dsimp only
  rw [if_neg (by decide), if_pos (by decide)]
  rfl

def mediumBlock : SentBlock where
  env := { timeS := 1000 }
  content :=
    { size := 6000
      count := 1
      dlink := 1
      offsets := [0]
      block := List.replicate 6000 0 }
  counter := 1
  env_valid := ⟨by decide, rfl, rfl, rfl⟩
  storable := ⟨⟨by decide, by decide, by decide, by decide, nofun, by decide, rfl, by decide,
    List.length_replicate⟩, by decide, by decide⟩
  counter_lt := by decide

/-- Two blocks, each within the limit, come in one chunk that is not; and the size of a
compressed block is cut to the 32 bits of its header field. -/
theorem consumeChunks_limits :
    (∃ (cfg : Config) (ms : List SentBlock) (clock : Nat → Nat → Nat),
      (∀ m ∈ ms, (m.wire cfg).length ≤ cfg.blockMaxSize * 10 ∧ ∀ j o, m.Accepted cfg (clock j o)) ∧
      (consumeChunks cfg clock collect 0 { ext := [] } [stream cfg ms]).2 =
        .failed "too big") ∧
    (∃ (b : BlockContent) (st : PcapBlockStore), b.Valid ∧ getSizeSaveBuffer b = 72 ∧
      addRestoreChunk {} 0 false {} (getSaveBuffer {} {} b 1) (some 0) = ⟨1, st, some 72⟩ ∧
      st.size ≠ b.size) := by
  refine ⟨⟨{ blockMaxSize := 1024 }, [mediumBlock, mediumBlock], fun _ _ => 1000, ?_, ?_⟩, ?_⟩
  · intro m hm
    obtain rfl : m = mediumBlock := by simpa using hm
    refine ⟨?_, fun _ _ => (by decide : timeDiff 1000 1000 ≤ 30)⟩
    rw [mediumBlock.length_wire]
    decide
  · have hlen : (stream { blockMaxSize := 1024 } [mediumBlock, mediumBlock]).length = 12135 + 1 := by
      simp only [stream, wires, List.map_cons, List.map_nil, List.flatten_cons, List.flatten_nil,
        List.length_append, mediumBlock.length_wire]
      rfl
    have hloop : (restoreLoop { blockMaxSize := 1024 } (fun _ => 1000) collect
        (stream { blockMaxSize := 1024 } [mediumBlock, mediumBlock]) (12135 + 1)
        { ext := [] }).2 = .failed "too big" :=
      restoreLoop_too_big rfl (by rw [hlen]; decide)
    rw [consumeChunks, hlen]
    generalize restoreLoop _ _ _ _ _ _ = r at hloop ⊢
    obtain ⟨st, outcome⟩ := r
    cases hloop
    rfl
  · refine ⟨{ size := 2 ^ 32
              sizeCompress := 4
              count := 1
              offsets := [0]
              block := [1, 2, 3, 4] }, _, ⟨by decide, by decide, by decide, by decide, nofun,
      by decide, rfl, by decide, rfl⟩, rfl, rfl, ?_⟩
    decide +kernel

end TooBig

end VoipMonitor.BlockStore
