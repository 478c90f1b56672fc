import VoipMonitor.Proofs.BlockWire

/-!
# One call of `addRestoreChunk`

While the bytes of a save buffer arrive, the restore buffer holds what has arrived, with the
time cleared once the header is complete.
-/

namespace VoipMonitor.BlockStore
open VoipMonitor.Library

structure SentBlock where
  env : SaveEnv
  content : BlockContent
  counter : Nat
  env_valid : env.Valid
  storable : Storable content
  counter_lt : counter < 2 ^ 32

namespace SentBlock

def header (cfg : Config) (m : SentBlock) : PcapBlockStoreHeader :=
  saveHeader cfg m.env m.content m.counter

def wire (cfg : Config) (m : SentBlock) : Bytes :=
  getSaveBuffer cfg m.env m.content m.counter

def restored (m : SentBlock) : BlockContent := { m.content with blockCounter := m.counter }

def Accepted (cfg : Config) (m : SentBlock) (now : Nat) : Prop :=
  timeDiff m.env.timeS now ≤ cfg.receiveMaximumTimeDiffS

lemma header_sized (cfg : Config) (m : SentBlock) : (m.header cfg).Sized :=
  saveHeader_sized m.storable.toValid m.env_valid m.counter_lt

lemma wire_eq (cfg : Config) (m : SentBlock) :
    m.wire cfg = (m.header cfg).bytes ++ m.content.body := rfl

lemma length_wire (cfg : Config) (m : SentBlock) :
    (m.wire cfg).length = getSizeSaveBuffer m.content :=
  length_getSaveBuffer m.storable.toValid m.env_valid m.counter_lt

lemma wire_length_ge (cfg : Config) (m : SentBlock) : 64 ≤ (m.wire cfg).length := by
  rw [length_wire, getSizeSaveBuffer, sizeofHeader]
  omega

lemma wire_length_lt (cfg : Config) (m : SentBlock) : (m.wire cfg).length < 2 ^ 31 := by
  rw [length_wire]
  exact m.storable.saveSize_lt

end SentBlock

def seenBuffer (restoreFromStore : Bool) (p : Bytes) : Bytes :=
  if restoreFromStore = false ∧ sizeofHeader ≤ p.length then overwrite p 60 (encodeLe 4 0) else p

lemma length_seenBuffer (fs : Bool) (p : Bytes) : (seenBuffer fs p).length = p.length := by
  unfold seenBuffer
  split
  · rename_i h
    refine length_overwrite ?_
    rw [length_encodeLe]
    have := h.2
    unfold sizeofHeader at this
    omega
  · rfl

lemma sizeFromRestoreBuffer_eq {b : BlockContent} (hb : Storable b) {h : PcapBlockStoreHeader}
    (hs : h.Sized) {cfg : Config} {e : SaveEnv} {c τ : Nat}
    (hh : h = { saveHeader cfg e b c with timeS := τ }) (r : Bytes) :
    getSizeSaveBufferFromRestoreBuffer (h.bytes ++ r) = getSizeSaveBuffer b := by
  have hlt := hb.saveSize_lt
  have hcount : h.count = b.count := by
    rw [hh]
    exact Nat.mod_eq_of_lt hb.count_lt
  have huse : (if h.sizeCompress ≠ 0 then h.sizeCompress else h.size) = b.getUseSize := by
    have h1 : h.sizeCompress = b.sizeCompress := by
      rw [hh]
      exact Nat.mod_eq_of_lt hb.sizeCompress_lt
    have h2 : h.size = b.size := by
      rw [hh]
      exact Nat.mod_eq_of_lt hb.size_lt
    rw [h1, h2]
    rfl
  unfold getSizeSaveBufferFromRestoreBuffer
  rw [if_pos (by rw [List.length_append, hs.length_bytes]; unfold sizeofHeader; omega),
    hs.headerOf_append]
  dsimp only
  rw [hcount, huse]
  change toInt32 (getSizeSaveBuffer b) = _
  unfold toInt32
  rw [Int.bmod_eq_of_le] <;> omega

section Call
variable (cfg : Config) (m : SentBlock) (now : Nat) (fs : Bool) (st : PcapBlockStore)

def seenHeader : PcapBlockStoreHeader :=
  if fs then m.header cfg else { m.header cfg with timeS := 0 }

lemma seenHeader_sized : (seenHeader cfg m fs).Sized := by
  unfold seenHeader
  split
  · exact m.header_sized cfg
  · exact (m.header_sized cfg).clearTime

lemma seenHeader_eq : ∃ τ, seenHeader cfg m fs =
    { saveHeader cfg m.env m.content m.counter with timeS := τ } := by
  unfold seenHeader
  split
  · exact ⟨_, rfl⟩
  · exact ⟨0, rfl⟩

lemma seenBuffer_header (r : Bytes) :
    seenBuffer fs ((m.header cfg).bytes ++ r) = (seenHeader cfg m fs).bytes ++ r := by
  have hlen := (m.header_sized cfg).length_bytes
  unfold seenBuffer seenHeader
  cases fs with
  | true => simp
  | false =>
    rw [if_pos ⟨rfl, by rw [List.length_append, hlen]; unfold sizeofHeader; omega⟩,
      (m.header_sized cfg).overwrite_time]
    rfl

variable {cfg m now fs st} {buffer : Bytes} {offset : Option Nat} {p r : Bytes}

lemma seenBuffer_append (fs : Bool) {rest : Bytes} (hq : p ++ r = (m.header cfg).bytes ++ rest) :
    ∃ h : PcapBlockStoreHeader, seenBuffer fs p ++ r = h.bytes ++ rest ∧
      (h = m.header cfg ∧ ¬(fs = false ∧ sizeofHeader ≤ p.length) ∨
        h = { m.header cfg with timeS := 0 } ∧ fs = false) := by
  by_cases hfs : fs = false ∧ sizeofHeader ≤ p.length
  · refine ⟨{ m.header cfg with timeS := 0 }, ?_, Or.inr ⟨rfl, hfs.1⟩⟩
    have hlen := hfs.2
    unfold sizeofHeader at hlen
    rw [seenBuffer, if_pos hfs,
      ← overwrite_append_left (by rw [length_encodeLe]; omega), hq,
      (m.header_sized cfg).overwrite_time]
  · exact ⟨m.header cfg, by rw [seenBuffer, if_neg hfs, hq], Or.inl ⟨rfl, hfs⟩⟩

lemma addRestoreChunk_eq_tryRestore {rest : Bytes} (hrb : st.restoreBuffer = seenBuffer fs p)
    (hpart : buffer.drop (offset.getD 0) = r) (hr : r ≠ [])
    (hq : p ++ r = (m.header cfg).bytes ++ rest)
    (hmax : (p ++ r).length ≤ cfg.blockMaxSize * 10)
    (hacc : fs = false → p.length < sizeofHeader → sizeofHeader ≤ (p ++ r).length →
      m.Accepted cfg now) :
    addRestoreChunk cfg now fs st buffer offset =
      tryRestore st ((seenHeader cfg m fs).bytes ++ rest) r.length buffer.length offset := by
  obtain ⟨h, hbuf, hh⟩ := seenBuffer_append fs hq
  have hs : h.Sized := by
    rcases hh with ⟨rfl, -⟩ | ⟨rfl, -⟩
    · exact m.header_sized cfg
    · exact (m.header_sized cfg).clearTime
  have htitle : h.title = headerString := by rcases hh with ⟨rfl, -⟩ | ⟨rfl, -⟩ <;> rfl
  have hversion : h.version = headerVersion := by rcases hh with ⟨rfl, -⟩ | ⟨rfl, -⟩ <;> rfl
  have hlen : (h.bytes ++ rest).length = (p ++ r).length := by
    rw [← hbuf, List.length_append, length_seenBuffer, List.length_append]
  have hheader : sizeofHeader ≤ (h.bytes ++ rest).length := by
    rw [List.length_append, hs.length_bytes]
    unfold sizeofHeader
    omega
  have hrlen : r.length ≠ 0 := by
    intro h0
    exact hr (List.length_eq_zero_iff.mp h0)
  unfold addRestoreChunk
  rw [hpart]
  dsimp only
  rw [hrb, hbuf, if_neg hrlen, if_neg (by rw [hlen]; omega), hs.headerOf_append,
    if_neg (by simp [htitle]), if_neg (by simp [hversion])]
  by_cases htime : fs = false ∧ sizeofHeader ≤ (h.bytes ++ rest).length ∧ h.timeS ≠ 0
  · have hhdr : h = m.header cfg ∧ p.length < sizeofHeader := by
      rcases hh with ⟨hh, hp⟩ | ⟨rfl, -⟩
      · exact ⟨hh, Nat.lt_of_not_le (fun hle => hp ⟨htime.1, hle⟩)⟩
      · exact absurd rfl htime.2.2
    obtain ⟨rfl, hp⟩ := hhdr
    have haccept : ¬timeDiff (m.header cfg).timeS now > cfg.receiveMaximumTimeDiffS :=
      Nat.not_lt.mpr (hacc htime.1 hp (by rw [← hlen]; exact hheader))
    rw [if_pos htime, if_neg haccept, hs.overwrite_time, seenHeader, if_neg (by simp [htime.1])]
    rfl
  · rw [if_neg htime]
    have hseen : h = seenHeader cfg m fs := by
      unfold seenHeader
      rcases hh with ⟨rfl, -⟩ | ⟨rfl, hfs⟩
      · by_cases hfs : fs = true
        · rw [if_pos hfs]
        · have hzero : (m.header cfg).timeS = 0 := by
            by_contra hne
            exact htime ⟨by simpa using hfs, hheader, hne⟩
          rw [if_neg hfs, ← hzero]
      · rw [if_neg (by simp [hfs])]
    rw [hseen]
    rfl

lemma addRestoreChunk_absorb (hrb : st.restoreBuffer = seenBuffer fs p)
    (hpart : buffer.drop (offset.getD 0) = r) (hr : r ≠ []) (hpre : p ++ r <+: m.wire cfg)
    (hlt : (p ++ r).length < (m.wire cfg).length)
    (hmax : (p ++ r).length ≤ cfg.blockMaxSize * 10)
    (hacc : fs = false → p.length < sizeofHeader → sizeofHeader ≤ (p ++ r).length →
      m.Accepted cfg now) :
    addRestoreChunk cfg now fs st buffer offset =
      ⟨0, { st with restoreBuffer := seenBuffer fs (p ++ r) }, offset⟩ := by
  have hwlt := m.wire_length_lt cfg
  by_cases hhdr : sizeofHeader ≤ (p ++ r).length
  · have hlen := (m.header_sized cfg).length_bytes
    obtain ⟨rest, hrest⟩ : ∃ rest, p ++ r = (m.header cfg).bytes ++ rest := by
      have hpre' : (m.header cfg).bytes <+: p ++ r := by
        refine List.prefix_of_prefix_length_le (List.prefix_append _ _) hpre ?_
        rw [hlen]
        exact hhdr
      obtain ⟨rest, h⟩ := hpre'
      exact ⟨rest, h.symm⟩
    obtain ⟨τ, hτ⟩ := seenHeader_eq cfg m fs
    have hsize := sizeFromRestoreBuffer_eq m.storable (seenHeader_sized cfg m fs) hτ rest
    have hbuf := seenBuffer_header cfg m fs rest
    have hblen : ((seenHeader cfg m fs).bytes ++ rest).length = (p ++ r).length := by
      rw [← hbuf, length_seenBuffer, hrest]
    rw [addRestoreChunk_eq_tryRestore hrb hpart hr hrest hmax hacc, hrest, hbuf, tryRestore]
    have hnat : toSizeT (getSizeSaveBufferFromRestoreBuffer
        ((seenHeader cfg m fs).bytes ++ rest)) = (m.wire cfg).length := by
      rw [hsize, ← m.length_wire cfg]
      unfold toSizeT
      omega
    rw [hnat, hblen, if_neg (by omega), if_pos (Or.inr hlt)]
  · have hp : p.length < sizeofHeader := by
      rw [List.length_append] at hhdr
      omega
    have hbuf : ∀ q : Bytes, q.length < sizeofHeader → seenBuffer fs q = q := by
      intro q hq
      rw [seenBuffer, if_neg (fun h => absurd h.2 (by omega))]
    have hrlen : r.length ≠ 0 := by
      intro h0
      exact hr (List.length_eq_zero_iff.mp h0)
    have hno : getSizeSaveBufferFromRestoreBuffer (p ++ r) = -1 := by
      rw [getSizeSaveBufferFromRestoreBuffer, if_neg hhdr]
    unfold addRestoreChunk
    rw [hpart]
    rw [hrb, hbuf p hp, hbuf (p ++ r) (by omega), if_neg hrlen, if_neg (by omega),
      if_neg (fun h => hhdr h.1), if_neg (fun h => hhdr h.1), if_neg (fun h => hhdr h.2.1),
      tryRestore]
    rw [hno, if_neg (by unfold toSizeT sizeofHeader at *; omega), if_pos (Or.inl (by decide))]

/-- A call that brings the rest of the save buffer, and perhaps more, restores the block and
moves the offset to the first byte after it. -/
lemma addRestoreChunk_restore {t : Bytes} (hrb : st.restoreBuffer = seenBuffer fs p)
    (hpart : buffer.drop (offset.getD 0) = r) (hr : r ≠ []) (hq : p ++ r = m.wire cfg ++ t)
    (hlt : p.length < (m.wire cfg).length)
    (hmax : (p ++ r).length ≤ cfg.blockMaxSize * 10)
    (hacc : fs = false → p.length < sizeofHeader → sizeofHeader ≤ (p ++ r).length →
      m.Accepted cfg now) :
    ∃ st', addRestoreChunk cfg now fs st buffer offset =
        ⟨1, st', offset.map (fun _ => buffer.length - t.length)⟩ ∧
      st'.toBlockContent = m.restored ∧
      st'.requireConfirmation = cfg.mirrorRequireConfirmation ∧ st'.restoreBuffer = [] := by
  have hwlt := m.wire_length_lt cfg
  have hwge := m.wire_length_ge cfg
  have hrest : p ++ r = (m.header cfg).bytes ++ (m.content.body ++ t) := by
    rw [hq, m.wire_eq, List.append_assoc]
  obtain ⟨τ, hτ⟩ := seenHeader_eq cfg m fs
  have hs := seenHeader_sized cfg m fs
  have hsize := sizeFromRestoreBuffer_eq m.storable hs hτ (m.content.body ++ t)
  have hbuf := seenBuffer_header cfg m fs (m.content.body ++ t)
  have hblen : ((seenHeader cfg m fs).bytes ++ (m.content.body ++ t)).length =
      (m.wire cfg).length + t.length := by
    rw [← hbuf, length_seenBuffer, ← hrest, hq, List.length_append]
  have hprlen : p.length + r.length = (m.wire cfg).length + t.length := by
    rw [← List.length_append, hq, List.length_append]
  have hnat : toSizeT (getSizeSaveBufferFromRestoreBuffer
      ((seenHeader cfg m fs).bytes ++ (m.content.body ++ t))) = (m.wire cfg).length := by
    rw [hsize, ← m.length_wire cfg]
    unfold toSizeT
    omega
  have hint : getSizeSaveBufferFromRestoreBuffer
      ((seenHeader cfg m fs).bytes ++ (m.content.body ++ t)) = (m.wire cfg).length := by
    rw [hsize, m.length_wire cfg]
  have hbytes : toSizeT ((m.wire cfg).length - sizeofHeader) = (m.wire cfg).length - sizeofHeader := by
    unfold toSizeT sizeofHeader
    omega
  obtain ⟨hcontent, hconfirm⟩ := restoreFromSaveBuffer_content m.storable hs hτ
    { st with restoreBuffer := (seenHeader cfg m fs).bytes ++ (m.content.body ++ t) } t
  have hchecksum : ¬((seenHeader cfg m fs).checksum ≠ 0 ∧ (seenHeader cfg m fs).checksum ≠
      max (checksum32buf (slice ((seenHeader cfg m fs).bytes ++ (m.content.body ++ t))
        sizeofHeader ((m.wire cfg).length - sizeofHeader))) 1) := by
    have hbody : slice ((seenHeader cfg m fs).bytes ++ (m.content.body ++ t)) sizeofHeader
        ((m.wire cfg).length - sizeofHeader) = m.content.body := by
      have hwl : (m.wire cfg).length = sizeofHeader + m.content.body.length := by
        rw [m.wire_eq, List.length_append, (m.header_sized cfg).length_bytes]
        rfl
      have h := slice_append_right (seenHeader cfg m fs).bytes (m.content.body ++ t) 0
        m.content.body.length
      rw [Nat.add_zero, hs.length_bytes] at h
      rw [hwl, Nat.add_sub_cancel_left]
      refine h.trans ?_
      rw [slice_append_left (by omega)]
      simp [slice]
    rw [hbody, hτ]
    rintro ⟨hne, hne'⟩
    refine hne' ?_
    change (if cfg.mirrorUseChecksum then max (checksum32buf m.content.body) 1 else 0) = _
    change (if cfg.mirrorUseChecksum then max (checksum32buf m.content.body) 1 else 0) ≠ 0 at hne
    by_cases hc : cfg.mirrorUseChecksum = true
    · rw [if_pos hc]
    · rw [if_neg hc] at hne
      exact absurd rfl hne
  refine ⟨destroyRestoreBuffer (restoreFromSaveBuffer { st with restoreBuffer :=
    (seenHeader cfg m fs).bytes ++ (m.content.body ++ t) }
    ((seenHeader cfg m fs).bytes ++ (m.content.body ++ t))), ?_, hcontent, hconfirm, rfl⟩
  rw [addRestoreChunk_eq_tryRestore hrb hpart hr hrest hmax hacc, tryRestore]
  rw [hnat, hint, hblen, hs.headerOf_append, hbytes, if_neg (by omega), if_neg (by omega),
    Int.toNat_natCast, if_neg hchecksum, Nat.add_sub_cancel_left]

end Call

end VoipMonitor.BlockStore
