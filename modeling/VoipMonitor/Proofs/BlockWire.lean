import VoipMonitor.Library.Cuts
import VoipMonitor.Model.BlockStore

/-!
# One save buffer

The header is read back from the bytes it is written to, clearing the time of a save buffer
gives the save buffer of time 0, and a call of `addRestoreChunk` either takes in a proper part
of the save buffer or restores the block.
-/

namespace VoipMonitor.BlockStore
open VoipMonitor.Library

structure PcapBlockStoreHeader.Sized (h : PcapBlockStoreHeader) : Prop where
  title_length : h.title.length = 16
  version_lt : h.version < 2 ^ 8
  fill1_length : h.fill1.length = 3
  size_lt : h.size < 2 ^ 32
  sizeCompress_lt : h.sizeCompress < 2 ^ 32
  count_lt : h.count < 2 ^ 32
  dlink_lt : h.dlink < 2 ^ 16
  sensorId_lt : h.sensorId < 2 ^ 16
  ifname_length : h.ifname.length = 10
  hm_lt : h.hm < 2 ^ 8
  fill2_length : h.fill2.length = 1
  checksum_lt : h.checksum < 2 ^ 32
  counter_lt : h.counter < 2 ^ 32
  requireConfirmation_lt : h.requireConfirmation < 2 ^ 8
  fill3_length : h.fill3.length = 3
  timeS_lt : h.timeS < 2 ^ 32

namespace PcapBlockStoreHeader
variable {h : PcapBlockStoreHeader} (hs : h.Sized)
include hs

lemma Sized.length_bytes : h.bytes.length = 64 := by
  simp [bytes, fields, hs.title_length, hs.fill1_length, hs.ifname_length, hs.fill2_length,
    hs.fill3_length]

omit hs in
lemma slice_field (r : Bytes) {i : Nat} (hi : i < h.fields.length) :
    slice (h.bytes ++ r) (cut h.fields i) (h.fields.get ⟨i, hi⟩).length =
      h.fields.get ⟨i, hi⟩ := by
  have hle := cut_le_length h.fields (i + 1)
  rw [cut_succ hi] at hle
  exact (slice_append_left hle r).trans (slice_cut hi)

lemma Sized.headerOf_append (r : Bytes) : headerOf (h.bytes ++ r) = h := by
  have hlen : h.fields.length = 16 := rfl
  have field : ∀ i (hi : i < 16), slice (h.bytes ++ r) (cut h.fields i)
      (h.fields.get ⟨i, hlen ▸ hi⟩).length = h.fields.get ⟨i, hlen ▸ hi⟩ :=
    fun i hi => slice_field r _
  have h0 := field 0 (by decide)
  have h1 := field 1 (by decide)
  have h2 := field 2 (by decide)
  have h3 := field 3 (by decide)
  have h4 := field 4 (by decide)
  have h5 := field 5 (by decide)
  have h6 := field 6 (by decide)
  have h7 := field 7 (by decide)
  have h8 := field 8 (by decide)
  have h9 := field 9 (by decide)
  have h10 := field 10 (by decide)
  have h11 := field 11 (by decide)
  have h12 := field 12 (by decide)
  have h13 := field 13 (by decide)
  have h14 := field 14 (by decide)
  have h15 := field 15 (by decide)
  simp [cut, fields, hs.title_length, hs.fill1_length, hs.ifname_length, hs.fill2_length,
    hs.fill3_length] at h0 h1 h2 h3 h4 h5 h6 h7 h8 h9 h10 h11 h12 h13 h14 h15
  have hv := hs.version_lt
  have e1 : leNat (encodeLe 1 h.version) = h.version := leNat_encodeLe (by omega)
  have e3 : leNat (encodeLe 4 h.size) = h.size := leNat_encodeLe (by have := hs.size_lt; omega)
  have e4 : leNat (encodeLe 4 h.sizeCompress) = h.sizeCompress :=
    leNat_encodeLe (by have := hs.sizeCompress_lt; omega)
  have e5 : leNat (encodeLe 4 h.count) = h.count := leNat_encodeLe (by have := hs.count_lt; omega)
  have e6 : leNat (encodeLe 2 h.dlink) = h.dlink := leNat_encodeLe (by have := hs.dlink_lt; omega)
  have e7 : leNat (encodeLe 2 h.sensorId) = h.sensorId :=
    leNat_encodeLe (by have := hs.sensorId_lt; omega)
  have e9 : leNat (encodeLe 1 h.hm) = h.hm := leNat_encodeLe (by have := hs.hm_lt; omega)
  have e11 : leNat (encodeLe 4 h.checksum) = h.checksum :=
    leNat_encodeLe (by have := hs.checksum_lt; omega)
  have e12 : leNat (encodeLe 4 h.counter) = h.counter :=
    leNat_encodeLe (by have := hs.counter_lt; omega)
  have e13 : leNat (encodeLe 1 h.requireConfirmation) = h.requireConfirmation :=
    leNat_encodeLe (by have := hs.requireConfirmation_lt; omega)
  have e15 : leNat (encodeLe 4 h.timeS) = h.timeS := leNat_encodeLe (by have := hs.timeS_lt; omega)
  unfold headerOf
  rw [h0, h1, h2, h3, h4, h5, h6, h7, h8, h9, h10, h11, h12, h13, h14, h15, e1, e3, e4, e5, e6,
    e7, e9, e11, e12, e13, e15]

lemma Sized.overwrite_time (r : Bytes) :
    overwrite (h.bytes ++ r) 60 (encodeLe 4 0) = { h with timeS := 0 }.bytes ++ r := by
  have hsplit : ∀ k : PcapBlockStoreHeader, k.bytes =
      (k.fields.take 15).flatten ++ encodeLe 4 k.timeS := by
    intro k
    simp [bytes, fields]
  have hlen : (h.fields.take 15).flatten.length = 60 := by
    simp [fields, hs.title_length, hs.fill1_length, hs.ifname_length, hs.fill2_length,
      hs.fill3_length]
  have hover : overwrite (encodeLe 4 h.timeS) 0 (encodeLe 4 0) = encodeLe 4 0 := by
    simp [overwrite]
  have hword : overwrite (encodeLe 4 h.timeS ++ r) 0 (encodeLe 4 0) =
      overwrite (encodeLe 4 h.timeS) 0 (encodeLe 4 0) ++ r := overwrite_append_left (by simp) r
  have hshift := overwrite_append_right (h.fields.take 15).flatten (encodeLe 4 h.timeS ++ r)
    (encodeLe 4 0) 0
  rw [hlen, Nat.add_zero] at hshift
  rw [hsplit h, hsplit { h with timeS := 0 }, List.append_assoc, hshift, hword, hover,
    List.append_assoc]
  rfl

lemma Sized.clearTime : { h with timeS := 0 }.Sized :=
  { hs with timeS_lt := by norm_num }

end PcapBlockStoreHeader

section Save
variable {cfg : Config} {e : SaveEnv} {b : BlockContent} {c : Nat}

lemma checksum32buf_lt (l : Bytes) : checksum32buf l < 2 ^ 16 := by
  suffices h : ∀ s, s < 2 ^ 16 → l.foldl (fun s c =>
      (s + (if c.toNat < 128 then c.toNat else c.toNat + (2 ^ 16 - 256))) % 2 ^ 16) s < 2 ^ 16 from
    h 0 (by norm_num)
  induction l with
  | nil => exact fun s hs => hs
  | cons a l ih =>
    intro s _
    exact ih _ (Nat.mod_lt _ (by norm_num))

lemma length_body (hb : b.Valid) : b.body.length = b.count * 4 + b.getUseSize := by
  have hsum : ∀ l : List Nat, (l.map (encodeLe 4)).flatten.length = l.length * 4 := by
    intro l
    induction l with
    | nil => rfl
    | cons a l ih =>
      rw [List.map_cons, List.flatten_cons, List.length_append, ih, length_encodeLe,
        List.length_cons]
      omega
  rw [BlockContent.body, List.length_append, hsum, hb.offsets_length, hb.block_length]

lemma saveHeader_sized (hb : b.Valid) (he : e.Valid) (hc : c < 2 ^ 32) :
    (saveHeader cfg e b c).Sized where
  title_length := rfl
  version_lt := show 7 < 2 ^ 8 by norm_num
  fill1_length := he.fill1_length
  size_lt := Nat.mod_lt _ (by norm_num)
  sizeCompress_lt := Nat.mod_lt _ (by norm_num)
  count_lt := Nat.mod_lt _ (by norm_num)
  dlink_lt := hb.dlink_lt
  sensorId_lt := by
    change (b.sensorId % 2 ^ 16).toNat < 2 ^ 16
    omega
  ifname_length := by
    have := hb.ifname_length
    simp only [saveHeader, List.length_append, List.length_replicate]
    omega
  hm_lt := by
    change encodeHm b.hm < 2 ^ 8
    cases b.hm <;> decide
  fill2_length := he.fill2_length
  checksum_lt := by
    have := checksum32buf_lt b.body
    change (if cfg.mirrorUseChecksum then max (checksum32buf b.body) 1 else 0) < 2 ^ 32
    split <;> omega
  counter_lt := hc
  requireConfirmation_lt := by
    change (if cfg.mirrorRequireConfirmation then 1 else 0) < 2 ^ 8
    split <;> decide
  fill3_length := he.fill3_length
  timeS_lt := he.timeS_lt

lemma length_getSaveBuffer (hb : b.Valid) (he : e.Valid) (hc : c < 2 ^ 32) :
    (getSaveBuffer cfg e b c).length = getSizeSaveBuffer b := by
  rw [getSaveBuffer, List.length_append, (saveHeader_sized hb he hc).length_bytes, length_body hb,
    getSizeSaveBuffer, sizeofHeader]
  omega

structure Storable (b : BlockContent) : Prop extends b.Valid where
  size_lt : b.size < 2 ^ 32
  saveSize_lt : getSizeSaveBuffer b < 2 ^ 31

lemma Storable.count_lt (hb : Storable b) : b.count < 2 ^ 32 := by
  have := hb.saveSize_lt
  unfold getSizeSaveBuffer at this
  omega

lemma Storable.sizeCompress_lt (hb : Storable b) : b.sizeCompress < 2 ^ 32 := by
  have := hb.saveSize_lt
  unfold getSizeSaveBuffer BlockContent.getUseSize at this
  split at this <;> omega

lemma cut_map_encodeLe (l : List Nat) {i : Nat} (hi : i ≤ l.length) :
    cut (l.map (encodeLe 4)) i = i * 4 := by
  induction i with
  | zero => simp
  | succ i ih =>
    rw [cut_succ (by rw [List.length_map]; omega), ih (by omega), List.getElem_map,
      length_encodeLe]
    omega

lemma read_ifname (hb : b.Valid) :
    ((b.ifname ++ List.replicate (10 - b.ifname.length) (0 : UInt8)).take 9).takeWhile
      (fun x => decide (x ≠ 0)) = b.ifname := by
  have hlen := hb.ifname_length
  rw [List.take_append, List.take_of_length_le hlen, List.take_replicate]
  rw [List.takeWhile_append_of_pos (by simpa using hb.ifname_text)]
  cases min (9 - b.ifname.length) (10 - b.ifname.length) <;> simp [List.replicate_succ]

lemma bmod_toNat_emod {n : Int} (h1 : -2 ^ 15 ≤ n) (h2 : n < 2 ^ 15) :
    Int.bmod ((n % 2 ^ 16).toNat : Int) (2 ^ 16) = n := by
  have hnonneg : 0 ≤ n % 2 ^ 16 := by omega
  rw [Int.toNat_of_nonneg hnonneg, Int.bmod]
  push_cast
  split <;> omega

lemma restoreFromSaveBuffer_content (hb : Storable b) {h : PcapBlockStoreHeader} (hs : h.Sized)
    {τ : Nat} (hh : h = { saveHeader cfg e b c with timeS := τ }) (st : PcapBlockStore) (t : Bytes) :
    (restoreFromSaveBuffer st (h.bytes ++ (b.body ++ t))).toBlockContent =
      { b with blockCounter := c } ∧
    (restoreFromSaveBuffer st (h.bytes ++ (b.body ++ t))).requireConfirmation =
      cfg.mirrorRequireConfirmation := by
  have hsize : h.size = b.size := by
    rw [hh]
    exact Nat.mod_eq_of_lt hb.size_lt
  have hcompress : h.sizeCompress = b.sizeCompress := by
    rw [hh]
    exact Nat.mod_eq_of_lt hb.sizeCompress_lt
  have hcount : h.count = b.count := by
    rw [hh]
    exact Nat.mod_eq_of_lt hb.count_lt
  have hhm : decodeHm h.hm = b.hm := by
    rw [hh]
    change decodeHm (encodeHm b.hm) = b.hm
    cases b.hm <;> rfl
  have hdlink : h.dlink = b.dlink := by rw [hh]; rfl
  have hsensor : Int.bmod h.sensorId (2 ^ 16) = b.sensorId := by
    have h1 := hb.sensorId_lower
    have h2 := hb.sensorId_upper
    rw [hh]
    exact bmod_toNat_emod h1 h2
  have hifname : (h.ifname.take 9).takeWhile (fun x => decide (x ≠ 0)) = b.ifname := by
    rw [hh]
    exact read_ifname hb.toValid
  have hcounter : h.counter = c := by rw [hh]; rfl
  have hconfirm : decide (h.requireConfirmation ≠ 0) = cfg.mirrorRequireConfirmation := by
    rw [hh]
    change decide ((if cfg.mirrorRequireConfirmation then 1 else 0) ≠ 0) = _
    by_cases hr : cfg.mirrorRequireConfirmation = true <;> simp [hr]
  have hoffsets : (List.range b.count).map (fun i => leNat (slice (h.bytes ++ (b.body ++ t))
      (sizeofHeader + i * 4) 4)) = b.offsets := by
    apply List.ext_getElem
    · simp [hb.offsets_length]
    · intro i hi hi'
      have hlt := hb.offsets_lt _ (List.getElem_mem hi')
      have hmap : i < (b.offsets.map (encodeLe 4)).length := by rwa [List.length_map]
      have hcut := slice_cut hmap
      rw [cut_map_encodeLe _ (by omega), List.getElem_map, length_encodeLe] at hcut
      have hle := cut_le_length (b.offsets.map (encodeLe 4)) (i + 1)
      rw [cut_map_encodeLe _ (by omega)] at hle
      rw [List.getElem_map, List.getElem_range, show sizeofHeader = h.bytes.length from
        hs.length_bytes.symm, slice_append_right, BlockContent.body, List.append_assoc,
        slice_append_left (by omega), hcut, leNat_encodeLe (by omega)]
  have hblock : slice (h.bytes ++ (b.body ++ t)) (sizeofHeader + b.count * 4)
      (if b.sizeCompress ≠ 0 then b.sizeCompress else b.size) = b.block := by
    have hcut := cut_map_encodeLe b.offsets le_rfl
    rw [← List.length_map (encodeLe 4), cut_length, List.length_map, hb.offsets_length] at hcut
    have huse : (if b.sizeCompress ≠ 0 then b.sizeCompress else b.size) = b.block.length := by
      rw [hb.block_length]
      rfl
    rw [show sizeofHeader = h.bytes.length from hs.length_bytes.symm, slice_append_right,
      BlockContent.body, List.append_assoc, huse, ← hcut]
    have := slice_append_right (b.offsets.map (encodeLe 4)).flatten (b.block ++ t) 0 b.block.length
    rw [Nat.add_zero] at this
    rw [this, slice_append_left (by omega)]
    simp [slice]
  unfold restoreFromSaveBuffer
  rw [hs.headerOf_append]
  dsimp only
  rw [hcount, hsize, hcompress, hoffsets, hblock, hhm, hdlink, hsensor, hcounter]
  refine ⟨?_, hconfirm⟩
  simp only [BlockContent.mk.injEq, true_and, and_true]
  exact hifname

end Save

end VoipMonitor.BlockStore
