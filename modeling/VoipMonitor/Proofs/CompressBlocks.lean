import VoipMonitor.Model.CompressStream

/-!
# Blocks in a stream

What the loop of `decompress` gives does not depend on how the bytes came: the rest that it leaves
is continued. A block whose record has its own size is read back.
-/

namespace VoipMonitor.Compress
open VoipMonitor.Library

/-- What is known of a block codec: a block gives back its data when the buffer has the right size,
and never something else. A block is not empty and its length fits into the record. -/
structure Codec.Lossless (codec : Codec) : Prop where
  undo : ∀ {type data block}, codec.compress type data = .ok block →
    codec.decompress type block data.length = .ok data
  exact : ∀ {type data block size out}, codec.compress type data = .ok block →
    codec.decompress type block size = .ok out → out = data
  ne_nil : ∀ {type data block}, codec.compress type data = .ok block → block ≠ []
  length_lt : ∀ {type data block}, codec.compress type data = .ok block → block.length < 2 ^ 32

variable {codec : Codec} {type : BlockType}

def blocks (codec : Codec) (type : BlockType) (b : Bytes) : Decoded :=
  decompressLoop codec type b.length b

lemma decompressLoop_eq_blocks (fuel : Nat) (b : Bytes) (h : b.length ≤ fuel) :
    decompressLoop codec type fuel b = blocks codec type b := by
  induction fuel using Nat.strong_induction_on generalizing b with
  | _ fuel ih =>
    obtain ⟨n, hn⟩ : ∃ n, n = b.length := ⟨_, rfl⟩
    rw [blocks, ← hn]
    cases fuel with
    | zero =>
      obtain rfl : n = 0 := by omega
      rfl
    | succ fuel =>
      cases n with
      | zero =>
        have hready : ¬Ready b := fun hready => by
          have := hready.1
          omega
        rw [decompressLoop, decompressLoop, if_neg hready]
      | succ n =>
        rw [decompressLoop, decompressLoop]
        by_cases hready : Ready b
        · rw [if_pos hready, if_pos hready]
          cases decompressBlock codec type (slice b 8 (compressSizeOf b)) (sizeOf b) with
          | error error => rfl
          | ok data =>
            have hlength : (b.drop (8 + compressSizeOf b)).length ≤ n := by
              rw [List.length_drop]
              omega
            rw [ih fuel (Nat.lt_succ_self _) _ (by omega)]
            by_cases hfuel : n < fuel + 1
            · rw [ih n hfuel _ hlength]
            · omega
        · rw [if_neg hready, if_neg hready]

lemma blocks_of_not_ready {b : Bytes} (h : ¬Ready b) : blocks codec type b = ⟨[], b, ""⟩ := by
  rw [blocks]
  cases b.length with
  | zero => rfl
  | succ n => rw [decompressLoop, if_neg h]

lemma blocks_of_ready {b : Bytes} (h : Ready b) :
    blocks codec type b =
      match decompressBlock codec type (slice b 8 (compressSizeOf b)) (sizeOf b) with
      | .error error => ⟨[], b, error⟩
      | .ok data =>
        ⟨data ++ (blocks codec type (b.drop (8 + compressSizeOf b))).out,
          (blocks codec type (b.drop (8 + compressSizeOf b))).rest,
          (blocks codec type (b.drop (8 + compressSizeOf b))).error⟩ := by
  obtain ⟨n, hn⟩ : ∃ n, b.length = n + 1 := ⟨b.length - 1, by have := h.1; omega⟩
  rw [blocks, hn, decompressLoop, if_pos h]
  cases decompressBlock codec type (slice b 8 (compressSizeOf b)) (sizeOf b) with
  | error error => rfl
  | ok data =>
    rw [decompressLoop_eq_blocks]
    rw [List.length_drop]
    omega

lemma decompressError_ne (status : Status) : decompressError type status ≠ "" := by
  cases type <;> cases status <;> decide

lemma decompressBlock_error_ne {block : Bytes} {size : Nat} {error : String}
    (h : decompressBlock codec type block size = .error error) : error ≠ "" := by
  rw [decompressBlock] at h
  cases hdec : codec.decompress type block size with
  | error status =>
    rw [hdec] at h
    obtain rfl := Except.error.inj h
    exact decompressError_ne status
  | ok data =>
    rw [hdec] at h
    dsimp only at h
    by_cases hdata : data.length = size
    · rw [if_pos hdata] at h
      cases h
    · rw [if_neg hdata] at h
      obtain rfl := Except.error.inj h
      exact decompressError_ne .other

lemma sizeOf_append {a : Bytes} (h : 8 < a.length) (b : Bytes) : sizeOf (a ++ b) = sizeOf a := by
  rw [sizeOf, sizeOf, slice_append_left (by omega)]

lemma compressSizeOf_append {a : Bytes} (h : 8 < a.length) (b : Bytes) :
    compressSizeOf (a ++ b) = compressSizeOf a := by
  rw [compressSizeOf, compressSizeOf, slice_append_left (by omega)]

lemma Ready.append {a : Bytes} (h : Ready a) (b : Bytes) : Ready (a ++ b) := by
  obtain ⟨hlen, hblock⟩ := h
  rw [Ready, compressSizeOf_append hlen, List.length_append]
  omega

lemma blocks_append (a b : Bytes) :
    ((blocks codec type a).error = "" →
      blocks codec type (a ++ b) =
        ⟨(blocks codec type a).out ++ (blocks codec type ((blocks codec type a).rest ++ b)).out,
          (blocks codec type ((blocks codec type a).rest ++ b)).rest,
          (blocks codec type ((blocks codec type a).rest ++ b)).error⟩) ∧
    ((blocks codec type a).error ≠ "" →
      (blocks codec type (a ++ b)).error = (blocks codec type a).error ∧
      (blocks codec type (a ++ b)).out = (blocks codec type a).out) := by
  obtain ⟨n, hn⟩ : ∃ n, n = a.length := ⟨_, rfl⟩
  induction n using Nat.strong_induction_on generalizing a with
  | _ n ih =>
    by_cases hready : Ready a
    · have hready' := hready.append b
      have hlen := hready.1
      have hle := hready.2
      rw [blocks_of_ready hready', compressSizeOf_append hlen, sizeOf_append hlen,
        slice_append_left hle, List.drop_append_of_le_length hle, blocks_of_ready hready]
      cases hblock : decompressBlock codec type (slice a 8 (compressSizeOf a)) (sizeOf a) with
      | error error =>
        refine ⟨fun herror => ?_, fun _ => ⟨rfl, rfl⟩⟩
        exact absurd herror (decompressBlock_error_ne hblock)
      | ok data =>
        obtain ⟨hok, hfail⟩ := ih (a.drop (8 + compressSizeOf a)).length
          (by rw [hn, List.length_drop]; omega) (a.drop (8 + compressSizeOf a)) rfl
        refine ⟨fun herror => ?_, fun herror => ?_⟩
        · rw [hok herror, List.append_assoc]
        · rw [(hfail herror).1, (hfail herror).2]
          exact ⟨rfl, rfl⟩
    · rw [blocks_of_not_ready hready]
      exact ⟨fun _ => rfl, fun herror => absurd rfl herror⟩

def frame (size : Nat) (block : Bytes) : Bytes := sizeInfo size block.length ++ block

lemma length_frame (size : Nat) (block : Bytes) : (frame size block).length = 8 + block.length := by
  rw [frame, sizeInfo, List.length_append, List.length_append, length_encodeLe, length_encodeLe]

section Frame
variable {size : Nat} {block : Bytes} (hblock : block.length < 2 ^ 32)
include hblock

lemma compressSizeOf_frame (rest : Bytes) :
    compressSizeOf (frame size block ++ rest) = block.length := by
  have hslice : slice (frame size block ++ rest) 4 4 = encodeLe 4 block.length := by
    have h := slice_append_right (encodeLe 4 size) (encodeLe 4 block.length ++ (block ++ rest)) 0 4
    rw [length_encodeLe] at h
    rw [frame, sizeInfo, List.append_assoc, List.append_assoc, h,
      slice_append_left (by rw [length_encodeLe])]
    rw [slice, List.drop_zero, List.take_of_length_le (by rw [length_encodeLe])]
  rw [compressSizeOf, hslice, leNat_encodeLe hblock]

omit hblock in
lemma sizeOf_frame (hsize : size < 2 ^ 32) (rest : Bytes) :
    sizeOf (frame size block ++ rest) = size := by
  rw [sizeOf, frame, sizeInfo, List.append_assoc, List.append_assoc,
    slice_append_left (by rw [length_encodeLe]), slice, List.drop_zero,
    List.take_of_length_le (by rw [length_encodeLe]), leNat_encodeLe hsize]

lemma ready_frame (hne : block ≠ []) (rest : Bytes) : Ready (frame size block ++ rest) := by
  have hpos := List.length_pos_iff.mpr hne
  rw [Ready, compressSizeOf_frame hblock, List.length_append, length_frame]
  omega

lemma not_ready_of_isPrefix {part : Bytes} (hpart : part <+: frame size block)
    (hlt : part.length < (frame size block).length) : ¬Ready part := by
  rintro ⟨hlen, hle⟩
  obtain ⟨more, hmore⟩ := hpart
  have hsize := compressSizeOf_append hlen more
  have hframe : compressSizeOf (frame size block ++ []) = block.length :=
    compressSizeOf_frame hblock []
  rw [List.append_nil, ← hmore, hsize] at hframe
  rw [length_frame] at hlt
  omega

omit hblock in
lemma slice_frame (rest : Bytes) : slice (frame size block ++ rest) 8 block.length = block := by
  have h := slice_append_right (sizeInfo size block.length) (block ++ rest) 0 block.length
  have hlen : (sizeInfo size block.length).length = 8 := by simp [sizeInfo]
  rw [hlen] at h
  rw [frame, List.append_assoc, h, slice_append_left (by omega), slice, List.drop_zero,
    List.take_length]

lemma blocks_frame (hne : block ≠ []) (hsize : size < 2 ^ 32) (rest : Bytes) :
    blocks codec type (frame size block ++ rest) =
      match decompressBlock codec type block size with
      | .error error => ⟨[], frame size block ++ rest, error⟩
      | .ok data => ⟨data ++ (blocks codec type rest).out, (blocks codec type rest).rest,
          (blocks codec type rest).error⟩ := by
  have hdrop : (frame size block ++ rest).drop (8 + block.length) = rest := by
    rw [← length_frame size block, List.drop_left]
  rw [blocks_of_ready (ready_frame hblock hne rest), compressSizeOf_frame hblock,
    sizeOf_frame hsize, slice_frame, hdrop]

end Frame

namespace Codec.Lossless
variable (hcodec : codec.Lossless) {data block : Bytes} (hok : codec.compress type data = .ok block)
include hcodec hok

lemma blocks_good (hdata : data.length < 2 ^ 32) (rest : Bytes) :
    blocks codec type (frame data.length block ++ rest) =
      ⟨data ++ (blocks codec type rest).out, (blocks codec type rest).rest,
        (blocks codec type rest).error⟩ := by
  rw [blocks_frame (hcodec.length_lt hok) (hcodec.ne_nil hok) hdata, decompressBlock,
    hcodec.undo hok]
  dsimp only
  rw [if_pos rfl]

lemma blocks_bad {size : Nat} (hsize : size < 2 ^ 32) (hne : data.length ≠ size) (rest : Bytes) :
    (blocks codec type (frame size block ++ rest)).error ≠ "" := by
  rw [blocks_frame (hcodec.length_lt hok) (hcodec.ne_nil hok) hsize, decompressBlock]
  cases hdec : codec.decompress type block size with
  | error status => exact decompressError_ne status
  | ok out =>
    obtain rfl := hcodec.exact hok hdec
    dsimp only
    rw [if_neg hne]
    exact decompressError_ne .other

end Codec.Lossless

end VoipMonitor.Compress
