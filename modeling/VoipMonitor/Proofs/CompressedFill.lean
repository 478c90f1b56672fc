import VoipMonitor.Model.CompressedChunks
import VoipMonitor.Proofs.ChunkLayout
import VoipMonitor.Proofs.CompressRoundTrip

/-!
# What compressed chunks hold

The records and blocks of what was added lie one behind another in the chunks. The chunks that are
freed were full, and all others are full but the last one.
-/

namespace VoipMonitor.Compress
open VoipMonitor.Library VoipMonitor.Tar

variable {codec : Codec} {type : BlockType} {length : Nat}

/-- What is assumed of a codec for data up to some length: it gives a block, which is not empty and
has a size that fits into the record, and from the block the data again. -/
def Codec.GivesBack (codec : Codec) (type : BlockType) (length : Nat) : Prop :=
  ∀ data : Bytes, data ≠ [] → data.length ≤ length →
    ∃ block, codec.compress type data = .ok block ∧ block ≠ [] ∧ block.length < 2 ^ 32 ∧
      codec.decompress type block data.length = .ok data

def blockOf (codec : Codec) (type : BlockType) (data : Bytes) : Bytes :=
  match codec.compress type data with
  | .ok block => block
  | .error _ => []

def recordOf (codec : Codec) (type : BlockType) (data : Bytes) : Bytes :=
  ChunkLen.bytes ⟨(blockOf codec type data).length, data.length⟩

def stored (codec : Codec) (type : BlockType) (added : List Bytes) : Bytes :=
  (added.map fun data => recordOf codec type data ++ blockOf codec type data).flatten

@[simp] lemma length_recordOf (data : Bytes) : (recordOf codec type data).length = 8 := by
  rw [recordOf, ChunkLen.bytes, List.length_append, length_encodeLe, length_encodeLe]

@[simp] lemma stored_nil : stored codec type [] = [] := rfl

lemma stored_cons (data : Bytes) (added : List Bytes) :
    stored codec type (data :: added) =
      recordOf codec type data ++ (blockOf codec type data ++ stored codec type added) := by
  rw [stored, List.map_cons, List.flatten_cons, List.append_assoc]
  rfl

lemma stored_append (added more : List Bytes) :
    stored codec type (added ++ more) = stored codec type added ++ stored codec type more := by
  rw [stored, List.map_append, List.flatten_append]
  rfl

lemma stored_concat (added : List Bytes) (data : Bytes) :
    stored codec type (added ++ [data]) =
      stored codec type added ++ (recordOf codec type data ++ blockOf codec type data) := by
  rw [stored_append, stored_cons, stored_nil, List.append_nil]

def Fits (length : Nat) (data : Bytes) : Prop := data ≠ [] ∧ data.length ≤ length

section GivesBack
variable (hcodec : codec.GivesBack type length) {data : Bytes} (hdata : Fits length data)
include hcodec hdata

lemma compress_eq_blockOf : codec.compress type data = .ok (blockOf codec type data) := by
  obtain ⟨block, hblock, -⟩ := hcodec data hdata.1 hdata.2
  rw [blockOf, hblock]

lemma blockOf_ne_nil : blockOf codec type data ≠ [] := by
  obtain ⟨block, hblock, hne, -⟩ := hcodec data hdata.1 hdata.2
  rwa [blockOf, hblock]

lemma length_blockOf_lt : (blockOf codec type data).length < 2 ^ 32 := by
  obtain ⟨block, hblock, -, hlt, -⟩ := hcodec data hdata.1 hdata.2
  rwa [blockOf, hblock]

lemma decompress_blockOf :
    codec.decompress type (blockOf codec type data) data.length = .ok data := by
  obtain ⟨block, hblock, -, -, hback⟩ := hcodec data hdata.1 hdata.2
  rwa [blockOf, hblock]

end GivesBack

/-! ## Chunks -/

structure Holds (fixLen : Nat) (c : Chunk) (x : Bytes) : Prop where
  len : c.len = x.length
  kind : c.decompressLen = filled
  memory : ∃ memory, c.chunk = some memory ∧ memory.length = fixLen ∧ memory.take x.length = x

def gone (fixLen : Nat) : Chunk := ⟨⟨fixLen, filled⟩, none⟩

structure Chunked (b : ChunkBuffer) (index : Nat) (rest : List Bytes) : Prop where
  pieces : Pieces b.chunkFixLen rest
  chunks : ∃ kept, b.chunkBuffer = List.replicate index (gone b.chunkFixLen) ++ kept ∧
    List.Forall₂ (Holds b.chunkFixLen) kept rest
  count : b.countItems = index + rest.length
  small : index + rest.length < 2 ^ 32

variable {b : ChunkBuffer} {index : Nat} {rest : List Bytes} {data : Bytes}

lemma Holds.write {fixLen : Nat} {c : Chunk} {x : Bytes} (h : Holds fixLen c x)
    (hle : x.length + data.length ≤ fixLen) (hfix : fixLen < 2 ^ 32) :
    Holds fixLen (c.write data) (x ++ data) := by
  obtain ⟨hlen, hkind, memory, hchunk, hmemory, htake⟩ := h
  refine ⟨?_, hkind, overwrite memory x.length data, ?_, ?_, ?_⟩
  · rw [Chunk.write]
    rw [hlen, add32_eq (by omega), List.length_append]
  · rw [Chunk.write]
    rw [hchunk, hlen, Option.map_some]
  · rw [length_overwrite (by omega), hmemory]
  · rw [List.length_append]
    exact overwrite_take htake rfl

lemma Chunked.last_full (h : Chunked b index rest)
    (hlast : ∀ x ∈ rest.getLast?, x.length = b.chunkFixLen) :
    b.lastLen = none ∨ b.lastLen = some b.chunkFixLen := by
  obtain ⟨kept, hkept, hholds⟩ := h.chunks
  rw [ChunkBuffer.lastLen]
  cases hc : b.chunkBuffer.getLast? with
  | none => exact .inl rfl
  | some c =>
    refine .inr (congrArg some ?_)
    rcases List.eq_nil_or_concat' rest with rfl | ⟨front, last, rfl⟩
    · obtain rfl := List.forall₂_nil_right_iff.mp hholds
      rw [hkept, List.append_nil] at hc
      rw [List.eq_of_mem_replicate (List.mem_of_mem_getLast? hc)]
      rfl
    · obtain ⟨keptFront, keptLast, rfl, -, hlastHolds⟩ := forall₂_of_concat hholds
      rw [hkept, ← List.append_assoc, List.getLast?_concat] at hc
      obtain rfl := Option.some.inj hc
      exact hlastHolds.len.trans (hlast last (by rw [List.getLast?_concat]; rfl))

lemma Chunked.room (h : Chunked b index rest)
    (hlast : ∀ x ∈ rest.getLast?, x.length = b.chunkFixLen)
    (hroom : index * b.chunkFixLen + rest.flatten.length < (2 ^ 32 - 1) * b.chunkFixLen) :
    index + rest.length + 1 < 2 ^ 32 := by
  have hfull : ∀ x ∈ rest, x.length = b.chunkFixLen := by
    intro x hx
    rcases List.eq_nil_or_concat' rest with rfl | ⟨front, last, rfl⟩
    · cases hx
    · rcases List.mem_append.mp hx with hx | hx
      · have hfull := h.pieces.full
        rw [List.dropLast_concat] at hfull
        exact hfull x hx
      · rw [List.mem_singleton.mp hx]
        exact hlast last (by rw [List.getLast?_concat]; rfl)
  rw [length_flatten_of_full hfull, ← Nat.add_mul] at hroom
  have hlt := Nat.lt_of_mul_lt_mul_right hroom
  omega

lemma Chunked.fillRound (h : Chunked b index rest) (hdata : data ≠ []) (hfix : 0 < b.chunkFixLen)
    (hfixLt : b.chunkFixLen < 2 ^ 32)
    (hroom : index * b.chunkFixLen + rest.flatten.length + data.length ≤
      (2 ^ 32 - 1) * b.chunkFixLen) :
    ∃ rest', Chunked (b.fillRound data).1 index rest' ∧ 0 < (b.fillRound data).2 ∧
      rest'.flatten = rest.flatten ++ data.take (b.fillRound data).2 := by
  have hpos := List.length_pos_iff.mpr hdata
  obtain ⟨kept, hkept, hholds⟩ := h.chunks
  by_cases hlast : ∀ x ∈ rest.getLast?, x.length = b.chunkFixLen
  · -- a new chunk
    have hcount := h.room hlast (by omega)
    obtain ⟨n, hn⟩ : ∃ n, n = min data.length (sub32 b.chunkFixLen 0) := ⟨_, rfl⟩
    have hround : b.fillRound data =
        ({ b with
            chunkBuffer := b.chunkBuffer ++
              [Chunk.write (data.take n) ⟨⟨0, filled⟩, some (List.replicate b.chunkFixLen 0)⟩]
            countItems := add32 b.countItems 1 }, n) := by
      have hpushed (c : Chunk) : (b.push c).lastLen = some c.len := by
        rw [ChunkBuffer.lastLen, ChunkBuffer.push, List.getLast?_concat, Option.map_some]
      rw [ChunkBuffer.fillRound, if_pos (h.last_full hlast), hpushed, Option.getD_some,
        ChunkBuffer.push]
      rw [← hn, List.modifyLast_concat]
    have hzero : n = min data.length b.chunkFixLen := by
      rw [hn, sub32_eq hfixLt (Nat.zero_le _), Nat.sub_zero]
    have htake : (data.take n).length = n := by
      rw [List.length_take]
      omega
    have hnew : Holds b.chunkFixLen
        (Chunk.write (data.take n) ⟨⟨0, filled⟩, some (List.replicate b.chunkFixLen 0)⟩)
        (data.take n) := by
      have hempty : Holds b.chunkFixLen
          ⟨⟨0, filled⟩, some (List.replicate b.chunkFixLen 0)⟩ [] :=
        ⟨rfl, rfl, _, rfl, List.length_replicate, rfl⟩
      exact hempty.write (by rw [htake, List.length_nil]; omega) hfixLt
    rw [hround]
    refine ⟨rest ++ [data.take n], ⟨?_, ⟨kept ++ [_], ?_, forall₂_concat hholds hnew⟩, ?_, ?_⟩, ?_,
      List.flatten_concat⟩
    · exact h.pieces.concat hlast (by omega) (by omega)
    · rw [hkept, List.append_assoc]
    · rw [h.count, add32_eq (by omega), List.length_append]
      rfl
    · rw [List.length_append, List.length_singleton]
      omega
    · omega
  · -- the last chunk grows
    obtain ⟨front, last, hsplit⟩ : ∃ front last, rest = front ++ [last] := by
      rcases List.eq_nil_or_concat' rest with rfl | hsplit
      · exact absurd nofun hlast
      · exact hsplit
    subst hsplit
    have hle := h.pieces.le last (by simp)
    have hlt : last.length < b.chunkFixLen := by
      refine lt_of_le_of_ne hle (fun heq => hlast ?_)
      intro x hx
      rw [List.getLast?_concat] at hx
      obtain rfl := Option.some.inj hx
      exact heq
    obtain ⟨keptFront, keptLast, rfl, hfront, hlastHolds⟩ := forall₂_of_concat hholds
    obtain ⟨n, hn⟩ : ∃ n, n = min data.length (sub32 b.chunkFixLen keptLast.len) := ⟨_, rfl⟩
    have hround : b.fillRound data =
        ({ b with
            chunkBuffer := List.replicate index (gone b.chunkFixLen) ++
              (keptFront ++ [Chunk.write (data.take n) keptLast]) }, n) := by
      have hbuffer : b.chunkBuffer =
          List.replicate index (gone b.chunkFixLen) ++ keptFront ++ [keptLast] := by
        rw [hkept, List.append_assoc]
      have hlastLen : b.lastLen = some keptLast.len := by
        rw [ChunkBuffer.lastLen, hbuffer, List.getLast?_concat, Option.map_some]
      have hnew : ¬(b.lastLen = none ∨ b.lastLen = some b.chunkFixLen) := by
        rw [hlastLen, hlastHolds.len]
        rintro (hnone | hsome)
        · cases hnone
        · have heq := Option.some.inj hsome
          omega
      rw [ChunkBuffer.fillRound, if_neg hnew, hlastLen, Option.getD_some, ← hn, hbuffer,
        List.modifyLast_concat, List.append_assoc]
    rw [hlastHolds.len, sub32_eq hfixLt hle] at hn
    have htake : (data.take n).length = n := by
      rw [List.length_take]
      omega
    rw [hround]
    refine ⟨front ++ [last ++ data.take n], ⟨?_, ⟨keptFront ++ [_], rfl,
      forall₂_concat hfront (hlastHolds.write (by omega) hfixLt)⟩, ?_, ?_⟩, ?_, ?_⟩
    · refine h.pieces.replace ?_ ?_
      · rw [List.length_append]
        omega
      · rw [List.length_append]
        omega
    · have hcount := h.count
      rwa [List.length_append, List.length_singleton] at hcount ⊢
    · have hsmall := h.small
      rwa [List.length_append, List.length_singleton] at hsmall ⊢
    · omega
    · rw [List.flatten_concat, List.flatten_concat, List.append_assoc]

lemma fillRound_same (b : ChunkBuffer) (data : Bytes) :
    (b.fillRound data).1 = { b with
      chunkBuffer := (b.fillRound data).1.chunkBuffer
      countItems := (b.fillRound data).1.countItems } := by
  rw [ChunkBuffer.fillRound]
  by_cases hfull : b.lastLen = none ∨ b.lastLen = some b.chunkFixLen
  · rw [if_pos hfull]
    rfl
  · rw [if_neg hfull]

lemma fill_same (fuel : Nat) (b : ChunkBuffer) (data : Bytes) :
    ChunkBuffer.fill fuel b data = { b with
      chunkBuffer := (ChunkBuffer.fill fuel b data).chunkBuffer
      countItems := (ChunkBuffer.fill fuel b data).countItems } := by
  induction fuel generalizing b data with
  | zero => rfl
  | succ fuel ih =>
    rw [ChunkBuffer.fill]
    by_cases hdata : data = []
    · rw [if_pos hdata]
    · rw [if_neg hdata]
      have hround := fillRound_same b data
      have hnext := ih (b.fillRound data).1 (data.drop (b.fillRound data).2)
      rw [hnext]
      rw [hround]

lemma Chunked.fill (h : Chunked b index rest) (hfix : 0 < b.chunkFixLen)
    (hfixLt : b.chunkFixLen < 2 ^ 32)
    (hroom : index * b.chunkFixLen + rest.flatten.length + data.length ≤
      (2 ^ 32 - 1) * b.chunkFixLen) (fuel : Nat) (hfuel : data.length ≤ fuel) :
    ∃ rest', Chunked (b.fill fuel data) index rest' ∧ rest'.flatten = rest.flatten ++ data := by
  induction fuel generalizing b rest data with
  | zero =>
    obtain rfl := List.length_eq_zero_iff.mp (Nat.le_zero.mp hfuel)
    exact ⟨rest, h, (List.append_nil _).symm⟩
  | succ fuel ih =>
    rw [ChunkBuffer.fill]
    by_cases hdata : data = []
    · rw [if_pos hdata, hdata, List.append_nil]
      exact ⟨rest, h, rfl⟩
    · rw [if_neg hdata]
      obtain ⟨rest₁, h₁, hpos, hadded⟩ := h.fillRound hdata hfix hfixLt hroom
      have hsame : (b.fillRound data).1.chunkFixLen = b.chunkFixLen := by
        rw [fillRound_same]
      have hlen := congrArg List.length hadded
      rw [List.length_append, List.length_take] at hlen
      have hdrop : (data.drop (b.fillRound data).2).length =
        data.length - (b.fillRound data).2 := List.length_drop
      have hroom₁ : index * (b.fillRound data).1.chunkFixLen + rest₁.flatten.length +
          (data.drop (b.fillRound data).2).length ≤
          (2 ^ 32 - 1) * (b.fillRound data).1.chunkFixLen := by
        rw [hsame]
        omega
      obtain ⟨rest₂, h₂, hadded₂⟩ := ih h₁ (by omega) (by omega) hroom₁ (by omega)
      refine ⟨rest₂, h₂, ?_⟩
      rw [hadded₂, hadded, List.append_assoc, List.take_append_drop]

/-! ## Adding -/

/-- The stream of a buffer: neither prefixes nor records of its own, and no error. -/
structure CompressStream.Plain (s : CompressStream) (type : BlockType) (length : Nat) : Prop where
  type_eq : s.typeCompress = type
  prefixes : s.autoPrefixFile = false
  records : s.forceStream = false
  ok : s.errorString = ""
  length_eq : s.blockLength = length

lemma CompressStream.Plain.compress {s : CompressStream} (hs : s.Plain type length)
    (hcodec : codec.GivesBack type length) (hdata : Fits length data) :
    (Compress.compress codec s data).1.Plain type length ∧
      (Compress.compress codec s data).2 = [⟨blockOf codec type data, data.length, false⟩] := by
  have hpos := List.length_pos_iff.mpr hdata.1
  have hle : data.length ≤ s.createCompressBuffer.compressBufferLength := by
    have hlength := hs.length_eq
    rw [CompressStream.blockLength] at hlength
    rw [hlength]
    exact hdata.2
  have htype : s.createCompressBuffer.typeCompress = type := hs.type_eq
  have hprefixes : s.createCompressBuffer.autoPrefixFile = false := hs.prefixes
  have hrecords : s.createCompressBuffer.forceStream = false := hs.records
  have hrun : Compress.compress codec s data =
      ({ s.createCompressBuffer with
          processedLen := add32 s.createCompressBuffer.processedLen data.length },
        [⟨blockOf codec type data, data.length, false⟩]) := by
    obtain ⟨n, hn⟩ : ∃ n, data.length = n + 1 := ⟨data.length - 1, by omega⟩
    rw [Compress.compress, if_neg (not_or.mpr ⟨not_not.mpr hs.ok, hdata.1⟩)]
    nth_rewrite 2 [hn]
    rw [compressLoop, if_neg hdata.1, htype, List.take_of_length_le hle,
      compress_eq_blockOf hcodec hdata, List.drop_eq_nil_of_le hle]
    dsimp only
    rw [compressLoop_nil, hprefixes, hrecords, if_neg (fun h => Bool.noConfusion h.2),
      if_neg Bool.false_ne_true, htype]
    rfl
  rw [hrun]
  refine ⟨⟨hs.type_eq, hs.prefixes, hs.records, hs.ok, ?_⟩, rfl⟩
  have hself := congrArg CompressStream.compressBufferLength s.createCompressBuffer_self
  exact hself.trans hs.length_eq

lemma Chunked.add (h : Chunked b index rest) (hs : b.compressStream.Plain type length)
    (hcodec : codec.GivesBack type length) (hdata : Fits length data) (hfix : 0 < b.chunkFixLen)
    (hfixLt : b.chunkFixLen < 2 ^ 32)
    (hroom : index * b.chunkFixLen + rest.flatten.length +
      (recordOf codec type data ++ blockOf codec type data).length ≤
      (2 ^ 32 - 1) * b.chunkFixLen) :
    ∃ rest', Chunked (b.add codec data) index rest' ∧
      rest'.flatten = rest.flatten ++ (recordOf codec type data ++ blockOf codec type data) ∧
      (b.add codec data).compressStream.Plain type length ∧
      (b.add codec data).chunkFixLen = b.chunkFixLen ∧
      (b.add codec data).chunkIterateProceedLen = b.chunkIterateProceedLen ∧
      (b.add codec data).info = b.info ∧
      (b.add codec data).decompressError = b.decompressError := by
  obtain ⟨hplain, hblocks⟩ := hs.compress hcodec hdata
  obtain ⟨record, hrecord⟩ : ∃ record, record = recordOf codec type data := ⟨_, rfl⟩
  obtain ⟨block, hblock⟩ : ∃ block, block = blockOf codec type data := ⟨_, rfl⟩
  have hne : block ≠ [] := hblock ▸ blockOf_ne_nil hcodec hdata
  rw [List.length_append, ← hrecord, ← hblock] at hroom
  -- the record
  obtain ⟨b₀, hb₀⟩ : ∃ b₀ : ChunkBuffer,
      b₀ = { b with compressStream := (Compress.compress codec b.compressStream data).1 } :=
    ⟨_, rfl⟩
  have h₀ : Chunked b₀ index rest := by
    rw [hb₀]
    exact ⟨h.pieces, h.chunks, h.count, h.small⟩
  have hfix₀ : b₀.chunkFixLen = b.chunkFixLen := by rw [hb₀]
  have hroom₀ : index * b₀.chunkFixLen + rest.flatten.length + record.length ≤
      (2 ^ 32 - 1) * b₀.chunkFixLen := by
    rw [hfix₀]
    omega
  obtain ⟨rest₁, h₁, hadded₁⟩ := h₀.fill (by omega) (by omega) hroom₀ record.length le_rfl
  have hsame₁ := fill_same record.length b₀ record
  -- the block
  have hfix₁ : (b₀.fill record.length record).chunkFixLen = b.chunkFixLen := by
    rw [hsame₁]
    exact hfix₀
  have hroom₁ : index * (b₀.fill record.length record).chunkFixLen + rest₁.flatten.length +
      block.length ≤ (2 ^ 32 - 1) * (b₀.fill record.length record).chunkFixLen := by
    rw [hfix₁, hadded₁, List.length_append]
    omega
  obtain ⟨rest₂, h₂, hadded₂⟩ := h₁.fill (by omega) (by omega) hroom₁ block.length le_rfl
  have hsame₂ := fill_same block.length (b₀.fill record.length record) block
  -- the members that the loops leave alone
  have hother {α : Type} (member : ChunkBuffer → α)
      (hmember : ∀ (b : ChunkBuffer) chunks count,
        member { b with chunkBuffer := chunks, countItems := count } = member b) :
      member ((b₀.fill record.length record).fill block.length block) = member b₀ := by
    rw [hsame₂, hmember, hsame₁, hmember]
  have hadd : b.add codec data = { (b₀.fill record.length record).fill block.length block with
      len := add32 ((b₀.fill record.length record).fill block.length block).len
        (record.length + block.length)
      compressOrigDataLen := add32
        ((b₀.fill record.length record).fill block.length block).compressOrigDataLen
        data.length } := by
    rw [ChunkBuffer.add, if_neg hdata.1]
    dsimp only
    rw [hblocks, List.foldl_cons, List.foldl_nil, ← hb₀, ← hblock, ChunkBuffer.directAdd, if_neg hne, if_pos (by omega : b₀.chunkFixLen ≠ 0)]
    rw [recordOf, ← hblock] at hrecord
    rw [← hrecord]
  rw [hadd]
  refine ⟨rest₂, ⟨h₂.pieces, h₂.chunks, h₂.count, h₂.small⟩, ?_, ?_, ?_, ?_, ?_, ?_⟩
  · rw [hadded₂, hadded₁, hrecord, hblock, List.append_assoc]
  · have hstream : ((b₀.fill record.length record).fill block.length block).compressStream =
        (Compress.compress codec b.compressStream data).1 :=
      (hother ChunkBuffer.compressStream (fun _ _ _ => rfl)).trans (by rw [hb₀])
    rw [hstream]
    exact hplain
  · exact (hother ChunkBuffer.chunkFixLen (fun _ _ _ => rfl)).trans hfix₀
  · exact (hother ChunkBuffer.chunkIterateProceedLen (fun _ _ _ => rfl)).trans (by rw [hb₀])
  · exact (hother ChunkBuffer.info (fun _ _ _ => rfl)).trans (by rw [hb₀])
  · exact (hother ChunkBuffer.decompressError (fun _ _ _ => rfl)).trans (by rw [hb₀])

end VoipMonitor.Compress
