import Mathlib.Data.List.ModifyLast
import VoipMonitor.Model.CompressStream

/-!
# Buffers of compressed chunks (`ChunkBuffer` with `compressStream`, `tools_dynamic_buffer.cpp`)

`add` compresses the data into a block. A buffer with a fixed length of the chunks puts a record
with the sizes in front of the block and lays both over the chunks, one byte after another.
`chunkIterate` reads records and blocks back, decompresses the blocks and frees the chunks.
-/

namespace VoipMonitor.Compress
open VoipMonitor.Library

/-- `sChunkLen`. -/
structure ChunkLen where
  len : Nat
  decompressLen : Nat
deriving DecidableEq, Repr

def ChunkLen.bytes (r : ChunkLen) : Bytes := encodeLe 4 r.len ++ encodeLe 4 r.decompressLen

def ChunkLen.read (b : Bytes) : ChunkLen := ⟨leNat (slice b 0 4), leNat (slice b 4 4)⟩

/-- `sChunk`. The memory is gone when the chunk is freed. -/
structure Chunk extends ChunkLen where
  chunk : Option Bytes

/-- The `decompress_len` of a chunk that is filled with records and blocks. -/
def filled : Nat := 2 ^ 32 - 1

/-- `sChunkIterateCompleteBufferInfo`: where `chunkIterate` stands. -/
structure IterateInfo where
  buffer : Bytes
  bufferLen : Nat
  bufferPos : Nat
  counter : Nat
  chunkLen : ChunkLen
  allPos : Nat
  chunkPos : Nat
  chunkIndex : Nat

def IterateInfo.init : IterateInfo := ⟨[], 0, 0, 0, ⟨0, 0⟩, 0, 0, 0⟩

def IterateInfo.addPos (i : IterateInfo) (add : Nat) : IterateInfo :=
  { i with
    allPos := add32 i.allPos add
    chunkPos := add32 i.chunkPos add }

/-- The members that a buffer with `compressStream` uses. -/
structure ChunkBuffer where
  chunkFixLen : Nat
  chunkBuffer : List Chunk
  countItems : Nat
  len : Nat
  compressOrigDataLen : Nat
  compressStream : CompressStream
  chunkIterateProceedLen : Nat
  info : IterateInfo
  decompressError : Bool

/-- The constructor and `setTypeCompress`. -/
def ChunkBuffer.new (chunkFixLen : Nat) (type : BlockType)
    (compressBufferLength maxDataLength : Nat) : ChunkBuffer :=
  ⟨chunkFixLen, [], 0, 0, 0, ⟨type, compressBufferLength, maxDataLength, false, false, 0, ""⟩, 0,
    .init, false⟩

def Chunk.write (data : Bytes) (c : Chunk) : Chunk :=
  { c with
    chunk := c.chunk.map (fun memory => overwrite memory c.len data)
    len := add32 c.len data.length }

def ChunkBuffer.push (b : ChunkBuffer) (c : Chunk) : ChunkBuffer :=
  { b with
    chunkBuffer := b.chunkBuffer ++ [c]
    countItems := add32 b.countItems 1 }

def ChunkBuffer.lastLen (b : ChunkBuffer) : Option Nat :=
  b.chunkBuffer.getLast?.map (fun c => c.len)

/-- One round of the loop of `add_fill_chunks`, and how many bytes it copies. -/
def ChunkBuffer.fillRound (b : ChunkBuffer) (data : Bytes) : ChunkBuffer × Nat :=
  let b := if b.lastLen = none ∨ b.lastLen = some b.chunkFixLen then
      b.push ⟨⟨0, filled⟩, some (List.replicate b.chunkFixLen 0)⟩
    else b
  let copied := min data.length (sub32 b.chunkFixLen (b.lastLen.getD 0))
  ({ b with chunkBuffer := b.chunkBuffer.modifyLast (Chunk.write (data.take copied)) }, copied)

/-- The loop of `add_fill_chunks` over a record or a block. The first argument bounds the
rounds. -/
def ChunkBuffer.fill : Nat → ChunkBuffer → Bytes → ChunkBuffer
  | 0, b, _ => b
  | fuel + 1, b, data =>
    if data = [] then b
    else
      let r := b.fillRound data
      fill fuel r.1 (data.drop r.2)

def ChunkBuffer.directAdd (b : ChunkBuffer) (data : Bytes) (decompressLen : Nat) : ChunkBuffer :=
  if data = [] then b
  else if b.chunkFixLen ≠ 0 then
    let record := ChunkLen.bytes ⟨data.length, decompressLen⟩
    let b := (b.fill record.length record).fill data.length data
    { b with len := add32 b.len (record.length + data.length) }
  else
    let b := b.push ⟨⟨data.length, decompressLen⟩, some data⟩
    { b with len := add32 b.len data.length }

/-- `add`; `compress_ev` adds the block directly. -/
def ChunkBuffer.add (codec : Codec) (b : ChunkBuffer) (data : Bytes) : ChunkBuffer :=
  if data = [] then b
  else
    let r := compress codec b.compressStream data
    let b := r.2.foldl (fun b ev => b.directAdd ev.data ev.decompressLen)
      { b with compressStream := r.1 }
    { b with compressOrigDataLen := add32 b.compressOrigDataLen data.length }

def CompressStream.decompress (codec : Codec) (s : CompressStream) (data : Bytes)
    (decompressLen : Nat) : CompressStream × Bytes :=
  let r := Compress.decompress codec
    ⟨.block s.typeCompress, s.autoPrefixFile, s.forceStream, [], [], s.errorString⟩ data decompressLen
  ({ s with errorString := r.1.errorString }, r.2)

/-- What a call of `chunkIterate` works on: the members that it changes, the data passed on,
`_break`, and whether the call has ended with an error. -/
structure Iterate where
  info : IterateInfo
  proceedLen : Nat
  stream : CompressStream
  out : Bytes
  stop : Bool
  error : Bool

/-- A block or a record is complete. Blocks are decompressed, records are taken over. -/
def Iterate.complete (codec : Codec) (it : Iterate) (data : Bytes) : Iterate :=
  if it.info.counter % 2 = 1 then
    let r := it.stream.decompress codec data it.info.chunkLen.decompressLen
    let it := { it with
      stream := r.1
      out := it.out ++ r.2 }
    if r.1.errorString ≠ "" then { it with error := true }
    else
      { it with
        proceedLen := add32 it.proceedLen it.info.chunkLen.decompressLen
        info := { it.info with
          bufferLen := 8
          counter := add32 it.info.counter 1
          bufferPos := 0 } }
  else
    { it with
      info := { it.info with
        chunkLen := .read data
        bufferLen := (ChunkLen.read data).len
        counter := add32 it.info.counter 1
        bufferPos := 0 } }

/-- The `memcpy` into the buffer, behind what is there. -/
def IterateInfo.copy (i : IterateInfo) (data : Bytes) : IterateInfo :=
  { i with
    buffer := overwrite i.buffer i.bufferPos data
    bufferPos := add32 i.bufferPos data.length }.addPos data.length

/-- The record in front of everything, at the begin of its chunk. -/
def IterateInfo.first (i : IterateInfo) (memory : Bytes) : IterateInfo :=
  { i with
    chunkLen := .read memory
    counter := add32 i.counter 1
    bufferLen := (ChunkLen.read memory).len
    bufferPos := 0 }.addPos 8

/-- The body of the loop over a chunk without the first record and the limit. -/
def Iterate.collect (codec : Codec) (memory : Bytes) (len : Nat) (it : Iterate) : Iterate :=
  let left := sub32 len it.info.chunkPos
  if it.info.bufferPos = 0 then
    if it.info.bufferLen ≤ left then
      let size := if it.info.counter % 2 = 1 then it.info.chunkLen.len else 8
      let r := it.complete codec (slice memory it.info.chunkPos size)
      if r.error then r else { r with info := r.info.addPos size }
    else
      { it with
        info := { it.info with buffer := List.replicate it.info.bufferLen 0 }.copy
          (slice memory it.info.chunkPos left) }
  else
    let copied := min left (sub32 it.info.bufferLen it.info.bufferPos)
    let it := { it with info := it.info.copy (slice memory it.info.chunkPos copied) }
    if it.info.bufferPos = it.info.bufferLen then
      it.complete codec (it.info.buffer.take
        (if it.info.counter % 2 = 1 then it.info.chunkLen.len else 8))
    else it

/-- One round of the loop over a chunk. -/
def Iterate.turn (codec : Codec) (limitLength start : Nat) (memory : Bytes) (len : Nat)
    (it : Iterate) : Iterate :=
  let it := if it.info.counter = 0 then { it with info := it.info.first memory } else it
  let it := it.collect codec memory len
  if it.error then it
  else if it.info.counter % 2 = 0 ∧ limitLength ≠ 0 ∧ limitLength ≤ sub32 it.proceedLen start then
    { it with stop := true }
  else it

/-- The loop over a chunk. The first argument bounds the rounds: at most every second one takes
no byte. -/
def Iterate.loop (codec : Codec) (limitLength start : Nat) (memory : Bytes) (len : Nat) :
    Nat → Iterate → Iterate
  | 0, it => it
  | fuel + 1, it =>
    if it.info.chunkPos < len ∧ it.stop = false ∧ it.error = false then
      loop codec limitLength start memory len fuel (it.turn codec limitLength start memory len)
    else it

/-- A full chunk is read to its end. -/
def Iterate.nextChunk (it : Iterate) : Iterate :=
  { it with
    info := { it.info with
      chunkIndex := add32 it.info.chunkIndex 1
      chunkPos := 0 } }

/-- A chunk that was not filled with records: it holds one block. -/
def Iterate.whole (codec : Codec) (limitLength start : Nat) (memory : Bytes) (c : Chunk)
    (it : Iterate) : Iterate :=
  let r := it.stream.decompress codec (memory.take c.len) c.decompressLen
  let it := { it with
    stream := r.1
    out := it.out ++ r.2 }
  if r.1.errorString ≠ "" then { it with error := true }
  else
    let proceedLen := add32 it.proceedLen
      (if c.decompressLen ≠ 0 then c.decompressLen else r.2.length)
    { it with
      proceedLen := proceedLen
      stop := decide (limitLength ≠ 0 ∧ limitLength ≤ sub32 proceedLen start) }

/-- The loop over the chunks with `freeChunks`; `counter` chunks are behind. -/
def Iterate.chunks (codec : Codec) (chunkFixLen limitLength start : Nat) :
    Nat → List Chunk → Iterate → List Chunk × Iterate
  | _, [], it => ([], it)
  | counter, c :: rest, it =>
    if it.stop ∨ it.error then (c :: rest, it)
    else
      match c.chunk with
      | none =>
        let r := chunks codec chunkFixLen limitLength start (counter + 1) rest it
        (c :: r.1, r.2)
      | some memory =>
        if counter + 1 ≤ it.info.chunkIndex then
          let r := chunks codec chunkFixLen limitLength start (counter + 1) rest it
          (c :: r.1, r.2)
        else if c.decompressLen = filled then
          let it := it.loop codec limitLength start memory c.len (2 * c.len + 2)
          if it.error = false ∧ c.len ≤ it.info.chunkPos ∧ c.len = chunkFixLen then
            let r := chunks codec chunkFixLen limitLength start (counter + 1) rest it.nextChunk
            ({ c with chunk := none } :: r.1, r.2)
          else
            let r := chunks codec chunkFixLen limitLength start (counter + 1) rest it
            (c :: r.1, r.2)
        else
          let it := it.whole codec limitLength start memory c
          if it.error then (c :: rest, it)
          else
            let r := chunks codec chunkFixLen limitLength start (counter + 1) rest it
            ({ c with chunk := none } :: r.1, r.2)

/-- `chunkIterate` with `freeChunks` and `enableContinue`, and the data that it passes on. -/
def ChunkBuffer.chunkIterate (codec : Codec) (b : ChunkBuffer) (limitLength : Nat) :
    ChunkBuffer × Bytes :=
  let r := Iterate.chunks codec b.chunkFixLen limitLength b.chunkIterateProceedLen 0
    (b.chunkBuffer.take b.countItems)
    ⟨b.info, b.chunkIterateProceedLen, b.compressStream, [], false, false⟩
  ({ b with
      chunkBuffer := r.1 ++ b.chunkBuffer.drop b.countItems
      compressStream := r.2.stream
      chunkIterateProceedLen := r.2.proceedLen
      info := r.2.info
      decompressError := b.decompressError || r.2.error },
    r.2.out)

end VoipMonitor.Compress
