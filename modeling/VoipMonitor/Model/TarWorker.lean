import Mathlib.Data.List.ModifyLast
import Mathlib.Data.Nat.Digits.Defs
import VoipMonitor.Library.Bytes
import VoipMonitor.Library.Runs

/-!
# Buffers of chunks (`ChunkBuffer`, `tools_dynamic_buffer.cpp`)

A buffer without compression keeps what is added in chunks of a fixed length. `chunkIterate` passes
chunks on and frees them.
-/

namespace VoipMonitor.Tar
open VoipMonitor.Library

/-- `sChunk`: the memory of the chunk, none when it is freed, and how much of it is used. -/
structure Chunk where
  chunk : Option Bytes
  len : Nat

/-- The members that a buffer without `compressStream` uses. -/
structure ChunkBuffer where
  chunkFixLen : Nat
  chunkBuffer : List Chunk
  len : Nat
  chunkIterateProceedLen : Nat
  closed : Bool

def ChunkBuffer.new (chunkFixLen : Nat) : ChunkBuffer := ⟨chunkFixLen, [], 0, 0, false⟩

def Chunk.write (offset : Nat) (data : Bytes) (c : Chunk) : Chunk :=
  ⟨c.chunk.map (fun memory => overwrite memory offset data), add32 c.len data.length⟩

/-- One round of the loop of `add`, and how many bytes it copies. -/
def ChunkBuffer.addRound (b : ChunkBuffer) (data : Bytes) : ChunkBuffer × Nat :=
  let chunks := if b.len % b.chunkFixLen = 0 then
      b.chunkBuffer ++ [⟨some (List.replicate b.chunkFixLen 0), 0⟩]
    else b.chunkBuffer
  let whattocopy := min (b.chunkFixLen - b.len % b.chunkFixLen) data.length
  ({ b with
      chunkBuffer :=
        chunks.modifyLast (Chunk.write (b.len % b.chunkFixLen) (data.take whattocopy))
      len := add32 b.len whattocopy },
    whattocopy)

/-- The loop of `add` over the rest of the data. The first argument bounds the rounds. -/
def ChunkBuffer.addLoop : Nat → ChunkBuffer → Bytes → ChunkBuffer
  | 0, b, _ => b
  | fuel + 1, b, data =>
    let r := b.addRound data
    if r.2 < data.length then addLoop fuel r.1 (data.drop r.2) else r.1

def ChunkBuffer.add (b : ChunkBuffer) (data : Bytes) : ChunkBuffer :=
  if data = [] then b else addLoop data.length b data

def ChunkBuffer.close (b : ChunkBuffer) : ChunkBuffer := { b with closed := true }

def ChunkBuffer.getChunkIterateLenForProceed (b : ChunkBuffer) : Nat :=
  sub32 b.len b.chunkIterateProceedLen

/-- The loop of `getChunkIterateSafeLimitLength`. The first two arguments are the number of chunks
and the limit, then come the number of the next chunk and the length so far. -/
def safeLimitLoop (size limitLength : Nat) : Nat → Nat → List Chunk → Nat
  | _, safe, [] => safe
  | counter, safe, c :: chunks =>
    if c.chunk = none then safeLimitLoop size limitLength (counter + 1) safe chunks
    else if limitLength ≤ add32 safe c.len ∨ size - 1 ≤ counter then safe
    else safeLimitLoop size limitLength (counter + 1) (add32 safe c.len) chunks

def ChunkBuffer.getChunkIterateSafeLimitLength (b : ChunkBuffer) (limitLength : Nat) : Nat :=
  if b.closed then sub32 limitLength b.chunkIterateProceedLen
  else safeLimitLoop b.chunkBuffer.length limitLength 1 0 b.chunkBuffer

/-- What the loop of `chunkIterate` leaves: the chunks, the bytes it has passed on and the new
`chunkIterateProceedLen`. -/
structure Iterated where
  chunks : List Chunk
  out : Bytes
  proceedLen : Nat

/-- The loop of `chunkIterate` that frees the chunks. A buffer that is not closed stops at the limit
and at the last but one chunk. -/
def iterateLoop (closed : Bool) (size limitLength start : Nat) :
    Nat → Nat → List Chunk → Iterated
  | _, proceedLen, [] => ⟨[], [], proceedLen⟩
  | counter, proceedLen, c :: chunks =>
    match c.chunk with
    | none =>
      let next := iterateLoop closed size limitLength start (counter + 1) proceedLen chunks
      ⟨c :: next.chunks, next.out, next.proceedLen⟩
    | some memory =>
      let proceedLen := add32 proceedLen c.len
      if closed = false ∧
          ((limitLength ≠ 0 ∧ limitLength ≤ sub32 proceedLen start) ∨ size - 1 ≤ counter) then
        ⟨⟨none, c.len⟩ :: chunks, memory.take c.len, proceedLen⟩
      else
        let next := iterateLoop closed size limitLength start (counter + 1) proceedLen chunks
        ⟨⟨none, c.len⟩ :: next.chunks, memory.take c.len ++ next.out, next.proceedLen⟩

/-- `chunkIterate` with `freeChunks` and `enableContinue`, and the bytes that it passes on. -/
def ChunkBuffer.chunkIterate (b : ChunkBuffer) (limitLength : Nat) : ChunkBuffer × Bytes :=
  let r := iterateLoop b.closed b.chunkBuffer.length limitLength b.chunkIterateProceedLen 1
    b.chunkIterateProceedLen b.chunkBuffer
  ({ b with chunkBuffer := r.chunks, chunkIterateProceedLen := r.proceedLen }, r.out)

/-!
## The parts of a file in a tar (`TarQueue::tarthreadworker`, `tar.cpp`)

One thread adds to a buffer and closes it. The worker looks at the buffer again and again, and
writes what it can as a part: a header with the length, the data and the padding.
-/

/-- The text of `%lo`. -/
def octal (n : Nat) : Bytes :=
  if n = 0 then [48] else (Nat.digits 8 n).reverse.map (fun d => UInt8.ofNat (48 + d))

/-- `int_to_oct_nonull`: the number at the right of the field, with a blank behind it. -/
def intToOctNonull (num : Int) (octlen : Nat) : Bytes :=
  let text := octal (num % 2 ^ 64).toNat
  (List.replicate (octlen - 1 - text.length) 32 ++ text).take (octlen - 1) ++ [32]

/-- `th_set_size`: the length becomes an `int`. -/
def thSetSize (fsize : Nat) : Bytes := intToOctNonull ((fsize : Int).bmod (2 ^ 32)) 12

/-- The number in a field, as `oct_to_int` reads it. -/
def octToInt (oct : Bytes) : Nat :=
  ((oct.dropWhile (fun c => c = 32)).takeWhile (fun c => 48 ≤ c.toNat ∧ c.toNat ≤ 55)).foldl
    (fun n c => 8 * n + (c.toNat - 48)) 0

/-- What `processData` writes: the size in the header, whether the name has a suffix, the data and
the zeros behind it. -/
structure Part where
  size : Bytes
  partSuffix : Bool
  data : Bytes
  padding : Nat

def tarChunk : Nat := 128 * 1024

def padding (pos : Nat) : Nat := if pos % 512 = 0 then 0 else 512 - pos % 512

/-- `processData` in an open tar, and the part that it writes. -/
def processData (b : ChunkBuffer) (isClosed : Bool) (lenForProceedSafe : Nat) :
    ChunkBuffer × Option Part :=
  if lenForProceedSafe ≠ 0 then
    let r := b.chunkIterate lenForProceedSafe
    (r.1, some ⟨thSetSize lenForProceedSafe, !isClosed, r.2, padding r.2.length⟩)
  else (b, none)

/-- Where the worker stands: what it has read since it came to the buffer. -/
inductive Pass where
  | idle
  | seen (isClosed : Bool)
  | length (isClosed : Bool) (lenForProceed : Nat)
  | safe (isClosed : Bool) (lenForProceed lenForProceedSafe : Nat)
  | deleted
deriving DecidableEq, Repr

structure State where
  buffer : ChunkBuffer
  pass : Pass
  parts : List Part
  added : Bytes

def start (chunkFixLen : Nat) : State := ⟨.new chunkFixLen, .idle, [], []⟩

/-- The calls of the two threads. A pass may be left out as long as the buffer is not closed: that
depends on times and on how full the buffer is. -/
inductive Act where
  | add (data : Bytes)
  | close
  | look
  | skip
  | measure
  | limit
  | process

/-- The worker behind `getChunkIterateLenForProceed`. -/
def limitStep (b : ChunkBuffer) (isClosed : Bool) (lenForProceed : Nat) : Pass :=
  if isClosed = true ∨ tarChunk < lenForProceed then
    let lenForProceedSafe :=
      if isClosed then lenForProceed else b.getChunkIterateSafeLimitLength lenForProceed
    if isClosed = true ∨ tarChunk < lenForProceedSafe then
      .safe isClosed lenForProceed lenForProceedSafe
    else .idle
  else .idle

def step (s : State) : Act → Option State
  | .add data =>
    if s.buffer.closed then none
    else some { s with buffer := s.buffer.add data, added := s.added ++ data }
  | .close => if s.buffer.closed then none else some { s with buffer := s.buffer.close }
  | .look =>
    match s.pass with
    | .idle => some { s with pass := .seen s.buffer.closed }
    | _ => none
  | .skip =>
    match s.pass with
    | .seen false => some { s with pass := .idle }
    | _ => none
  | .measure =>
    match s.pass with
    | .seen isClosed =>
      some { s with pass := .length isClosed s.buffer.getChunkIterateLenForProceed }
    | _ => none
  | .limit =>
    match s.pass with
    | .length isClosed lenForProceed =>
      some { s with pass := limitStep s.buffer isClosed lenForProceed }
    | _ => none
  | .process =>
    match s.pass with
    | .safe isClosed lenForProceed lenForProceedSafe =>
      let r := processData s.buffer isClosed lenForProceedSafe
      some { s with
        buffer := r.1
        pass := if isClosed = true ∧ lenForProceed = 0 then .deleted else .idle
        parts := s.parts ++ r.2.toList }
    | _ => none

end VoipMonitor.Tar
