import VoipMonitor.Library.Bytes

/-!
# Packet blocks on the wire: `pcap_block_store` (`pcap_queue_block.h`, `pcap_queue.cpp`)

A block is saved as a 64-byte header, the packet offsets and the block bytes. The receiver
collects the bytes it is given in `restoreBuffer` until a whole save buffer is there. Fields
are stored in the byte order of the host, which is little endian.
-/

namespace VoipMonitor.BlockStore
open VoipMonitor.Library

inductive HeaderMode where
  | plus
  | plus2
deriving DecidableEq, Repr

/-- The settings read by the save and restore functions. -/
structure Config where
  blockMaxSize : Nat := 1024 * 1024
  mirrorUseChecksum : Bool := false
  mirrorRequireConfirmation : Bool := true
  receiveMaximumTimeDiffS : Nat := 30

/-- The members of a block that travel in a save buffer. `ifname` is the text before the
terminating null byte. -/
structure BlockContent where
  hm : HeaderMode := .plus
  size : Nat := 0
  sizeCompress : Nat := 0
  count : Nat := 0
  dlink : Nat := 0
  sensorId : Int := 0
  ifname : Bytes := []
  blockCounter : Nat := 0
  offsets : List Nat := []
  block : Bytes := []
deriving DecidableEq, Repr

structure PcapBlockStore extends BlockContent where
  requireConfirmation : Bool := false
  restoreBuffer : Bytes := []
deriving DecidableEq, Repr

def BlockContent.getUseSize (b : BlockContent) : Nat :=
  if b.sizeCompress ≠ 0 then b.sizeCompress else b.size

/-- A block in memory: the widths of its members and the sizes of its two arrays. -/
structure BlockContent.Valid (b : BlockContent) : Prop where
  dlink_lt : b.dlink < 2 ^ 16
  sensorId_lower : -2 ^ 15 ≤ b.sensorId
  sensorId_upper : b.sensorId < 2 ^ 15
  ifname_length : b.ifname.length ≤ 9
  ifname_text : ∀ c ∈ b.ifname, c ≠ 0
  blockCounter_lt : b.blockCounter < 2 ^ 32
  offsets_length : b.offsets.length = b.count
  offsets_lt : ∀ o ∈ b.offsets, o < 2 ^ 32
  block_length : b.block.length = b.getUseSize

/-- The characters of `pcap_block_store`. -/
def headerString : Bytes :=
  [112, 99, 97, 112, 95, 98, 108, 111, 99, 107, 95, 115, 116, 111, 114, 101]

def headerVersion : Nat := 7
def sizeofHeader : Nat := 64

/-- `pcap_block_store_header`. The members `fill1`, `fill2` and `fill3` are the bytes the
compiler leaves between the others. -/
structure PcapBlockStoreHeader where
  title : Bytes := headerString
  version : Nat := headerVersion
  fill1 : Bytes := [0, 0, 0]
  size : Nat := 0
  sizeCompress : Nat := 0
  count : Nat := 0
  dlink : Nat := 0
  sensorId : Nat := 0
  ifname : Bytes := List.replicate 10 0
  hm : Nat := 0
  fill2 : Bytes := [0]
  checksum : Nat := 0
  counter : Nat := 0
  requireConfirmation : Nat := 0
  fill3 : Bytes := [0, 0, 0]
  timeS : Nat := 0

/-- The members in memory order. -/
def PcapBlockStoreHeader.fields (h : PcapBlockStoreHeader) : List Bytes :=
  [h.title, encodeLe 1 h.version, h.fill1, encodeLe 4 h.size, encodeLe 4 h.sizeCompress,
    encodeLe 4 h.count, encodeLe 2 h.dlink, encodeLe 2 h.sensorId, h.ifname, encodeLe 1 h.hm,
    h.fill2, encodeLe 4 h.checksum, encodeLe 4 h.counter, encodeLe 1 h.requireConfirmation,
    h.fill3, encodeLe 4 h.timeS]

def PcapBlockStoreHeader.bytes (h : PcapBlockStoreHeader) : Bytes := h.fields.flatten

/-- The view of a buffer as a header. -/
def headerOf (b : Bytes) : PcapBlockStoreHeader where
  title := slice b 0 16
  version := leNat (slice b 16 1)
  fill1 := slice b 17 3
  size := leNat (slice b 20 4)
  sizeCompress := leNat (slice b 24 4)
  count := leNat (slice b 28 4)
  dlink := leNat (slice b 32 2)
  sensorId := leNat (slice b 34 2)
  ifname := slice b 36 10
  hm := leNat (slice b 46 1)
  fill2 := slice b 47 1
  checksum := leNat (slice b 48 4)
  counter := leNat (slice b 52 4)
  requireConfirmation := leNat (slice b 56 1)
  fill3 := slice b 57 3
  timeS := leNat (slice b 60 4)

def checksum32buf (b : Bytes) : Nat :=
  b.foldl (fun s c => (s + (if c.toNat < 128 then c.toNat else c.toNat + (2 ^ 16 - 256))) % 2 ^ 16) 0

def BlockContent.body (b : BlockContent) : Bytes :=
  (b.offsets.map (encodeLe 4)).flatten ++ b.block

def encodeHm : HeaderMode → Nat
  | .plus => 0
  | .plus2 => 1

def decodeHm (n : Nat) : HeaderMode := if n = 1 then .plus2 else .plus

/-- What the environment adds to a save buffer: the time and the bytes between the members of
the local header variable. -/
structure SaveEnv where
  timeS : Nat := 0
  fill1 : Bytes := [0, 0, 0]
  fill2 : Bytes := [0]
  fill3 : Bytes := [0, 0, 0]

structure SaveEnv.Valid (e : SaveEnv) : Prop where
  timeS_lt : e.timeS < 2 ^ 32
  fill1_length : e.fill1.length = 3
  fill2_length : e.fill2.length = 1
  fill3_length : e.fill3.length = 3

def saveHeader (cfg : Config) (e : SaveEnv) (b : BlockContent) (blockCounter : Nat) :
    PcapBlockStoreHeader where
  fill1 := e.fill1
  fill2 := e.fill2
  fill3 := e.fill3
  hm := encodeHm b.hm
  size := b.size % 2 ^ 32
  sizeCompress := b.sizeCompress % 2 ^ 32
  count := b.count % 2 ^ 32
  dlink := b.dlink
  sensorId := (b.sensorId % 2 ^ 16).toNat
  counter := blockCounter
  ifname := b.ifname ++ List.replicate (10 - b.ifname.length) 0
  requireConfirmation := if cfg.mirrorRequireConfirmation then 1 else 0
  timeS := e.timeS
  checksum := if cfg.mirrorUseChecksum then max (checksum32buf b.body) 1 else 0

def getSaveBuffer (cfg : Config) (e : SaveEnv) (b : BlockContent) (blockCounter : Nat) : Bytes :=
  (saveHeader cfg e b blockCounter).bytes ++ b.body

def getSizeSaveBuffer (b : BlockContent) : Nat := sizeofHeader + b.count * 4 + b.getUseSize

/-- Conversion of a `size_t` to `int`. -/
def toInt32 (n : Nat) : Int := Int.bmod n (2 ^ 32)

def toSizeT (n : Int) : Nat := (n % 2 ^ 64).toNat

/-- The length of a save buffer as the fields of its header give it, without truncation. -/
def announcedSize (rb : Bytes) : Nat :=
  let h := headerOf rb
  sizeofHeader + h.count * 4 + (if h.sizeCompress ≠ 0 then h.sizeCompress else h.size)

def getSizeSaveBufferFromRestoreBuffer (restoreBuffer : Bytes) : Int :=
  if sizeofHeader ≤ restoreBuffer.length then
    let h := headerOf restoreBuffer
    toInt32 (sizeofHeader + h.count * 4 + (if h.sizeCompress ≠ 0 then h.sizeCompress else h.size))
  else -1

def destroyRestoreBuffer (b : PcapBlockStore) : PcapBlockStore := { b with restoreBuffer := [] }

def restoreFromSaveBuffer (b : PcapBlockStore) (saveBuffer : Bytes) : PcapBlockStore :=
  let h := headerOf saveBuffer
  let useSize := if h.sizeCompress ≠ 0 then h.sizeCompress else h.size
  { b with
    hm := decodeHm h.hm
    size := h.size
    sizeCompress := h.sizeCompress
    count := h.count
    dlink := h.dlink
    sensorId := Int.bmod h.sensorId (2 ^ 16)
    ifname := (h.ifname.take 9).takeWhile (· ≠ 0)
    blockCounter := h.counter
    requireConfirmation := h.requireConfirmation ≠ 0
    offsets := (List.range h.count).map (fun i => leNat (slice saveBuffer (sizeofHeader + i * 4) 4))
    block := slice saveBuffer (sizeofHeader + h.count * 4) useSize }

/-- `timeDiff` of the sender's and the receiver's clock, without whole half hours. -/
def timeDiff (timeS now : Nat) : Nat := ((timeS : Int) - now).natAbs % (3600 / 2)

structure ChunkResult where
  ret : Int
  store : PcapBlockStore
  offset : Option Nat
deriving DecidableEq, Repr

/-- The end of `addRestoreChunk`: the restore buffer `rb`, whose last `partLength` bytes are
new, is restored when it holds a whole save buffer. -/
def tryRestore (b : PcapBlockStore) (rb : Bytes) (partLength bufferLength : Nat)
    (offset : Option Nat) : ChunkResult :=
  let b := { b with restoreBuffer := rb }
  let sizeRestoreBuffer := getSizeSaveBufferFromRestoreBuffer rb
  if rb.length - partLength > toSizeT sizeRestoreBuffer then ⟨-4, b, offset⟩
  else if sizeRestoreBuffer < 0 ∨ rb.length < toSizeT sizeRestoreBuffer then ⟨0, b, offset⟩
  else
    let n := sizeRestoreBuffer.toNat
    let offset := offset.map (fun _ => bufferLength - (rb.length - n))
    let h := headerOf rb
    if h.checksum ≠ 0 ∧
        h.checksum ≠ max (checksum32buf
          (slice rb sizeofHeader (toSizeT (sizeRestoreBuffer - sizeofHeader)))) 1 then
      ⟨-5, b, offset⟩
    else ⟨1, destroyRestoreBuffer (restoreFromSaveBuffer b rb), offset⟩

/-- `addRestoreChunk` at time `now`: the bytes of `buffer` from `offset` on are appended to the
restore buffer, which is then checked and, when it holds a whole save buffer, restored. -/
def addRestoreChunk (cfg : Config) (now : Nat) (restoreFromStore : Bool) (b : PcapBlockStore)
    (buffer : Bytes) (offset : Option Nat) : ChunkResult :=
  let part := buffer.drop (offset.getD 0)
  if part.length = 0 then ⟨-1, b, offset⟩
  else
    let rb := b.restoreBuffer ++ part
    let b := { b with restoreBuffer := rb }
    let hasHeader := sizeofHeader ≤ rb.length
    if rb.length > cfg.blockMaxSize * 10 then ⟨-2, b, offset⟩
    else if hasHeader ∧ (headerOf rb).title ≠ headerString then ⟨-3, b, offset⟩
    else if hasHeader ∧ (headerOf rb).version ≠ headerVersion then ⟨-6, b, offset⟩
    else if restoreFromStore = false ∧ hasHeader ∧ (headerOf rb).timeS ≠ 0 then
      if timeDiff (headerOf rb).timeS now > cfg.receiveMaximumTimeDiffS then ⟨-7, b, offset⟩
      -- an accepted time is cleared in place, so that it is checked once only
      else tryRestore b (overwrite rb 60 (encodeLe 4 0)) part.length buffer.length offset
    else tryRestore b rb part.length buffer.length offset

end VoipMonitor.BlockStore
