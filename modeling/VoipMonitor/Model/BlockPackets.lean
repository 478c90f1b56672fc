import VoipMonitor.Model.MirrorReceiver

/-!
# The packets of a block (`pcap_block_store` in `pcap_queue_block.h`, `sBlockInfo` in `pcap_queue.h`)

A block keeps its packets in one array with their offsets, or as a list of buffers of DPDK. The
header of a packet is read in place: its length and whether it is to be ignored.
-/

namespace VoipMonitor.BlockStore
open VoipMonitor.Library

/-- `sizeof(pcap_pkthdr_plus)` and `PACKETBUFFER_ALIGN_PCAP_PKTHDR_PLUS2_SIZE`; the packets are
not aligned. -/
def pkthdrSize : HeaderMode → Nat
  | .plus => 36
  | .plus2 => 58

/-- `header_fix_size.caplen` of the header at offset `o`. -/
def fixSizeCaplen (mem : Bytes) (o : Nat) : Nat := leNat (slice mem (o + 8) 4)

def headerIpOffset (mem : Bytes) (o : Nat) : Nat := leNat (slice mem (o + 26) 2)

/-- `get_caplen`: the member depends on the flag `std` of the header. -/
def getCaplen (mem : Bytes) (o : Nat) : Nat :=
  if leNat (slice mem (o + 28) 2) ≠ 0 then leNat (slice mem (o + 16) 4) else fixSizeCaplen mem o

/-- The loop of `check_offsets` from index `i` on. It has no result when it reads an element that
is not in the array. -/
def checkOffsetsLoop (offsets : List Nat) (size n i : Nat) : Option Bool :=
  if i < n then
    match offsets[i]?, offsets[i + 1]? with
    | some a, some b => if a ≥ b then some false else checkOffsetsLoop offsets size n (i + 1)
    | _, _ => none
  else offsets[n]?.map (fun o => decide (o < size))
termination_by n - i

/-- `offsets_size - 1` as a `size_t`. -/
def lastOffset (offsets : List Nat) : Nat :=
  if offsets.length = 0 then 2 ^ 64 - 1 else offsets.length - 1

def checkOffsetsReads (b : BlockContent) : Option Bool :=
  checkOffsetsLoop b.offsets b.size (lastOffset b.offsets) 0

/-- `s_dpdk_data`: `ignore` is the member of the header, `mbuf` stands for the buffer. -/
structure DpdkData where
  ignore : Nat := 0
  mbuf : Nat := 0
deriving DecidableEq, Repr, Inhabited

/-- The two layouts of a block. -/
inductive Packets where
  | memory (b : BlockContent)
  | dpdk (data : List DpdkData)
deriving DecidableEq, Repr

namespace Packets

def count : Packets → Nat
  | memory b => b.offsets.length
  | dpdk data => data.length

/-- The flag of the header at an offset; a `pcap_pkthdr_plus` has none. -/
def memoryIgnore (b : BlockContent) (i : Nat) : Bool :=
  b.hm = .plus2 && byteAt b.block (b.offsets.getD i 0 + 56) ≠ 0

def isIgnore : Packets → Nat → Bool
  | memory b, i => memoryIgnore b i
  -- the index that was asked for is not used
  | dpdk data, _ => (data.getD (data.length - 1) default).ignore ≠ 0

def ownIgnore : Packets → Nat → Bool
  | memory b, i => memoryIgnore b i
  | dpdk data, i => (data.getD i default).ignore ≠ 0

end Packets

def skipFirst (ignore : Nat → Bool) (count : Nat) : Nat → Nat → Nat
  | 0, pos => pos
  | fuel + 1, pos => if pos < count ∧ ignore pos then skipFirst ignore count fuel (pos + 1) else pos

def skipLast (ignore : Nat → Bool) (posFirst : Nat) : Nat → Nat
  | 0 => 0
  | pos + 1 => if posFirst < pos + 1 ∧ ignore (pos + 1) then skipLast ignore posFirst pos else pos + 1

def setFirstLast (ignore : Nat → Bool) (count : Nat) : Option (Nat × Nat) :=
  let posFirst := skipFirst ignore count count 0
  if posFirst = count then none
  else some (posFirst, skipLast ignore posFirst (count - 1))

/-- `inc_pos_act`: the next `pos_act`, or none when it returns false. -/
def incPosAct (ignore : Nat → Bool) (posLast : Nat) : Nat → Nat → Option Nat
  | 0, _ => none
  | fuel + 1, pos =>
    if pos < posLast then
      if ignore (pos + 1) then incPosAct ignore posLast fuel (pos + 1) else some (pos + 1)
    else none

/-- The positions that are handed out from `pos` on. -/
def handOut (ignore : Nat → Bool) (posLast : Nat) : Nat → Nat → List Nat
  | 0, _ => []
  | fuel + 1, pos =>
    pos :: match incPosAct ignore posLast (posLast - pos) pos with
      | some next => handOut ignore posLast fuel next
      | none => []

def dequeuePositions (p : Packets) : List Nat :=
  match setFirstLast p.isIgnore p.count with
  | none => []
  | some (posFirst, posLast) => handOut p.isIgnore posLast p.count posFirst

/-- The packets that the plain loop of `writeThreadFunction` processes. -/
def plainPositions (p : Packets) : List Nat :=
  (List.range p.count).flatMap (fun i => if p.isIgnore i then [] else [i])

/-!
## Blocks from a client (`PcapQueue_readFromFifo::addBlockStoreToPcapStoreQueue`, `pcap_queue.cpp`)

The server receives a save buffer as one message. It is restored in one call, checked, and pushed
to `pcapStoreQueue`.
-/

/-- What a new `pcap_block_store` holds: two settings, and a `block_counter` that the constructor
leaves as it finds it. `behind` is what lies in memory behind the restored block. -/
structure NewBlockEnv where
  globalPcapDlink : Nat := 0
  optIdSensor : Int := 0
  blockCounter : Nat := 0
  behind : Bytes := []

def newBlockStore (e : NewBlockEnv) : PcapBlockStore :=
  { dlink := e.globalPcapDlink, sensorId := e.optIdSensor, blockCounter := e.blockCounter }

structure ServerQueue where
  blockCounter : Nat := 0
  pcapStoreQueue : List BlockContent := []
deriving DecidableEq, Repr

/-- The result and what is written through the pointers; `requireConfirmation` is none when it is
left as it was. -/
structure AddBlockResult where
  ok : Bool
  error : String := ""
  warning : String := ""
  requireConfirmation : Option Bool := none
  queue : ServerQueue
deriving DecidableEq, Repr

/-- The text of a negative result on the server. -/
def serverRestoreError (now : Nat) (b : PcapBlockStore) (errorCode : Int) : String :=
  if errorCode = -7 then
    let h := headerOf b.restoreBuffer
    let sensorId := Int.bmod h.sensorId (2 ^ 16)
    "Time difference between server and client (id_sensor:" ++
      (if sensorId > 0 then toString sensorId else "local") ++ ") is too big (" ++
      toString (timeDiff h.timeS now) ++ "s) - data cannot be received. Please synchronise " ++
      "time on both server and client. Or increase configuration parameter " ++
      "receive_packetbuffer_maximum_time_diff_s on server."
  else errorString errorCode

/-- What `addRestoreChunk` reads for its checksum, with a number of bytes that may wrap, and what it
restores is in the buffer. -/
def readsInside (buffer : Bytes) (ret : Int) : Bool :=
  let checksumInside := (headerOf buffer).checksum = 0 ||
    (sizeofHeader : Int) ≤ getSizeSaveBufferFromRestoreBuffer buffer
  (ret ≠ -5 || checksumInside) &&
    (ret ≠ 1 || (checksumInside && announcedSize buffer ≤ buffer.length))

/-- The text of `*error` when the block has been restored or not; none when `check_offsets` reads
outside of its array. -/
def addBlockError (now : Nat) (behind : Bytes) (r : ChunkResult) : Option String :=
  if r.ret > 0 then
    match checkOffsetsReads r.store.toBlockContent with
    | none => none
    | some false => some "bad offsets"
    | some true =>
      match if r.store.sizeCompress = 0 then
        checkHeaders { r.store.toBlockContent with block := r.store.block ++ behind } else none with
      | some error => some ("bad headers" ++ " - " ++ error)
      | none => some ""
  else if r.ret < 0 then some (serverRestoreError now r.store r.ret)
  else some ""

/-- `addBlockStoreToPcapStoreQueue`; none when it reads memory that it may not read. The loop around
`push` ends with the block in the queue. -/
def addBlockStoreToPcapStoreQueue (cfg : Config) (now : Nat) (e : NewBlockEnv) (q : ServerQueue)
    (buffer : Bytes) : Option AddBlockResult :=
  let r := addRestoreChunk cfg now false (newBlockStore e) buffer none
  let requireConfirmation :=
    if sizeofHeader ≤ buffer.length then some (decide ((headerOf buffer).requireConfirmation ≠ 0))
    else none
  if readsInside buffer r.ret = false then none
  else
    match addBlockError now e.behind r with
    | none => none
    | some error =>
      if error = "" then
        if q.blockCounter = r.store.blockCounter then
          some { ok := true, requireConfirmation, queue := q }
        else
          some
            { ok := true
              warning := if q.blockCounter ≠ 0 ∧ (q.blockCounter + 1) % 2 ^ 32 ≠ r.store.blockCounter
                then "loss packetbuffer block" else ""
              requireConfirmation
              queue :=
                { blockCounter := r.store.blockCounter
                  pcapStoreQueue := q.pcapStoreQueue ++ [r.store.toBlockContent] } }
      else some { ok := false, error, requireConfirmation, queue := q }

end VoipMonitor.BlockStore
