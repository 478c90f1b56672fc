import VoipMonitor.Library.IndexList
import VoipMonitor.Library.MinHeap

/-!
# Time-ordered dequeue (`sBlocksInfo` in `pcap_queue.h`, method 3 of `writeThreadFunction`)

Blocks of packets wait in a table of `blockInfoMax` places. The used and the free places are two
linked lists through `next_block`, and a heap of used places finds the block whose current packet
is the oldest one. The loop hands that packet out and moves the block on, or frees its place when
it was the last packet.
-/

namespace VoipMonitor.Dequeue
open VoipMonitor.Library

/-- What the loop reads of a packet's header. -/
structure PacketInfo where
  utime : Nat
  ignore : Bool := false
deriving DecidableEq, Repr, Inhabited

/-- A block; `id` stands for its address. -/
structure PcapBlockStore where
  id : Nat := 0
  packets : List PacketInfo := []
deriving DecidableEq, Repr

namespace PcapBlockStore

def count (b : PcapBlockStore) : Nat := b.packets.length

def packet (b : PcapBlockStore) (i : Nat) : PacketInfo := b.packets.getD i default

def isIgnore (b : PcapBlockStore) (i : Nat) : Bool := (b.packet i).ignore

end PcapBlockStore

structure BlockInfo where
  blockStore : PcapBlockStore := {}
  posFirst : Nat := 0
  posLast : Nat := 0
  posAct : Nat := 0
  utimeFirst : Nat := 0
  utimeLast : Nat := 0
  atTime : Nat := 0

def skipLast (b : PcapBlockStore) (posFirst : Nat) : Nat → Nat
  | 0 => 0
  | pos + 1 => if posFirst < pos + 1 ∧ b.isIgnore (pos + 1) then skipLast b posFirst pos else pos + 1

def setFirstLast (i : BlockInfo) : Option BlockInfo :=
  let posFirst := i.blockStore.packets.findIdx (fun p => !p.ignore)
  if posFirst = i.blockStore.count then none
  else
    some { i with
      posFirst := posFirst
      posLast := skipLast i.blockStore posFirst (i.blockStore.count - 1)
      posAct := posFirst }

def setTimeFirstLast (i : BlockInfo) : BlockInfo :=
  { i with
    utimeFirst := (i.blockStore.packet i.posFirst).utime
    utimeLast := (i.blockStore.packet i.posLast).utime }

def updateTimeFirst (i : BlockInfo) : BlockInfo :=
  { i with utimeFirst := (i.blockStore.packet i.posAct).utime }

/-- The loop of `inc_pos_act`: the next position, and whether a packet is there. -/
def nextPos (b : PcapBlockStore) (posLast : Nat) : Nat → Nat → Nat × Bool
  | 0, pos => (pos, false)
  | fuel + 1, pos =>
    if pos < posLast then
      if b.isIgnore (pos + 1) then nextPos b posLast fuel (pos + 1) else (pos + 1, true)
    else (pos, false)

def incPosAct (i : BlockInfo) : BlockInfo × Bool :=
  let r := nextPos i.blockStore i.posLast (i.posLast - i.posAct) i.posAct
  ({ i with posAct := r.1 }, r.2)

/-- `sBlocksInfo`. The member `next_block` of the places is the function `nextBlock`. -/
structure BlocksInfo where
  blockInfoMax : Nat
  blocks : Nat → BlockInfo := fun _ => {}
  nextBlock : Nat → Option Nat
  minHeap : MinHeap Nat := { data := fun _ => 0, capacity := blockInfoMax }
  freeHead : Option Nat := some 0
  usedHead : Option Nat := none
  usedCount : Int := 0
  utimeFirst : Nat := 0
  utimeLast : Nat := 0
  atFirst : Nat := 0
  atLast : Nat := 0

namespace BlocksInfo

def init (blockInfoMax : Nat) : BlocksInfo where
  blockInfoMax := blockInfoMax
  nextBlock := fun i => if i + 1 < blockInfoMax then some (i + 1) else none

def key (s : BlocksInfo) (i : Nat) : Nat := (s.blocks i).utimeFirst

def newBlock (s : BlocksInfo) : Option (Nat × BlocksInfo) :=
  match s.freeHead with
  | none => none
  | some i =>
    some (i, { s with
      freeHead := s.nextBlock i
      nextBlock := Function.update s.nextBlock i s.usedHead
      usedHead := some i
      usedCount := s.usedCount + 1 })

def freeBlock (s : BlocksInfo) (index : Nat) : BlocksInfo :=
  if s.blockInfoMax ≤ index then s
  else
    let r := unlink index s.blockInfoMax s.usedHead s.nextBlock none
    { s with
      usedHead := r.1
      nextBlock := Function.update r.2 index s.freeHead
      freeHead := some index
      usedCount := s.usedCount - 1 }

def set (s : BlocksInfo) (index : Nat) (data : BlockInfo) : BlocksInfo :=
  { s with blocks := Function.update s.blocks index data }

def isFull (s : BlocksInfo) : Bool := s.freeHead.isNone

def getUsed (s : BlocksInfo) : List Nat := walk s.nextBlock s.blockInfoMax s.usedHead

def cleanTimes (s : BlocksInfo) : BlocksInfo :=
  { s with utimeFirst := 0, utimeLast := 0, atFirst := 0, atLast := 0 }

def updateTimesOf (s : BlocksInfo) (index : Nat) : BlocksInfo :=
  let b := s.blocks index
  { s with
    utimeFirst := if s.utimeFirst = 0 ∨ b.utimeFirst < s.utimeFirst then b.utimeFirst
      else s.utimeFirst
    utimeLast := if s.utimeLast = 0 ∨ b.utimeLast > s.utimeLast then b.utimeLast else s.utimeLast
    atFirst := if s.atFirst = 0 ∨ b.atTime < s.atFirst then b.atTime else s.atFirst
    atLast := if s.atLast = 0 ∨ b.atTime > s.atLast then b.atTime else s.atLast }

def updateTimes (s : BlocksInfo) : BlocksInfo := s.getUsed.foldl updateTimesOf s.cleanTimes

/-! The write thread uses the table in three ways. -/

/-- `new_block`, `set`, `update_times` of the new place, and `insert`; not when the table is full. -/
def push (s : BlocksInfo) (data : BlockInfo) : Option BlocksInfo :=
  match s.newBlock with
  | none => none
  | some (i, s) =>
    let s := (s.set i data).updateTimesOf i
    some { s with minHeap := s.minHeap.insert s.key i }

/-- The minimum moves on: `inc_pos_act`, `update_time_first` and `doHeapify`. -/
def updateMin (s : BlocksInfo) (posAct utimeFirst : Nat) : Option BlocksInfo :=
  match s.minHeap.getMin with
  | none => none
  | some i =>
    let s := s.set i { s.blocks i with posAct := posAct, utimeFirst := utimeFirst }
    some { s with minHeap := s.minHeap.doHeapify s.key }

/-- `free_block` of the minimum, `extractMin` and `update_times`. -/
def popMin (s : BlocksInfo) : Option BlocksInfo :=
  match s.minHeap.getMin with
  | none => none
  | some i =>
    let s := s.freeBlock i
    some ({ s with minHeap := s.minHeap.extractMin s.key } : BlocksInfo).updateTimes

inductive Op where
  | push (data : BlockInfo)
  | updateMin (posAct utimeFirst : Nat)
  | popMin

def step (s : BlocksInfo) : Op → Option BlocksInfo
  | .push data => s.push data
  | .updateMin posAct utimeFirst => s.updateMin posAct utimeFirst
  | .popMin => s.popMin

end BlocksInfo

/-- A packet given to `processPacket`: the block and the position. `heads` records the times of
the current packets of the other blocks held at that moment. -/
structure Out where
  block : Nat
  pos : Nat
  utime : Nat
  heads : List Nat

/-- The variables of the loop; `arrived`, `outs` and `trash` record the blocks popped from the
queue, the packets handed out and the blocks given to `blockStoreTrashPush`. -/
structure State where
  blocksInfo : BlocksInfo
  arrived : List PcapBlockStore := []
  outs : List Out := []
  trash : List Nat := []

def init (blockInfoMax : Nat) : State := { blocksInfo := BlocksInfo.init blockInfoMax }

/-- `if(blockStore)`: a block comes in at time `now`. Without a free place the source writes
outside of the table; here the block is dropped. -/
def arrive (s : State) (now : Nat) (packets : List PacketInfo) : State :=
  let blockStore : PcapBlockStore := ⟨s.arrived.length, packets⟩
  let s := { s with arrived := s.arrived ++ [blockStore] }
  match setFirstLast { blockStore := blockStore } with
  | none => { s with trash := s.trash ++ [blockStore.id] }
  | some info =>
    match s.blocksInfo.newBlock with
    | none => s
    | some (i, blocksInfo) =>
      let blocksInfo := blocksInfo.set i { setTimeFirstLast info with atTime := now }
      let blocksInfo := blocksInfo.updateTimesOf i
      { s with blocksInfo :=
        { blocksInfo with minHeap := blocksInfo.minHeap.insert blocksInfo.key i } }

/-- One round of the inner loop, after the test of its condition. -/
def handOut (s : State) : Option State :=
  match s.blocksInfo.minHeap.getMin with
  | none => none
  | some i =>
    let info := s.blocksInfo.blocks i
    let headTime := fun j =>
      ((s.blocksInfo.blocks j).blockStore.packet (s.blocksInfo.blocks j).posAct).utime
    let out : Out :=
      { block := info.blockStore.id
        pos := info.posAct
        utime := (info.blockStore.packet info.posAct).utime
        heads := (s.blocksInfo.getUsed.filter (fun j => j ≠ i)).map headTime }
    let s := { s with outs := s.outs ++ [out] }
    let r := incPosAct info
    if r.2 = false then
      let blocksInfo := (s.blocksInfo.set i r.1).freeBlock i
      let blocksInfo :=
        { blocksInfo with minHeap := blocksInfo.minHeap.extractMin blocksInfo.key }
      some { s with
        trash := s.trash ++ [info.blockStore.id]
        blocksInfo := blocksInfo.updateTimes }
    else
      let blocksInfo := s.blocksInfo.set i (updateTimeFirst r.1)
      some { s with blocksInfo :=
        { blocksInfo with minHeap := blocksInfo.minHeap.doHeapify blocksInfo.key } }

/-- What the condition of the inner loop reads besides the table: the number of blocks to wait
for, the length of the window and the time at which the round began. -/
structure Window where
  needBlocks : Int := 0
  windowLength : Nat := 0
  atTime : Nat := 0

def sub64 (a b : Nat) : Nat := (a + (2 ^ 64 - b % 2 ^ 64)) % 2 ^ 64

/-- The condition of the inner loop; `pressure` says that the dequeue buffer is more than 20 %
of the heap. -/
def drains (w : Window) (pressure : Bool) (s : BlocksInfo) : Bool :=
  let length := w.windowLength * 1000 % 2 ^ 32
  decide (s.usedCount ≠ 0) &&
    (if w.needBlocks ≠ 0 then decide (s.usedCount ≥ w.needBlocks)
    else
      (decide (sub64 s.utimeLast s.utimeFirst > length) &&
          decide (sub64 s.atLast s.atFirst > length)) ||
        decide (sub64 w.atTime s.atFirst > length * 4 % 2 ^ 32) || pressure || s.isFull)

/-- The states of the loops: at the head of the outer one, or, with its window, at the test of
the inner one. The settings may change from round to round. -/
inductive Reach (blockInfoMax : Nat) : Option Window → State → Prop
  | initial : Reach blockInfoMax none (init blockInfoMax)
  | pop {s : State} (w : Window) (hneed : w.needBlocks ≤ blockInfoMax)
      (packets : List PacketInfo) : Reach blockInfoMax none s →
      Reach blockInfoMax (some w) (arrive s w.atTime packets)
  | empty {s : State} (w : Window) (hneed : w.needBlocks ≤ blockInfoMax) :
      Reach blockInfoMax none s → Reach blockInfoMax (some w) s
  | drain {w : Window} {s s' : State} (pressure : Bool) : Reach blockInfoMax (some w) s →
      drains w pressure s.blocksInfo = true → handOut s = some s' → Reach blockInfoMax (some w) s'
  | leave {w : Window} {s : State} (pressure : Bool) : Reach blockInfoMax (some w) s →
      drains w pressure s.blocksInfo = false → Reach blockInfoMax none s
  | noMin {w : Window} {s : State} (pressure : Bool) : Reach blockInfoMax (some w) s →
      drains w pressure s.blocksInfo = true → handOut s = none → Reach blockInfoMax none s

end VoipMonitor.Dequeue
