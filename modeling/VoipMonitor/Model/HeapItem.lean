import Mathlib.Logic.Function.Basic
import VoipMonitor.Library.Bytes
import VoipMonitor.Library.Runs

/-!
# The heap item (`cHeapItem`, `heap_chunk.cpp`)

Blocks lie behind each other in one buffer, each with a header in front of its data. The links of
the free blocks lie where a used block has its data. Addresses are numbers, zero is `NULL`, and the
memory gives for the address of a field what is stored there.
-/

namespace VoipMonitor.Heap
open VoipMonitor.Library

abbrev Memory := Nat → Nat

/-- `sizeof(sHeader)`, which is `FREE_HEADER_SIZE` too. -/
def headerSize : Nat := 32

def usedHeaderSize : Nat := 16

def deltaFactor : Nat := 64

/-- What `initHeapBuffer` gives. Nothing is known about the content. -/
structure Buffer where
  address : Nat
  size : Nat
  content : Memory

structure HeapItem where
  size : Nat
  buff : Nat
  brk : Nat
  first : Nat
  last : Nat
  rover : Nat
  initBuffError : Bool
  isFull : Bool
  mem : Memory

namespace HeapItem

def new : HeapItem := ⟨0, 0, 0, 0, 0, 0, false, false, fun _ => 0⟩

variable (h : HeapItem)

def sizeAt (p : Nat) : Nat := h.mem p

def prevReal (p : Nat) : Nat := h.mem (p + 8)

def prevFree (p : Nat) : Nat := h.mem (p + 16)

def nextFree (p : Nat) : Nat := h.mem (p + 24)

def store (a v : Nat) : HeapItem := { h with mem := Function.update h.mem a v }

def setSize (p v : Nat) : HeapItem := h.store p v

def setPrevReal (p v : Nat) : HeapItem := h.store (p + 8) v

def setPrevFree (p v : Nat) : HeapItem := h.store (p + 16) v

def setNextFree (p v : Nat) : HeapItem := h.store (p + 24) v

/-- `IncrementBreak`: the length in use is compared as an unsigned number of 32 bits. -/
def incrementBreak (increment : Nat) : HeapItem × Nat :=
  if h.buff = 0 ∨ h.brk = 0 ∨ h.brk < h.buff then (h, 0)
  else if (h.brk + increment - h.buff) % 2 ^ 32 > h.size then ({ h with isFull := true }, 0)
  else ({ h with brk := h.brk + increment }, h.brk)

/-- `CreateHeap`. The second part is the pointer to the data, as in `Alloc`. -/
def createHeap (size : Nat) : HeapItem × Nat :=
  let (h, temp) := h.incrementBreak size
  if temp = 0 then (h, 0)
  else
    let h := h.setPrevReal temp 0
    let h := { h with first := temp, last := temp }
    (h.setSize temp (add32 size 1), temp + 16)

def extendHeap (size : Nat) : HeapItem × Nat :=
  let (h, temp) := h.incrementBreak size
  if temp = 0 then (h, 0)
  else
    let h := h.setPrevReal temp h.last
    let h := h.setSize temp (add32 size 1)
    ({ h with last := temp }, temp + 16)

/-- `AllocatePartialBlock`: the used block is cut from the end of the free one. -/
def allocatePartialBlock (block size : Nat) : HeapItem × Nat :=
  let h := h.setSize block (sub32 (h.sizeAt block) size)
  let temp := block + h.sizeAt block
  let h := h.setSize temp (add32 size 1)
  let h := h.setPrevReal temp block
  if h.last = block then ({ h with last := temp }, temp + 16)
  else (h.setPrevReal (temp + size) temp, temp + 16)

def pullFreeBlock (block : Nat) : HeapItem :=
  if h.nextFree block = block then { h with rover := 0 }
  else
    let h := { h with rover := h.nextFree block }
    let temp := h.prevFree block
    let h := h.setPrevFree h.rover temp
    h.setNextFree temp h.rover

/-- The loop of `Alloc` over the free blocks from `temp` on; none when `fuel` runs out. -/
def allocLoop (size : Nat) : Nat → Nat → Option (HeapItem × Nat)
  | 0, _ => none
  | fuel + 1, temp =>
    if h.sizeAt temp ≥ size + headerSize + deltaFactor then
      some (h.allocatePartialBlock temp size)
    else if h.sizeAt temp ≥ size then
      let h := h.pullFreeBlock temp
      some (h.setSize temp (add32 (h.sizeAt temp) 1), temp + 16)
    else
      let temp := h.nextFree temp
      if temp ≠ h.rover then allocLoop size fuel temp else some (h.extendHeap size)

def blockSize (size : Nat) : Nat :=
  (add32 size usedHeaderSize + headerSize - 1) / headerSize * headerSize % 2 ^ 32

/-- `Alloc`. The buffer has room for no more than `(brk - buff) / 32` blocks. -/
def alloc (size : Nat) : Option (HeapItem × Nat) :=
  if size = 0 then some (h, 0)
  else if h.first = 0 then some (h.createHeap (blockSize size))
  else if h.rover ≠ 0 then h.allocLoop (blockSize size) ((h.brk - h.buff) / headerSize) h.rover
  else some (h.extendHeap (blockSize size))

def initBuff (answer : Option Buffer) : HeapItem × Bool :=
  match answer with
  | none => ({ h with buff := 0 }, false)
  | some b => ({ h with buff := b.address, size := b.size, brk := b.address, mem := b.content }, true)

/-- `MAlloc`. The answer of `initHeapBuffer` is used when there is no buffer. -/
def mAlloc (sizeOfObject : Nat) (answer : Option Buffer) : Option (HeapItem × Nat) :=
  if h.buff = 0 then
    if h.initBuffError then some (h, 0)
    else
      let (h, done) := h.initBuff answer
      if done then h.alloc sizeOfObject else some (h, 0)
  else h.alloc sizeOfObject

def setBreak (p : Nat) : HeapItem := { h with brk := p }

def freeLastBlock : HeapItem :=
  if h.first = h.last then { h.setBreak h.first with first := 0, last := 0 }
  else
    let temp := h.prevReal h.last
    if h.sizeAt temp % 2 = 0 then
      let h := h.pullFreeBlock temp
      let h := if temp = h.first then { h with first := 0, last := 0 }
        else { h with last := h.prevReal temp }
      h.setBreak temp
    else { h.setBreak h.last with last := temp }

def insertFreeBlock (block : Nat) : HeapItem :=
  if h.rover ≠ 0 then
    let temp := h.nextFree h.rover
    let h := h.setNextFree h.rover block
    let h := h.setPrevFree temp block
    let h := h.setNextFree block temp
    h.setPrevFree block h.rover
  else
    let h := { h with rover := block }
    let h := h.setPrevFree block block
    h.setNextFree block block

def joinFreeBlocks (block1 block2 : Nat) : HeapItem :=
  let h := h.setSize block1 (add32 (h.sizeAt block1) (h.sizeAt block2))
  let h := if h.last = block2 then { h with last := block1 }
    else h.setPrevReal (block2 + h.sizeAt block2) block1
  h.pullFreeBlock block2

def freeInnerBlock (block : Nat) : HeapItem :=
  let h := h.setSize block (sub32 (h.sizeAt block) 1)
  let temp1 := block + h.sizeAt block
  let temp2 := h.prevReal block
  if temp2 ≠ 0 ∧ h.sizeAt temp2 % 2 = 0 ∧ block ≠ h.first then
    let h := h.setSize temp2 (add32 (h.sizeAt temp2) (h.sizeAt block))
    let h := h.setPrevReal temp1 temp2
    if h.sizeAt temp1 % 2 = 0 then h.joinFreeBlocks temp2 temp1 else h
  else
    let h := h.insertFreeBlock block
    if h.sizeAt temp1 % 2 = 0 then h.joinFreeBlocks block temp1 else h

def isOwnItem (p : Nat) : Bool := h.buff ≠ 0 ∧ p ≠ 0 ∧ p > h.buff ∧ p < h.buff + h.size

def termBuff : HeapItem := { h with buff := 0 }

/-- `Free` and what it returns. -/
def free (p : Nat) : HeapItem × Nat :=
  if h.isOwnItem p then
    let block := p - usedHeaderSize
    let h := if block = h.last then h.freeLastBlock else h.freeInnerBlock block
    let h := { h with isFull := false }
    if h.buff = h.brk then (h.termBuff, 2) else (h, 1)
  else (h, 0)

end HeapItem

structure State where
  item : HeapItem
  live : List (Nat × Nat)

def start : State := ⟨.new, []⟩

/-- The calls, and the stores into the objects in use. -/
inductive Action where
  | mAlloc (sizeOfObject : Nat) (answer : Option Buffer)
  | free (p : Nat)
  | write (a v : Nat)

/-- One call. -/
def step (s : State) : Action → Option State
  | .mAlloc n answer => (s.item.mAlloc n answer).map fun r =>
      ⟨r.1, if r.2 = 0 then s.live else (r.2, n) :: s.live⟩
  | .free p => some ⟨(s.item.free p).1, s.live.filter (·.1 ≠ p)⟩
  | .write a v => some { s with item := s.item.store a v }

/-- The calls that are promised: sizes and buffers below `2^31`, `Free` on a pointer in use, and
stores to fields that have a byte in an object in use. -/
def Allowed (s : State) : Action → Prop
  | .mAlloc n answer => n < 2 ^ 31 ∧ ∀ b ∈ answer, 0 < b.address ∧ b.size < 2 ^ 31
  | .free p => ∃ n, (p, n) ∈ s.live
  | .write a _ => s.item.buff ≤ a ∧ (a - s.item.buff) % 8 = 0 ∧
      ∃ r ∈ s.live, a < r.1 + r.2 ∧ r.1 < a + 8

instance (s : State) (a : Action) : Decidable (Allowed s a) :=
  match a with
  | .mAlloc n none => decidable_of_iff (n < 2 ^ 31) ⟨fun h => ⟨h, nofun⟩, fun h => h.1⟩
  | .mAlloc n (some b) =>
    decidable_of_iff (n < 2 ^ 31 ∧ 0 < b.address ∧ b.size < 2 ^ 31)
      ⟨fun h => ⟨h.1, fun _ hb => Option.some.inj hb ▸ h.2⟩, fun h => ⟨h.1, h.2 b rfl⟩⟩
  | .free p =>
    decidable_of_iff (∃ r ∈ s.live, r.1 = p)
      ⟨fun ⟨r, hr, hp⟩ => ⟨r.2, hp ▸ hr⟩, fun ⟨n, hn⟩ => ⟨(p, n), hn, rfl⟩⟩
  | .write a _ => inferInstanceAs (Decidable (s.item.buff ≤ a ∧ (a - s.item.buff) % 8 = 0 ∧
      ∃ r ∈ s.live, a < r.1 + r.2 ∧ r.1 < a + 8))

end VoipMonitor.Heap
