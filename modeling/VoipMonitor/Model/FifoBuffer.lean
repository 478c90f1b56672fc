import VoipMonitor.Library.Bytes
import VoipMonitor.Library.Runs

/-!
# The byte queue of a live stream (`FifoBuffer`, `tools_fifo_buffer.h`)

The bytes are in a chain of items. `getPos` is the position behind the last byte read, counted
from the first item that is still there. An operation that waits for a lock that nobody gives
back has no result.
-/

namespace VoipMonitor.Fifo
open VoipMonitor.Library

structure Settings where
  minItemBufferLength : Nat := 0
  maxItemBufferLength : Nat := 0
  maxSize : Nat := 0
deriving DecidableEq, Repr

/-- `FifoBufferItem`. `data` has the bytes written so far, `allocated` tells whether there is a
buffer. -/
structure FifoBufferItem where
  bufferLength : Nat
  allocated : Bool
  data : Bytes
deriving DecidableEq, Repr

namespace FifoBufferItem

def length (i : FifoBufferItem) : Nat := i.data.length

def getBufferLength (owner : Settings) (length : Nat) : Nat :=
  let length := if owner.minItemBufferLength ≠ 0 ∧ length < owner.minItemBufferLength then
    owner.minItemBufferLength else length
  if owner.maxItemBufferLength ≠ 0 ∧ owner.maxItemBufferLength > owner.minItemBufferLength ∧
      length > owner.maxItemBufferLength then
    owner.maxItemBufferLength
  else length

def create (owner : Settings) (length : Nat) : FifoBufferItem :=
  let bufferLength := getBufferLength owner length
  { bufferLength := bufferLength, allocated := decide (bufferLength ≠ 0), data := [] }

/-- `add` on an item and those behind it, with `buffer` from the offset on. It is called again
for the next item; the first argument bounds the number of these calls. -/
def add (owner : Settings) : Nat → List FifoBufferItem → Bytes → List FifoBufferItem
  | 0, chain, _ => chain
  | _, [], _ => []
  | fuel + 1, this :: next, buffer =>
    if buffer = [] then this :: next
    else
      let this := if this.allocated then this else
        { this with bufferLength := getBufferLength owner buffer.length, allocated := true }
      let free := this.bufferLength - this.length
      if this.length < this.bufferLength ∧ buffer.length ≤ free then
        { this with data := this.data ++ buffer } :: next
      else
        -- nothing is copied into an item that is full
        let this := { this with data := this.data ++ buffer.take free }
        let buffer := buffer.drop free
        let next := if next.isEmpty then [create owner buffer.length] else next
        this :: add owner fuel next buffer

end FifoBufferItem

structure FifoBuffer where
  settings : Settings
  first : List FifoBufferItem := []
  getPos : Nat := 0
  disable : Bool := false
  sync : Bool := false
deriving DecidableEq, Repr

namespace FifoBuffer

/-- `lock` spins until the flag is free. -/
def lock (b : FifoBuffer) : Option FifoBuffer :=
  if b.sync then none else some { b with sync := true }

def unlock (b : FifoBuffer) : FifoBuffer := { b with sync := false }

def size (b : FifoBuffer) : Nat :=
  b.first.foldl (fun size iter => add32 size iter.length) 0

def sizeGet (b : FifoBuffer) : Option Nat := do
  let b ← b.lock
  return sub32 b.size b.getPos

/-- `add`; the answer is whether the bytes were taken. -/
def add (b : FifoBuffer) (buffer : Bytes) : Option (Bool × FifoBuffer) := do
  if buffer = [] then return (false, b)
  let b ← b.lock
  if b.disable then return (false, b.unlock)
  if b.settings.maxSize ≠ 0 ∧ add32 b.size buffer.length > b.settings.maxSize then
    return (false, b.unlock)
  let first := if b.first.isEmpty then [FifoBufferItem.create b.settings buffer.length]
    else b.first
  -- `last` is the end of the chain
  let first := first.dropLast ++
    FifoBufferItem.add b.settings (buffer.length + 1) (first.drop (first.length - 1)) buffer
  return (true, { b with first := first }.unlock)

/-- The loop of `_get`: the bytes copied from the rest of the chain, of which `allSize` is the
position and `got` the number of the bytes copied before. -/
def copyItems (getSize getPos : Nat) : List FifoBufferItem → Nat → Nat → Bytes
  | [], _, _ => []
  | iter :: next, allSize, got =>
    if got < getSize then
      if add32 allSize iter.length > getPos then
        let offset := if allSize < getPos then getPos - allSize else 0
        let length := min (iter.length - offset) (getSize - got)
        slice iter.data offset length ++
          copyItems getSize getPos next (add32 allSize iter.length) (got + length)
      else copyItems getSize getPos next (add32 allSize iter.length) got
    else []

def getBytes (b : FifoBuffer) (getSize getPos : Nat) : Option (Nat × Bytes) :=
  if b.disable then none
  else
    let allSize := b.size
    if allSize = 0 ∨ getPos > allSize - 1 then none
    else
      let size := allSize - getPos
      let getSize := if getSize = 0 ∨ size < getSize then size else getSize
      some (getSize, copyItems getSize getPos b.first 0 0)

/-- The loop of `get` that deletes the items that were read. -/
def dropRead : List FifoBufferItem → Nat → List FifoBufferItem × Nat
  | [], getPos => ([], getPos)
  | first :: next, getPos =>
    if getPos > first.length then dropRead next (getPos - first.length)
    else (first :: next, getPos)

/-- `get`. When there is nothing to return the lock is kept. -/
def get (b : FifoBuffer) (getSize : Nat) : Option (Option Bytes × FifoBuffer) := do
  let b ← b.lock
  match b.getBytes getSize b.getPos with
  | none => return (none, b)
  | some (getSize, getBuffer) =>
    let r := dropRead b.first (add32 b.getPos getSize)
    return (some getBuffer, { b with first := r.1, getPos := r.2 }.unlock)

end FifoBuffer

inductive Op where
  | add (buffer : Bytes)
  | get (getSize : Nat)

/-- A buffer, the bytes that `add` accepted and those that `get` returned. -/
structure State where
  buffer : FifoBuffer
  added : Bytes := []
  returned : Bytes := []

def start (settings : Settings) : State := { buffer := { settings := settings } }

def step (s : State) : Op → Option State
  | .add buffer => (s.buffer.add buffer).map (fun r =>
      { s with buffer := r.2, added := if r.1 then s.added ++ buffer else s.added })
  | .get getSize => (s.buffer.get getSize).map (fun r =>
      { s with buffer := r.2, returned := s.returned ++ r.1.getD [] })

/-!
## Absolute positions in a byte queue (`FifoBuffer`, `tools_fifo_buffer.h`)

`freedPos` is the position of the first byte that is still there, in the stream of all bytes. The
operations are the ones by position, those that free the buffer and the queries of its size.
-/

structure PosBuffer extends FifoBuffer where
  freedPos : Nat := 0
deriving DecidableEq, Repr

namespace PosBuffer

def lock (b : PosBuffer) : Option PosBuffer :=
  b.toFifoBuffer.lock.map (fun locked => { b with toFifoBuffer := locked })

def unlock (b : PosBuffer) : PosBuffer := { b with toFifoBuffer := b.toFifoBuffer.unlock }

def add (b : PosBuffer) (buffer : Bytes) : Option (Bool × PosBuffer) :=
  (b.toFifoBuffer.add buffer).map (fun r => (r.1, { b with toFifoBuffer := r.2 }))

def get (b : PosBuffer) (getSize : Nat) : Option (Option Bytes × PosBuffer) :=
  (b.toFifoBuffer.get getSize).map (fun r => (r.1, { b with toFifoBuffer := r.2 }))

def getFromPos (b : PosBuffer) (getSize getPos : Nat) : Option (Option Bytes × PosBuffer) := do
  let b ← b.lock
  match b.getBytes getSize (sub32 getPos b.freedPos) with
  | none => return (none, b.unlock)
  | some (_, getBuffer) => return (some getBuffer, b.unlock)

def freeAll (b : PosBuffer) : PosBuffer := { b with first := [], getPos := 0, freedPos := 0 }

def free (b : PosBuffer) : Option PosBuffer := do
  let b ← b.lock
  return b.freeAll.unlock

/-- The loop of `free_pos` that deletes the items before a position. -/
def dropFreed : List FifoBufferItem → Nat → Nat → List FifoBufferItem × Nat
  | [], _, freedPos => ([], freedPos)
  | first :: next, pos, freedPos =>
    if pos ≥ first.length then dropFreed next (pos - first.length) (add32 freedPos first.length)
    else (first :: next, freedPos)

def freePos (b : PosBuffer) (pos : Nat) : Option PosBuffer := do
  let b ← b.lock
  if pos > b.freedPos then
    let r := dropFreed b.first (pos - b.freedPos) b.freedPos
    return { b with first := r.1, freedPos := r.2 }.unlock
  else return b.unlock

def cleanAndDisable (b : PosBuffer) : Option PosBuffer := do
  let b ← b.lock
  return { b.freeAll with disable := true }.unlock

def enable (b : PosBuffer) : Option PosBuffer := do
  let b ← b.lock
  return { b with disable := false }.unlock

def sizeAll (b : PosBuffer) : Option (Nat × PosBuffer) := do
  let b ← b.lock
  return (b.size, b.unlock)

def sizeAllWithFreedPos (b : PosBuffer) : Option (Nat × PosBuffer) := do
  let b ← b.lock
  return (add32 b.size b.freedPos, b.unlock)

def sizeGet (b : PosBuffer) : Option (Nat × PosBuffer) := do
  let b ← b.lock
  return (sub32 b.size b.getPos, b.unlock)

/-- `last` looks for the first item before it locks. -/
def last (b : PosBuffer) : Option (Option FifoBufferItem × PosBuffer) :=
  if b.first.isEmpty then some (none, b)
  else do
    let b ← b.lock
    return (b.first.getLast?, b.unlock)

end PosBuffer

inductive PosOp where
  | add (buffer : Bytes)
  | get (getSize : Nat)
  | getFromPos (getSize getPos : Nat)
  | free
  | freePos (pos : Nat)
  | cleanAndDisable
  | enable
  | sizeAll
  | sizeAllWithFreedPos
  | sizeGet
  | last

/-- The buffer after an operation that returns. -/
def posStep (b : PosBuffer) : PosOp → Option PosBuffer
  | .add buffer => (b.add buffer).map Prod.snd
  | .get getSize => (b.get getSize).map Prod.snd
  | .getFromPos getSize getPos => (b.getFromPos getSize getPos).map Prod.snd
  | .free => b.free
  | .freePos pos => b.freePos pos
  | .cleanAndDisable => b.cleanAndDisable
  | .enable => b.enable
  | .sizeAll => b.sizeAll.map Prod.snd
  | .sizeAllWithFreedPos => b.sizeAllWithFreedPos.map Prod.snd
  | .sizeGet => b.sizeGet.map Prod.snd
  | .last => b.last.map Prod.snd

def posStart (settings : Settings) : PosBuffer := { settings := settings }

end VoipMonitor.Fifo
