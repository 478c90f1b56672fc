import VoipMonitor.Library.Bytes
import VoipMonitor.Library.Runs

/-!
# Packet deduplication (`packet_dupl_check.h`)

The first 16 bits of a packet's hash select a slot. The simple buffer keeps the rest of one hash
in a slot, the hash table a chain of items with the time of their last use.
-/

namespace VoipMonitor.PacketDupl
open VoipMonitor.Library

/-- `eDedupType`. -/
inductive DedupType where
  | na | md5 | crc32Sw | crc32Hw | crc64 | blake3 | murmur
deriving DecidableEq, Repr

/-- `sPacketDuplCheck`: the bytes of the union. -/
structure PacketDuplCheck where
  bytes : Bytes
  length_bytes : bytes.length = 16
deriving DecidableEq, Repr

def PacketDuplCheck.first16Bits (h : PacketDuplCheck) : Nat := leNat (slice h.bytes 0 2)

def PacketDuplCheck.first32Bits (h : PacketDuplCheck) : Nat := leNat (slice h.bytes 0 4)

def PacketDuplCheck.isEmpty (h : PacketDuplCheck) : Bool := h.first32Bits == 0

/-- `cPacketDuplBuffer::eType`. -/
inductive BufferType where
  | simple | hashtable

/-- `sHashItem`; the chain of `next` pointers is a list. -/
structure HashItem where
  time : Nat
  hash : Bytes

/-- `cPacketDuplBuffer`. The simple buffer is given by its slots, the hash table by its chains. -/
structure PacketDuplBuffer where
  type : BufferType
  dedupType : DedupType
  lifetime : Nat
  hashSize : Nat := 0
  hashSizeSimpleCmp : Nat := 0
  simpleBuffer : Nat → Bytes := fun _ => []
  hashTable : Nat → List HashItem := fun _ => []

def DedupType.hashSize : DedupType → Nat
  | .md5 => 16
  | .crc32Sw => 4
  | .crc32Hw => 4
  | .crc64 => 8
  | .blake3 => 16
  | .murmur => 16
  | .na => 4

namespace PacketDuplBuffer

/-- `init`, after `term` when there was a buffer before. -/
def init (b : PacketDuplBuffer) : PacketDuplBuffer :=
  let size := b.dedupType.hashSize
  { b with
    hashSize := size
    hashSizeSimpleCmp := size - 2
    simpleBuffer := fun _ => List.replicate (size - 2) 0
    hashTable := fun _ => [] }

def create (type : BufferType) (dedupType : DedupType) (optLifetime : Nat) : PacketDuplBuffer :=
  init { type := type, dedupType := dedupType, lifetime := optLifetime % 2 ^ 16 }

def stored (b : PacketDuplBuffer) (h : PacketDuplCheck) : Bytes :=
  slice h.bytes 2 b.hashSizeSimpleCmp

def sameHash (key hash : Bytes) : Bool :=
  key.take 1 == hash.take 1 && key.drop 1 == hash.drop 1

/-- The loop of `check_dupl_hashtable` with the chain it leaves: items older than `limitTime` are
unlinked on the way, and the time of the item that is found is set to `now`. -/
def searchChain (limitTime now : Nat) (key : Bytes) : List HashItem → Bool × List HashItem
  | [] => (false, [])
  | hi :: next =>
    if hi.time < limitTime then searchChain limitTime now key next
    else if sameHash key hi.hash then (true, { hi with time := now } :: next)
    else
      let r := searchChain limitTime now key next
      (r.1, hi :: r.2)

/-- `check_dupl_hashtable`. The clock is read for the limit and again for an item found. -/
def checkDuplHashtable (b : PacketDuplBuffer) (h : PacketDuplCheck) (now nowStore : Nat) :
    Bool × PacketDuplBuffer :=
  let slot := h.first16Bits
  let r := searchChain (sub32 now b.lifetime) nowStore (b.stored h) (b.hashTable slot)
  (r.1, { b with hashTable := Function.update b.hashTable slot r.2 })

def storeHashtable (b : PacketDuplBuffer) (h : PacketDuplCheck) (nowStore : Nat) :
    PacketDuplBuffer :=
  let slot := h.first16Bits
  { b with
    hashTable := Function.update b.hashTable slot
      ({ time := nowStore, hash := b.stored h } :: b.hashTable slot) }

def store (b : PacketDuplBuffer) (h : PacketDuplCheck) (nowStore : Nat) : PacketDuplBuffer :=
  match b.type with
  | .simple =>
    { b with simpleBuffer := Function.update b.simpleBuffer h.first16Bits (b.stored h) }
  | .hashtable => b.storeHashtable h nowStore

def checkDupl (b : PacketDuplBuffer) (h : PacketDuplCheck) (dedupType : DedupType)
    (now nowStore : Nat) : Bool × PacketDuplBuffer :=
  let b := if b.dedupType ≠ dedupType then init { b with dedupType := dedupType } else b
  let r := match b.type with
    | .simple => (b.stored h == b.simpleBuffer h.first16Bits, b)
    | .hashtable => b.checkDuplHashtable h now nowStore
  if r.1 then r else (r.1, r.2.store h nowStore)

end PacketDuplBuffer

/-- A call of `check_dupl` with the two readings of the clock. -/
structure Call where
  hash : PacketDuplCheck
  now : Nat
  nowStore : Nat
deriving DecidableEq, Repr

def afterCalls (b : PacketDuplBuffer) (dedupType : DedupType) (calls : List Call) :
    PacketDuplBuffer :=
  calls.foldl (fun b c => (b.checkDupl c.hash dedupType c.now c.nowStore).2) b

def answer (b : PacketDuplBuffer) (dedupType : DedupType) (calls : List Call) (c : Call) : Bool :=
  ((afterCalls b dedupType calls).checkDupl c.hash dedupType c.now c.nowStore).1

end VoipMonitor.PacketDupl
