import VoipMonitor.Model.HeapItem

/-!
# The heap of items (`cHeap`, `heap_chunk.cpp`)

An object is allocated in the first item that has room for it, and in a new one if none has. The
heap counts the sizes of the blocks in use, which it reads from their headers. Each item has the
memory of its buffer, and `foreign` is the memory outside of all buffers.
-/

namespace VoipMonitor.Heap
open VoipMonitor.Library

/-- `cHeap`. `countHeapItems` is the number of the items. -/
structure CHeap where
  maxHeapItems : Nat
  items : List HeapItem
  allocSize : UInt64
  minPtr : Nat

namespace CHeap

def new (maxHeapItems : Nat) : CHeap := ⟨maxHeapItems, [], 0, 0⟩

def setMinPtr (minPtr ptr : Nat) : Nat := if minPtr = 0 ∨ ptr < minPtr then ptr else minPtr

variable (foreign : Memory) (heap : CHeap)

def holds (h : HeapItem) (a : Nat) : Bool := h.buff ≠ 0 && h.buff ≤ a && a < h.buff + h.size

def itemSize (p : Nat) : Nat :=
  match heap.items.find? (fun h => holds h (p - usedHeaderSize)) with
  | some h => h.sizeAt (p - usedHeaderSize)
  | none => foreign (p - usedHeaderSize)

def incAllocSize (p : Nat) : CHeap :=
  { heap with allocSize := heap.allocSize + UInt64.ofNat (heap.itemSize foreign p) }

def decAllocSize (p : Nat) : CHeap :=
  { heap with allocSize := heap.allocSize - UInt64.ofNat (heap.itemSize foreign p) }

/-- What the loop of `MAlloc` over the items leaves. -/
structure Search where
  items : List HeapItem
  minPtr : Nat
  p : Nat
  heapItemIndex : Nat

/-- `min_ptr` behind `MAlloc` of an item, which sets it for a new buffer. -/
def minPtrAfter (minPtr : Nat) (h : HeapItem) (answer : Option Buffer) : Nat :=
  if h.buff = 0 ∧ h.initBuffError = false then
    answer.elim minPtr (fun b => setMinPtr minPtr b.address)
  else minPtr

/-- The loop of `MAlloc` over the items from the `i`-th on. `answers` are those of
`initHeapBuffer` to the items. -/
def mAllocLoop (n : Nat) (answers : Nat → Option Buffer) :
    Nat → List HeapItem → Nat → Option Search
  | _, [], minPtr => some ⟨[], minPtr, 0, 0⟩
  | i, h :: rest, minPtr =>
    if h.isFull then
      (mAllocLoop n answers (i + 1) rest minPtr).map (fun r => { r with items := h :: r.items })
    else
      (h.mAlloc n (answers i)).bind (fun (h', p) =>
        let minPtr := minPtrAfter minPtr h (answers i)
        if p ≠ 0 then some ⟨h' :: rest, minPtr, p, i + 1⟩
        else
          (mAllocLoop n answers (i + 1) rest minPtr).map (fun r =>
            { r with items := h' :: r.items }))

/-- What `MAlloc` returns, with the pointers whose header was read. -/
structure MAllocResult where
  heap : CHeap
  p : Nat
  heapItemIndex : Option Nat
  headersRead : List Nat

def mAlloc (n : Nat) (answers : Nat → Option Buffer) : Option MAllocResult :=
  (mAllocLoop n answers 0 heap.items heap.minPtr).bind (fun r =>
    if r.p ≠ 0 then
      some ⟨incAllocSize foreign { heap with items := r.items, minPtr := r.minPtr } r.p, r.p,
        some r.heapItemIndex, [r.p]⟩
    else if heap.items = [] ∨ heap.items.length < heap.maxHeapItems then
      (HeapItem.new.mAlloc n (answers heap.items.length)).map (fun (h, p) =>
        ⟨incAllocSize foreign { heap with
            items := r.items ++ [h]
            minPtr := minPtrAfter r.minPtr .new (answers heap.items.length) } p, p,
          some (heap.items.length + 1), [p]⟩)
    else some ⟨{ heap with items := r.items, minPtr := r.minPtr }, 0, none, []⟩)

def destroyLastHeapItem (items : List HeapItem) : List HeapItem :=
  match items.getLast? with
  | some h => if h.buff = 0 then items.dropLast else items
  | none => items

/-- `Free` of an item, if it owns the pointer. -/
def freeAt (items : List HeapItem) (p i : Nat) : Option (List HeapItem) :=
  items[i]?.bind (fun h =>
    if (h.free p).2 > 0 then
      some (if (h.free p).2 = 2 ∧ i + 1 = items.length then
        destroyLastHeapItem (items.set i (h.free p).1) else items.set i (h.free p).1)
    else none)

/-- What `Free` returns, with the pointers whose header was read. -/
structure FreeResult where
  heap : CHeap
  done : Bool
  headersRead : List Nat

/-- `Free`. The item that `heapItemIndex` names is asked first. -/
def free (p heapItemIndex : Nat) : FreeResult :=
  if p < heap.minPtr then ⟨heap, false, []⟩
  else
    let heap := decAllocSize foreign heap p
    match (if heapItemIndex ≠ 0 then freeAt heap.items p (heapItemIndex - 1) else none).or
        ((List.range heap.items.length).findSome? (freeAt heap.items p)) with
    | some items => ⟨{ heap with items := items }, true, [p]⟩
    | none => ⟨heap, false, [p]⟩

end CHeap

structure HeapState where
  heap : CHeap
  live : List Nat

def HeapState.start (maxHeapItems : Nat) : HeapState := ⟨.new maxHeapItems, []⟩

inductive HeapCall where
  | mAlloc (n : Nat) (answers : Nat → Option Buffer)
  | free (p heapItemIndex : Nat)

def heapStep (foreign : Memory) (s : HeapState) : HeapCall → Option HeapState
  | .mAlloc n answers => (s.heap.mAlloc foreign n answers).map (fun r =>
      ⟨r.heap, if r.p = 0 then s.live else r.p :: s.live⟩)
  | .free p heapItemIndex =>
    let r := s.heap.free foreign p heapItemIndex
    some ⟨r.heap, if r.done then s.live.erase p else s.live⟩

end VoipMonitor.Heap
