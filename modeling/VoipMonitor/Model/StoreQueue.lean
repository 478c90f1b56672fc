import VoipMonitor.Library.Runs
import VoipMonitor.Model.BlockStore

/-!
# The queue of blocks with spooling to disk (`pcap_store_queue`, `pcap_file_store`)

A block is kept in memory, or its save buffer is appended to the last file store and the block in
the queue only keeps the id of the store and the position. Popping such a block waits until its
store is full, and reads the save buffer back in pieces of 1000 bytes.
`__config_ENABLE_TOGETHER_READ_WRITE_FILE` is false.
-/

namespace VoipMonitor.StoreQueue
open VoipMonitor.Library VoipMonitor.BlockStore

/-- The settings of the queue. `diskBuffer` says that a folder and a size for it are set. -/
structure QueueConfig extends Config where
  diskBuffer : Bool := true
  storeQueueMaxDiskSize : Nat := 0
  fileStoreMaxSize : Nat := 200 * 1024 * 1024
  fileStoreMaxTimeMs : Nat := 2000

/-- `pcap_file_store`. `content` is the file that was written and `visible` how much of it the
reading handle sees. -/
structure FileStore where
  id : Nat
  timestampMS : Nat := 0
  content : Bytes := []
  visible : Nat := 0
  pushOpen : Bool := false
  popOpen : Bool := false
  fileSize : Nat := 0
  fileSizeFlushed : Nat := 0
  countPush : Nat := 0
  countPop : Nat := 0
  full : Bool := false

structure QueuedBlock where
  store : PcapBlockStore
  idFileStore : Nat := 0
  filePosition : Nat := 0

namespace FileStore

/-- `close(typeHandlePush)`: what is buffered is written. -/
def closePush (f : FileStore) : FileStore :=
  if f.pushOpen then { f with pushOpen := false, visible := f.content.length } else f

/-- `isFull`, which marks a store that has become full. -/
def isFull (cfg : QueueConfig) (now : Nat) (forceSetFull : Bool) (f : FileStore) :
    FileStore × Bool :=
  if f.full then (f, true)
  else if f.fileSize ≥ cfg.fileStoreMaxSize ∨
      (f.fileSize ≠ 0 ∧ now > f.timestampMS + cfg.fileStoreMaxTimeMs) ∨
      (f.fileSize ≠ 0 ∧ forceSetFull) then
    ({ f.closePush with full := true }, true)
  else (f, false)

def isForDestroy (f : FileStore) : Bool := f.full && f.countPush = f.countPop

/-- `open(typeHandlePush)`, which starts the file anew. -/
def openPush (f : FileStore) : FileStore :=
  if f.pushOpen then f else { f with pushOpen := true, content := [], visible := 0 }

/-- What `fwrite` writes when there may be room for a part only. -/
def fwrite (room : Option Nat) (bytes : Bytes) : Bytes :=
  match room with
  | none => bytes
  | some n => bytes.take n

/-- `push`: after a short write the handle goes back to the old end. -/
def push (cfg : QueueConfig) (e : SaveEnv) (room : Option Nat) (f : FileStore) (b : QueuedBlock) :
    FileStore × Option QueuedBlock :=
  let f := f.openPush
  let saveBuffer := getSaveBuffer cfg.toConfig e b.store.toBlockContent 0
  let written := fwrite room saveBuffer
  let content := overwrite f.content f.fileSize written
  if written.length = saveBuffer.length then
    ({ f with
      content := content
      fileSize := f.fileSize + written.length
      countPush := f.countPush + 1 },
      some { b with
        store := { b.store with offsets := [], block := [] }
        idFileStore := f.id
        filePosition := f.fileSize })
  else ({ f with content := content }, none)

/-- The reading loop of `pop` over the bytes from the block's position on. -/
def readBlock (cfg : QueueConfig) : Nat → PcapBlockStore → Bytes → PcapBlockStore × Int
  | 0, b, _ => (b, 0)
  | fuel + 1, b, rest =>
    if rest = [] then (b, 0)
    else
      let r := addRestoreChunk cfg.toConfig 0 true b (rest.take 1000) none
      if r.ret ≠ 0 then (r.store, r.ret) else readBlock cfg fuel r.store (rest.drop 1000)

def flush (f : FileStore) (filePosition : Nat) : FileStore :=
  if f.fileSizeFlushed ≤ filePosition then
    { f with
      fileSizeFlushed := f.fileSize
      visible := if f.pushOpen then f.content.length else f.visible }
  else f

/-- The reading handle is closed when every block of a full store has been read. -/
def closePop (cfg : QueueConfig) (now : Nat) (f : FileStore) : FileStore :=
  if f.countPop = f.countPush then
    let g := f.isFull cfg now false
    if g.2 then { g.1 with popOpen := false } else g.1
  else f

/-- `pop` reads a block back. -/
def pop (cfg : QueueConfig) (now : Nat) (f : FileStore) (b : QueuedBlock) :
    FileStore × Option PcapBlockStore :=
  if b.idFileStore = 0 then (f, none)
  else
    let f := { f with popOpen := true }.flush b.filePosition
    let file := (f.content.take f.visible).drop b.filePosition
    let r := readBlock cfg (file.length + 1) (destroyRestoreBuffer b.store) file
    ({ f with countPop := f.countPop + 1 }.closePop cfg now,
      if r.2 > 0 then some (destroyRestoreBuffer r.1) else none)

end FileStore

/-- A block that was pushed or popped, and whether it went to a file. -/
structure PassedBlock where
  spooled : Bool
  store : PcapBlockStore
deriving DecidableEq, Repr

/-- The queue, and the block that a running `pop` has taken from it. `accepted`, `popped` and
`failed` record the blocks of the successful calls of `push`, those of the successful calls of
`pop`, and how many calls of `pop` were unsuccessful. -/
structure QueueState where
  queueStore : List QueuedBlock := []
  fileStore : List FileStore := []
  lastFileStoreId : Nat := 0
  cleanupFileStoreCounter : Nat := 0
  popping : Option QueuedBlock := none
  accepted : List PassedBlock := []
  popped : List PassedBlock := []
  failed : Nat := 0

/-- The surroundings of a call of `push`: whether there is memory at each of the two tests,
whether none is used, the times of the two calls of `isFull`, and the save buffer's
environment and room. -/
structure PushEnv where
  memory : Bool := true
  memoryAgain : Bool := true
  forceSetFull : Bool := false
  nowLast : Nat := 0
  nowNew : Nat := 0
  room : Option Nat := none
  save : SaveEnv := {}

def getFileStoreUseSize (fileStore : List FileStore) : Nat :=
  (fileStore.map FileStore.fileSize).sum

def nextFileStoreId (lastFileStoreId : Nat) : Nat :=
  let id := (lastFileStoreId + 1) % 2 ^ 32
  if id = 0 then 1 else id

def onLast {α : Type} (f : FileStore → FileStore × α) (fileStore : List FileStore) :
    Option (List FileStore × α) :=
  match fileStore.getLast? with
  | none => none
  | some last =>
    let r := f last
    some (fileStore.dropLast ++ [r.1], r.2)

/-- The first part of `push`: whether the block goes to a file store. -/
def chooseFileStore (cfg : QueueConfig) (e : PushEnv) (s : QueueState) : QueueState × Bool :=
  if cfg.diskBuffer = false then (s, false)
  else if e.memory = false then (s, true)
  else
    match onLast (FileStore.isFull cfg e.nowLast e.forceSetFull) s.fileStore with
    | none => (s, false)
    | some (fileStore, full) => ({ s with fileStore := fileStore }, !full)

def openFileStore (cfg : QueueConfig) (e : PushEnv) (s : QueueState) : QueueState :=
  let r := match onLast (FileStore.isFull cfg e.nowNew false) s.fileStore with
    | none => (s.fileStore, true)
    | some r => r
  let s := { s with fileStore := r.1 }
  if r.2 then
    let id := nextFileStoreId s.lastFileStoreId
    { s with
      lastFileStoreId := id
      fileStore := s.fileStore ++ [{ id := id, timestampMS := e.nowNew }] }
  else s

/-- The end of a successful `push`. -/
def enqueue (s : QueueState) (passed : PassedBlock) (b : QueuedBlock) : QueueState :=
  { s with queueStore := s.queueStore ++ [b], accepted := s.accepted ++ [passed] }

def push (cfg : QueueConfig) (e : PushEnv) (s : QueueState) (b : PcapBlockStore) : QueueState :=
  let (s, saveToFileStore) := chooseFileStore cfg e s
  if saveToFileStore then
    if getFileStoreUseSize s.fileStore > cfg.storeQueueMaxDiskSize then s
    else
      let s := openFileStore cfg e s
      match onLast (fun f => f.push cfg e.save e.room { store := b }) s.fileStore with
      | some (fileStore, some q) => enqueue { s with fileStore := fileStore } ⟨true, b⟩ q
      | some (fileStore, none) => { s with fileStore := fileStore }
      | none => s
  else if e.memoryAgain then enqueue s ⟨false, b⟩ { store := b }
  else s

/-- The first part of `pop`: the block is taken from the queue. -/
def popTake (s : QueueState) : Option QueueState :=
  match s.popping, s.queueStore with
  | none, b :: queueStore => some { s with popping := some b, queueStore := queueStore }
  | _, _ => none

def cleanupFileStore (fileStore : List FileStore) : List FileStore :=
  fileStore.dropWhile FileStore.isForDestroy

/-- The end of a successful `pop`. -/
def finishPop (s : QueueState) (spooled : Bool) (b : PcapBlockStore) : QueueState :=
  let counter := s.cleanupFileStoreCounter + 1
  { s with
    popping := none
    popped := s.popped ++ [⟨spooled, b⟩]
    cleanupFileStoreCounter := counter
    fileStore := if counter % 100 = 0 then cleanupFileStore s.fileStore else s.fileStore }

def findFileStoreById (fileStore : List FileStore) (id : Nat) : Option FileStore :=
  fileStore.find? (fun f => f.id = id)

/-- The file stores after a change of the one that `findFileStoreById` finds. -/
def replaceFileStore (id : Nat) (g : FileStore) : List FileStore → List FileStore
  | [] => []
  | f :: fileStore =>
    if f.id = id then g :: fileStore else f :: replaceFileStore id g fileStore

/-- The end of an unsuccessful `pop`: the block is deleted. -/
def failPop (s : QueueState) : QueueState := { s with popping := none, failed := s.failed + 1 }

/-- The rest of `pop`; it has no result while the block's store is not full. -/
def popFinish (cfg : QueueConfig) (now : Nat) (s : QueueState) : Option QueueState :=
  match s.popping with
  | none => none
  | some b =>
    if b.idFileStore = 0 then some (finishPop s false b.store)
    else
      match findFileStoreById s.fileStore b.idFileStore with
      | none => some (failPop s)
      | some f =>
        if f.full = false then none
        else
          let r := f.pop cfg now b
          let s := { s with fileStore := replaceFileStore b.idFileStore r.1 s.fileStore }
          match r.2 with
          | some store => some (finishPop s true store)
          | none => some (failPop s)

/-- The steps of the queue. A `pop` that has taken its block may wait while blocks are pushed. -/
inductive QueueAct where
  | push (e : PushEnv) (b : PcapBlockStore)
  | popTake
  | popFinish (now : Nat)

def queueStep (cfg : QueueConfig) (s : QueueState) : QueueAct → Option QueueState
  | .push e b => some (push cfg e s b)
  | .popTake => popTake s
  | .popFinish now => popFinish cfg now s

def queueRun (cfg : QueueConfig) : QueueState → List QueueAct → Option QueueState :=
  run (queueStep cfg)

/-!
## The consumer of the queue (`pcap_store_queue::pop`, `writeThreadFunction` in `pcap_queue.cpp`)

`writeThreadFunction` calls `pop(&blockStore)` and looks only at the pointer that is left in its
variable, not at the result of the call.
-/

/-- What the pointer of the caller is after `pop`. A block that was deleted is `released`. -/
inductive Pointer where
  | null
  | live (b : PcapBlockStore)
  | released
deriving DecidableEq, Repr

/-- The rest of `pop` with its result and the pointer it leaves. A failed `pop` deletes the block
and does not reset the pointer. -/
def popResult (cfg : QueueConfig) (now : Nat) (s : QueueState) :
    Option (QueueState × Bool × Pointer) :=
  match s.popping with
  | none => none
  | some b =>
    if b.idFileStore = 0 then some (finishPop s false b.store, true, .live b.store)
    else
      match findFileStoreById s.fileStore b.idFileStore with
      | none => some (failPop s, false, .released)
      | some f =>
        if f.full = false then none
        else
          let r := f.pop cfg now b
          let s := { s with fileStore := replaceFileStore b.idFileStore r.1 s.fileStore }
          match r.2 with
          | some store => some (finishPop s true store, true, .live store)
          | none => some (failPop s, false, .released)

/-- The queue and the thread. `blockStore` is the variable of the thread after a `pop` has
returned, and `written` the pointers whose blocks it has processed. -/
structure Writer where
  queue : QueueState := {}
  blockStore : Option Pointer := none
  written : List Pointer := []

/-- The steps of the queue and the thread; `disk` changes what a file store can read of its
file. -/
inductive WriterAct where
  | push (e : PushEnv) (b : PcapBlockStore)
  | disk (id : Nat) (content : Bytes)
  | popTake
  | popEmpty
  | popReturn (now : Nat)
  | write

def damage (id : Nat) (content : Bytes) (f : FileStore) : FileStore :=
  if f.id = id then { f with content := content, visible := content.length } else f

/-- One step; one that is not possible changes nothing. -/
def writerStep (cfg : QueueConfig) (w : Writer) : WriterAct → Writer
  | .push e b => { w with queue := push cfg e w.queue b }
  | .disk id content =>
    { w with queue := { w.queue with fileStore := w.queue.fileStore.map (damage id content) } }
  | .popTake =>
    match w.blockStore, popTake w.queue with
    | none, some queue => { w with queue := queue }
    | _, _ => w
  | .popEmpty =>
    if w.blockStore = none ∧ w.queue.popping = none ∧ w.queue.queueStore = [] then
      { w with blockStore := some .null }
    else w
  | .popReturn now =>
    match w.blockStore, popResult cfg now w.queue with
    | none, some (queue, _, p) => { w with queue := queue, blockStore := some p }
    | _, _ => w
  | .write =>
    match w.blockStore with
    | none => w
    -- `if(blockStore)`
    | some .null => { w with blockStore := none }
    | some p => { w with blockStore := none, written := w.written ++ [p] }

end VoipMonitor.StoreQueue
