import VoipMonitor.Library.Runs
import VoipMonitor.Library.Search
import VoipMonitor.Model.BlockStore

/-!
# The receiver of mirrored blocks (`PcapQueue_readFromFifo::threadFunction`, `pcap_queue.cpp`)

A connection is read in pieces of at most 1000 bytes. Until the title of a block is seen the
thread is in the state `syncBeginBlock`, in which it keeps the bytes of the previous read only;
after that every piece goes through `addRestoreChunk`. Restored blocks are checked, confirmed
and pushed to `pcapStoreQueue`.
-/

namespace VoipMonitor.BlockStore
open VoipMonitor.Library

/-! ## The loop over one buffer -/

inductive Outcome where
  | done
  | failed (error : String)
  | outOfFuel
deriving DecidableEq, Repr

/-- The variables of the loop over `addRestoreChunk`. `ext` is what the loop does with restored
blocks; `rets` records the values returned so far. -/
structure LoopState (σ : Type) where
  store : PcapBlockStore := {}
  offset : Nat := 0
  ext : σ
  countErrors : Nat := 0
  rets : List Int := []

def errorString (errorCode : Int) : String :=
  if errorCode = -1 then "bad size / offset"
  else if errorCode = -2 then "too big"
  else if errorCode = -3 then "missing / bad block id"
  else if errorCode = -4 then "oversize"
  else if errorCode = -5 then "bad checksum"
  else if errorCode = -6 then "bad version - sender and receiver must be the same version"
  else if errorCode = -7 then "too different time between sender and receiver"
  else "unknow error"

/-- The text of an error: `addRestoreChunk` writes the one about the time itself. -/
def restoreError (now : Nat) (b : PcapBlockStore) (errorCode : Int) : String :=
  if errorCode = -7 then
    let h := headerOf b.restoreBuffer
    let sensorId := Int.bmod h.sensorId (2 ^ 16)
    "Time difference between mirror receiver and sender (id_sensor:" ++
      (if sensorId > 0 then toString sensorId else "local") ++ ") is too big (" ++
      toString (timeDiff h.timeS now) ++ "s) - data cannot be received. Please synchronise " ++
      "time on both mirror receiver and sender. Or increase configuration parameter " ++
      "receive_packetbuffer_maximum_time_diff_s on mirror receiver."
  else errorString errorCode

/-- `while(offsetBuffer < bufferLen)`: `accept` handles a restored block at a given offset and
returns the block store for the next one, or an error. -/
def restoreLoop {σ : Type} (cfg : Config) (clock : Nat → Nat)
    (accept : Nat → σ → PcapBlockStore → σ × Except String PcapBlockStore) (buffer : Bytes) :
    Nat → LoopState σ → LoopState σ × Outcome
  | 0, st => (st, if st.offset < buffer.length then .outOfFuel else .done)
  | fuel + 1, st =>
    if st.offset < buffer.length then
      let now := clock st.offset
      let r := addRestoreChunk cfg now false st.store buffer (some st.offset)
      let st := { st with store := r.store, offset := r.offset.getD 0, rets := st.rets ++ [r.ret] }
      if r.ret > 0 then
        match accept st.offset st.ext r.store with
        | (ext, .ok store) =>
          restoreLoop cfg clock accept buffer fuel
            { st with store := store, ext := ext, countErrors := 0 }
        | (ext, .error error) => ({ st with ext := ext }, .failed error)
      else if r.ret < 0 then (st, .failed (restoreError now r.store r.ret))
      else
        restoreLoop cfg clock accept buffer fuel
          { st with offset := buffer.length, countErrors := 0 }
    else (st, .done)

def collect (_ : Nat) (blocks : List BlockContent) (b : PcapBlockStore) :
    List BlockContent × Except String PcapBlockStore :=
  (blocks ++ [b.toBlockContent], .ok {})

/-- The loop over one chunk after another; `clock j` is the time while the `j`-th one is
consumed. -/
def consumeChunks {σ : Type} (cfg : Config) (clock : Nat → Nat → Nat)
    (accept : Nat → σ → PcapBlockStore → σ × Except String PcapBlockStore) :
    Nat → LoopState σ → List Bytes → LoopState σ × Outcome
  | _, st, [] => (st, .done)
  | j, st, chunk :: chunks =>
    match restoreLoop cfg (clock j) accept chunk chunk.length { st with offset := 0 } with
    | (st, .done) => consumeChunks cfg clock accept (j + 1) st chunks
    | r => r

/-! ## Checks of a restored block -/

/-- `check_offsets` for a block with packets; `checkOffsetsReads` has what is read. -/
def checkOffsets (b : BlockContent) : Bool :=
  (List.range (b.offsets.length - 1)).all
      (fun i => decide (b.offsets.getD i 0 < b.offsets.getD (i + 1) 0)) &&
    decide (b.offsets.getD (b.offsets.length - 1) 0 < b.size)

/-- The checks of the packet header at offset `o`, with the text of the error. -/
def checkHeader (block : Bytes) (o : Nat) : Option String :=
  let caplen := leNat (slice block (o + 8) 4)
  let headerIpOffset := leNat (slice block (o + 26) 2)
  if caplen > 65535 then some ("caplen = " ++ toString caplen)
  else if headerIpOffset > 1000 then some ("header_ip_offset = " ++ toString headerIpOffset)
  else none

def checkHeaders (b : BlockContent) : Option String :=
  b.offsets.findSome? (checkHeader b.block)

/-! ## One connection -/

/-- What the connection has done with the blocks: the counter of the last one pushed, the
confirmation mode of the first one, the queue, and the texts sent back. `restored` records the
blocks that were restored and passed every check. -/
structure Connection where
  blockCounter : Nat := 0
  requireConfirmation : Option Bool := none
  pcapStoreQueue : List BlockContent := []
  restored : List BlockContent := []
  sent : List String := []

/-- The branch `rsltAddRestoreChunk > 0`. `sendOk` says whether `send` writes all eight bytes. -/
def acceptBlock (sendOk : Bool) (c : Connection) (b : PcapBlockStore) :
    Connection × Except String PcapBlockStore :=
  if checkOffsets b.toBlockContent = false then (c, .error "bad offsets")
  else
    match if b.sizeCompress = 0 then checkHeaders b.toBlockContent else none with
    | some error => (c, .error ("bad headers" ++ " - " ++ error))
    | none =>
      let confirm := c.requireConfirmation.getD b.requireConfirmation
      let c := { c with requireConfirmation := some confirm }
      if confirm ∧ sendOk = false then (c, .error "send ok to sender failed")
      else
        let c := { c with
          sent := if confirm then c.sent ++ ["block_ok"] else c.sent
          restored := c.restored ++ [b.toBlockContent] }
        if c.blockCounter = b.blockCounter then (c, .ok (destroyRestoreBuffer b))
        else
          ({ c with
            blockCounter := b.blockCounter
            pcapStoreQueue := c.pcapStoreQueue ++ [b.toBlockContent] }, .ok {})

/-! ## The handshake texts -/

def sensorIdNameString : Bytes :=
  [115, 101, 110, 115, 111, 114, 95, 105, 100, 95, 110, 97, 109, 101, 58, 32]

def sensorTimeString : Bytes := [115, 101, 110, 115, 111, 114, 95, 116, 105, 109, 101, 58, 32]

def isText (c : UInt8) : Bool := 32 ≤ c.toNat && c.toNat < 128

/-- The digits at the start of a text. -/
def digits : Nat → Bytes → Nat
  | n, [] => n
  | n, c :: b => if 48 ≤ c.toNat ∧ c.toNat ≤ 57 then digits (10 * n + (c.toNat - 48)) b else n

def atoi (b : Bytes) : Int :=
  match b.dropWhile (fun c => c = 32 ∨ (9 ≤ c.toNat ∧ c.toNat ≤ 13)) with
  | [] => 0
  | c :: b =>
    if c = 45 then -(digits 0 b : Int) else if c = 43 then digits 0 b else digits 0 (c :: b)

/-- The characters after the first one of `id:name`: the name so far and whether it is ended by
a null byte. -/
def scanSensorName : Bool → Bytes → Bytes → Bytes × Bool
  | _, name, [] => (name, false)
  | separator, name, c :: b =>
    if c = 0 then (name, separator)
    else if isText c then
      if separator then scanSensorName true (name ++ [c]) b
      else scanSensorName (c = 58) name b
    else (name, false)

/-- The characters of the time up to the null byte, and whether the null byte is there. -/
def scanSensorTime : Bytes → Bytes × Bool
  | [] => ([], false)
  | c :: b =>
    if c = 0 then ([], true)
    else if isText c then
      let r := scanSensorTime b
      (c :: r.1, r.2)
    else ([], false)

/-! ## The thread -/

/-- The settings of the receiver. `diskBuffer` says that blocks may be spooled to disk. -/
structure ReceiverConfig extends Config where
  connectMaximumTimeDiffS : Nat := 2
  diskBuffer : Bool := false

/-- The surroundings of one read: the fill of the heap, the time of the receiver when it
compares the sensor's time and at each call of `addRestoreChunk`, and the results of `send`. -/
structure ReadEnv where
  heapPerc : Rat := 0
  time : Nat := 0
  clock : Nat → Nat := fun _ => 0
  sendOk : Nat → Bool := fun _ => true

/-- The variables of the thread of one connection. `buffer` holds the first
`offsetBufferSyncRead` bytes of the source's buffer, which is also `bufferLen` at the start of a
read. `received` counts the bytes read so far and `syncedAt` records the positions in the stream
at which a title was found. -/
structure Receiver where
  syncBeginBlock : Bool := true
  forceStop : Bool := false
  countErrors : Nat := 0
  counterEmptyData : Nat := 0
  buffer : Bytes := []
  sensorId : Int := 0
  sensorName : Bytes := []
  sensorTime : Bytes := []
  detectSensorName : Bool := false
  detectSensorTime : Bool := false
  sensorsMap : List (Int × Bytes) := []
  blockStore : PcapBlockStore := {}
  connection : Connection := {}
  received : Nat := 0
  syncedAt : List Nat := []

def Receiver.send (st : Receiver) (message : String) : Receiver :=
  { st with connection := { st.connection with sent := st.connection.sent ++ [message] } }

def detectSensorName (st : Receiver) (window : Bytes) : Receiver :=
  if st.detectSensorName then st
  else
    match memmem window sensorIdNameString with
    | none => st
    | some i =>
      let text := window.drop (i + sensorIdNameString.length)
      let scan :=
        match text with
        | [] => ([], false)
        | c :: b => if isText c then scanSensorName false [] b else ([], false)
      let sensorId := if (text.head?.map isText).getD false then atoi text else st.sensorId
      let st := { st with sensorId := sensorId, sensorName := scan.1 }
      if sensorId > 0 ∧ scan.1 ≠ [] ∧ scan.2 then
        { st with
          sensorsMap := st.sensorsMap ++ [(sensorId, scan.1)]
          detectSensorName := true }
      else st

def sensorTimeDiff (sensorTimeSec : Int) (now : Nat) : Nat :=
  ((now : Int) - sensorTimeSec).natAbs % (3600 / 2)

/-- The part of the time text that a window shows: what follows its first `sensor_time: `. -/
def windowTime (window : Bytes) : Bytes × Bool :=
  match memmem window sensorTimeString with
  | none => ([], false)
  | some i => scanSensorTime (window.drop (i + sensorTimeString.length))

/-- The search for `sensor_time: `. The text is appended to what earlier windows gave. -/
def detectSensorTime (cfg : ReceiverConfig) (stringToTime : Bytes → Int) (now : Nat)
    (st : Receiver) (window : Bytes) : Receiver :=
  if st.detectSensorTime then st
  else
    let text := windowTime window
    let sensorTime := st.sensorTime ++ text.1
    let st := { st with sensorTime := sensorTime }
    if sensorTime ≠ [] ∧ text.2 then
      if sensorTimeDiff (stringToTime sensorTime) now > cfg.connectMaximumTimeDiffS then
        { st.send "bad time" with forceStop := true }
      else { st.send "ok" with detectSensorTime := true }
    else st

/-- The restore loop over `buffer` and the error handling after it. -/
def restoreBuffer (cfg : ReceiverConfig) (env : ReadEnv) (st : Receiver) (buffer : Bytes) :
    Receiver :=
  let (l, outcome) := restoreLoop cfg.toConfig env.clock (fun o => acceptBlock (env.sendOk o))
    buffer buffer.length
    { store := st.blockStore, ext := st.connection, countErrors := st.countErrors }
  let st := { st with
    blockStore := l.store, connection := l.ext, countErrors := l.countErrors, buffer := [] }
  match outcome with
  | .failed error =>
    { st.send error with
      blockStore := destroyRestoreBuffer st.blockStore
      syncBeginBlock := true
      countErrors := st.countErrors + 1
      forceStop := decide (st.countErrors + 1 > 20) }
  | _ => st

/-- The branch `syncBeginBlock` for the kept bytes and the new ones. -/
def syncBlock (cfg : ReceiverConfig) (stringToTime : Bytes → Int) (env : ReadEnv) (st : Receiver)
    (data : Bytes) : Receiver :=
  let window := st.buffer ++ data
  let st := detectSensorName st window
  let st := detectSensorTime cfg stringToTime env.time st window
  if st.forceStop then st
  else
    match memmem window headerString with
    | some i =>
      restoreBuffer cfg env
        { st with
          syncBeginBlock := false
          blockStore := destroyRestoreBuffer st.blockStore
          syncedAt := st.syncedAt ++ [st.received + data.length - window.length + i] }
        (window.drop i)
    | none => { st with buffer := data }

/-- One round of the thread with the bytes `data` that `socketRead` gave. -/
def receive (cfg : ReceiverConfig) (stringToTime : Bytes → Int) (env : ReadEnv) (st : Receiver)
    (data : Bytes) : Receiver :=
  if st.forceStop then st
  else if cfg.diskBuffer = false ∧ env.heapPerc > 90 then { st with forceStop := true }
  else if data = [] then
    let counterEmptyData := st.counterEmptyData + 1
    { st with counterEmptyData, forceStop := decide (counterEmptyData > 300) }
  else
    let st := { st with counterEmptyData := 0 }
    let st :=
      if st.syncBeginBlock then syncBlock cfg stringToTime env st data
      else restoreBuffer cfg env st data
    { st with received := st.received + data.length }

/-- The reads of a connection; `env k` are the surroundings of the `k`-th one. -/
def receiveFrom (cfg : ReceiverConfig) (stringToTime : Bytes → Int) (env : Nat → ReadEnv) :
    Nat → Receiver → List Bytes → Receiver
  | _, st, [] => st
  | k, st, data :: reads =>
    receiveFrom cfg stringToTime env (k + 1) (receive cfg stringToTime (env k) st data) reads

/-!
## Sender and receiver of mirrored blocks (`socketWritePcapBlock`, `pcap_queue.cpp`)

The sender writes a save buffer, waits at most four seconds for an answer and writes it again
until the answer is `block_ok`. A broken connection is noticed when writing; the sender connects
again and the receiver starts with a new `sPacketServerConnection`. Save buffers and answers are
messages here; what the receiver does with a save buffer is `acceptBlock`.
-/

/-- A save buffer under way. `id` tells the calls of `socketWritePcapBlock` apart; it is not part
of the buffer. -/
structure Message where
  id : Nat
  content : BlockContent
  counter : Nat
deriving DecidableEq, Repr

def Message.store (m : Message) : PcapBlockStore :=
  { m.content with
    blockCounter := m.counter
    requireConfirmation := true
    restoreBuffer := [] }

inductive Answer where
  | blockOk
  | error (text : String)
deriving DecidableEq, Repr

/-- A connection: the save buffers and the answers under way on it and the receiver's state. -/
structure Link where
  messages : List Message := []
  answers : List Answer := []
  connection : Connection := {}

/-- The sender and the receiver. `pending` is the block of the running call and `writing` says
that its save buffer is to be written next; `returned` are the blocks whose calls have returned
and `queue` is what the receiver has pushed. -/
structure MirrorState where
  blockCounter : Nat := 0
  nextId : Nat := 0
  pending : Option Message := none
  writing : Bool := false
  returned : List Message := []
  link : Link := {}
  oldLinks : List Link := []
  queue : List Message := []

inductive MirrorAct where
  /-- `socketWritePcapBlock` is called. -/
  | start (content : BlockContent)
  /-- A copy is written on the connection. -/
  | write
  /-- Writing fails and the sender connects again. It goes on at the byte where it failed, so
  that the new connection has the whole copy or an unusable rest. -/
  | reconnect (whole : Bool)
  /-- The receiver restores the next save buffer. -/
  | receive (sendOk : Bool)
  /-- A thread of an earlier connection does. -/
  | receiveOld (i : Nat) (sendOk : Bool)
  /-- `addRestoreChunk` refuses the next save buffer. -/
  | refuse (errorCode : Int)
  /-- The next save buffer is lost while the receiver looks for a title. -/
  | lose
  /-- Bytes between save buffers are refused. -/
  | complain (errorCode : Int)
  /-- The sender reads `n + 1` answers at once. -/
  | read (n : Nat)
  /-- The sender's read fails or times out. -/
  | noAnswer

/-- What the receiver makes of a save buffer: the connection, the answers and whether the block
was pushed. -/
def receiveMessage (sendOk : Bool) (c : Connection) (m : Message) :
    Connection × List Answer × Bool :=
  let r := acceptBlock sendOk { c with pcapStoreQueue := [], sent := [] } m.store
  (r.1, r.1.sent.map (fun _ => Answer.blockOk) ++
    (match r.2 with
    | .error error => [Answer.error error]
    | .ok _ => []), r.1.pcapStoreQueue ≠ [])

def Link.receive (l : Link) (sendOk : Bool) : Option (Link × List Message) :=
  match l.messages with
  | [] => none
  | m :: messages =>
    let r := receiveMessage sendOk l.connection m
    some ({ messages := messages, answers := l.answers ++ r.2.1, connection := r.1 },
      if r.2.2 then [m] else [])

def mirrorStep (s : MirrorState) : MirrorAct → Option MirrorState
  | .start content =>
    if s.pending.isSome then none
    else
      let blockCounter := (s.blockCounter + 1) % 2 ^ 32
      some { s with
        blockCounter := blockCounter
        nextId := s.nextId + 1
        pending := some ⟨s.nextId, content, blockCounter⟩
        writing := true }
  | .write =>
    match s.pending, s.writing with
    | some m, true =>
      some { s with
        link := { s.link with messages := s.link.messages ++ [m] }
        writing := false }
    | _, _ => none
  | .reconnect whole =>
    match s.pending, s.writing with
    | some m, true =>
      some { s with
        oldLinks := s.link :: s.oldLinks
        link := { messages := if whole then [m] else [] }
        writing := false }
    | _, _ => none
  | .receive sendOk =>
    (s.link.receive sendOk).map
      (fun r => { s with link := r.1, queue := s.queue ++ r.2 })
  | .receiveOld i sendOk =>
    match s.oldLinks[i]? with
    | none => none
    | some l =>
      (l.receive sendOk).map
        (fun r => { s with oldLinks := s.oldLinks.set i r.1, queue := s.queue ++ r.2 })
  | .refuse errorCode =>
    match s.link.messages with
    | [] => none
    | _ :: messages =>
      some { s with
        link := { s.link with
          messages := messages
          answers := s.link.answers ++ [.error (errorString errorCode)] } }
  | .lose =>
    match s.link.messages with
    | [] => none
    | _ :: messages => some { s with link := { s.link with messages := messages } }
  | .complain errorCode =>
    some { s with
      link := { s.link with answers := s.link.answers ++ [.error (errorString errorCode)] } }
  | .read n =>
    match s.pending, s.writing, s.link.answers with
    | some m, false, answer :: answers =>
      let link := { s.link with answers := answers.drop n }
      if answer = .blockOk then
        some { s with link := link, pending := none, returned := s.returned ++ [m] }
      else some { s with link := link, writing := true }
    | _, _, _ => none
  | .noAnswer =>
    match s.pending, s.writing with
    | some _, false => some { s with writing := true }
    | _, _ => none

def mirrorRun : MirrorState → List MirrorAct → Option MirrorState := run mirrorStep

end VoipMonitor.BlockStore
