import VoipMonitor.Library.Bytes
import VoipMonitor.Library.Loops
import VoipMonitor.Library.SortedMap

/-!
# The packets of a TCP stream (`TcpReassemblyStream`, `tcpreassembly.cpp`)

The packets with one acknowledge number are a stream. `ok` looks for a row of packets that follow
one another up to a given sequence number, and `complete` puts their data together. Sequence
numbers are numbers below `2 ^ 32`. The functions are those of SIP.
-/

namespace VoipMonitor.Tcp
open VoipMonitor.Library

/-! ## Sequence numbers -/

/-- `TCP_SEQ_IS_ROT`. -/
def seqIsRot (seq1 seq2 : Nat) : Bool := seq1 > 0xFFFF0000 && seq2 < 0xFFFF

/-- `TCP_SEQ_CMP`. -/
def seqCmp (seq1 seq2 : Nat) : Int :=
  if seq1 > seq2 then if seqIsRot seq1 seq2 then -1 else 1
  else if seq2 > seq1 then if seqIsRot seq2 seq1 then 1 else -1
  else 0

/-- `TCP_SEQ_SUB`. -/
def seqSub (seq1 seq2 : Nat) : Nat :=
  if seqIsRot seq1 seq2 then add32 (sub32 0xFFFFFFFF seq1) seq2 else sub32 seq1 seq2

/-! ## Packets -/

inductive PacketState where
  | na | check | fail
deriving DecidableEq, Repr

/-- `TcpReassemblyStream_packet`; `data` is the captured part of the `datalen` bytes. -/
structure StreamPacket where
  seq : Nat
  nextSeq : Nat
  psh : Bool
  data : Bytes
  datalen : Nat
  isSip : Bool
  state : PacketState
deriving DecidableEq, Repr

def StreamPacket.setData (seq : Nat) (psh : Bool) (data : Bytes) (datalen : Nat) (isSip : Bool) :
    StreamPacket :=
  { seq := seq, nextSeq := add32 seq datalen, psh := psh, data := data, datalen := datalen
    isSip := isSip, state := .na }

/-- `TcpReassemblyStream_packet_var`: the packets with one sequence number, in the order of their
ends. -/
structure PacketVar where
  queuePackets : List (Nat × StreamPacket)
  offset : Nat
deriving DecidableEq, Repr

def seqLt (a b : Nat) : Bool := decide (a < b)

namespace PacketVar

def empty : PacketVar := ⟨[], 0⟩

/-- A packet that is there already is replaced only when it has no data to show. -/
def push (v : PacketVar) (p : StreamPacket) : PacketVar :=
  let take := match SortedMap.get p.nextSeq v.queuePackets with
    | none => true
    | some old => old.datalen ≠ 0 && old.data.head? = some 0 && p.datalen ≠ 0 && p.data.head? ≠ some 0
  if take then { v with queuePackets := SortedMap.set seqLt p.nextSeq p v.queuePackets } else v

/-- The end of the first packet that may still be used, or 0. -/
def getNextSeqCheck (v : PacketVar) : Nat :=
  match v.queuePackets.find? (fun e => e.2.datalen ≠ 0 && e.2.state ≠ .fail) with
  | some e => e.2.nextSeq
  | none => 0

def isFail (v : PacketVar) : Bool := v.queuePackets.all (fun e => e.2.state = .fail)

def cleanState (v : PacketVar) : PacketVar :=
  { v with queuePackets := v.queuePackets.map (fun e => (e.1, { e.2 with state := .na })) }

def getMaxNextSeq (v : PacketVar) : Nat :=
  (v.queuePackets.foldl (fun (m : Option Nat) e =>
    match m with
    | none => some e.2.nextSeq
    | some m => some (if seqCmp e.2.nextSeq m > 0 then e.2.nextSeq else m)) none).getD 0

def setState (v : PacketVar) (nextSeq : Nat) (state : PacketState) : PacketVar :=
  { v with queuePackets :=
      SortedMap.update nextSeq (fun p => { p with state := state }) v.queuePackets }

end PacketVar

/-! ## Streams -/

/-- The options of `TcpReassembly` that the stream reads. `mapEnd` is what is read at the end of a
map. -/
structure StreamConfig where
  completeMod : Nat
  enableSmartCompleteData : Bool
  ignoreZeroData : Bool
  maxReassemblyAttempts : Int
  mapEnd : Nat

structure IndexItem where
  seq : Nat
  nextSeq : Nat
  len : Nat
deriving DecidableEq, Repr

/-- `complete_data`: its bytes and the sequence number of the first packet. -/
structure CompleteData where
  data : Bytes
  seq : Nat
deriving DecidableEq, Repr

abbrev PacketVars := List (Nat × PacketVar)

/-- `TcpReassemblyStream`. -/
structure Stream where
  ack : Nat
  toDest : Bool
  firstSeq : Nat
  lastSeq : Nat
  minSeq : Nat
  maxNextSeq : Nat
  queuePacketVars : PacketVars
  okPackets : List (Nat × Nat)
  isOk : Bool
  existsData : Bool
  completeData : Option CompleteData
  completeDataIndex : List IndexItem
  counterTryOk : Int
deriving DecidableEq, Repr

namespace Stream

/-- The constructor, with the fields that `pushpacket` sets. -/
def new (ack : Nat) (toDest : Bool) : Stream :=
  { ack := ack, toDest := toDest, firstSeq := 0, lastSeq := 0, minSeq := 0, maxNextSeq := 0
    queuePacketVars := [], okPackets := [], isOk := false, existsData := false
    completeData := none, completeDataIndex := [], counterTryOk := 0 }

def clearCompleteData (s : Stream) : Stream :=
  { s with completeData := none, completeDataIndex := [] }

def getDatalen (s : Stream) : Nat := (s.completeData.map (fun d => d.data.length)).getD 0

def getData (s : Stream) : Bytes := (s.completeData.map (fun d => d.data)).getD []

def push (cfg : StreamConfig) (s : Stream) (p : StreamPacket) : Stream :=
  let s := if cfg.enableSmartCompleteData then { s.clearCompleteData with isOk := false } else s
  let v := (SortedMap.get p.seq s.queuePacketVars).getD .empty
  { s with
    queuePacketVars := SortedMap.set seqLt p.seq (v.push p) s.queuePacketVars
    existsData := s.existsData || p.datalen ≠ 0 }

def moveBounds (s : Stream) (p : StreamPacket) : Stream :=
  { s with
    minSeq := if s.minSeq = 0 ∨ seqCmp p.seq s.minSeq < 0 then p.seq else s.minSeq
    maxNextSeq := if s.maxNextSeq = 0 ∨ seqCmp p.nextSeq s.maxNextSeq > 0 then p.nextSeq
      else s.maxNextSeq }

def getPacket (s : Stream) (seq nextSeq : Nat) : Option StreamPacket :=
  (SortedMap.get seq s.queuePacketVars).bind (fun v => SortedMap.get nextSeq v.queuePackets)

def getPacketOffset (s : Stream) (seq : Nat) : Nat :=
  ((SortedMap.get seq s.queuePacketVars).map (fun v => v.offset)).getD 0

def updateVar (s : Stream) (seq : Nat) (f : PacketVar → PacketVar) : Stream :=
  { s with queuePacketVars := SortedMap.update seq f s.queuePacketVars }

/-! ## Putting the data together -/

/-- The state of the loop of `complete`; `buffLen` is the size of the buffer, 0 before it is
allocated. -/
structure Completing where
  data : Bytes
  buffLen : Nat
  seq : Nat
  index : List IndexItem
  lastNextSeq : Nat

def reduceIndex (index : List IndexItem) (diff : Nat) : List IndexItem :=
  (index.foldr (fun item (r : List IndexItem × Nat) =>
    if item.len < r.2 then ({ item with len := 0 } :: r.1, r.2 - item.len)
    else ({ item with len := item.len - r.2 } :: r.1, 0)) ([], diff)).1

/-- Bytes that the last packets have in common with the next one are taken off. -/
def cutOverlap (c : Completing) (p : Nat × Nat) : Completing :=
  if c.lastNextSeq > p.1 ∧ c.lastNextSeq < p.2 ∧ c.data.length ≥ c.lastNextSeq - p.1 then
    { c with
      data := c.data.take (c.data.length - (c.lastNextSeq - p.1))
      index := reduceIndex c.index (c.lastNextSeq - p.1) }
  else c

def addBytes (c : Completing) (p : Nat × Nat) (bytes : Bytes) : Option Completing :=
  let buffLen :=
    if c.buffLen = 0 then max (bytes.length + 1) 10000
    else if c.buffLen < c.data.length + bytes.length + 1 then
      c.buffLen + max (bytes.length + 1) 10000
    else c.buffLen
  if c.data.length + bytes.length + 1 ≤ buffLen then
    some { c with
      data := c.data ++ bytes
      buffLen := buffLen
      index := c.index ++ [⟨p.1, p.2, bytes.length⟩] }
  else none

/-- The bytes that a packet gives: what was not captured is filled with blanks, and the first
packet begins behind its offset. -/
def packetBytes (s : Stream) (isFirst : Bool) (p : Nat × Nat) (packet : StreamPacket) : Bytes :=
  let datalen := min packet.datalen packet.data.length
  let offset := s.getPacketOffset p.1
  let offset := if isFirst ∧ 0 < offset ∧ offset < datalen then offset else 0
  slice packet.data offset (datalen - offset) ++
    List.replicate (packet.datalen - datalen) 32

def completeStep (cfg : StreamConfig) (s : Stream) (isFirst : Bool) (c : Completing)
    (p : Nat × Nat) : Option Completing :=
  match s.getPacket p.1 p.2 with
  | none => some c
  | some packet =>
    if packet.datalen ≠ 0 ∧ ¬(cfg.ignoreZeroData ∧ packet.data.head? = some 0) then
      let c := { c with seq := if c.seq = 0 then packet.seq else c.seq }
      let bytes := packetBytes s isFirst p packet
      (if bytes.length > 0 then addBytes (cutOverlap c p) p bytes
        else some (cutOverlap c p)).map (fun c => { c with lastNextSeq := p.2 })
    else some c

def completeLoop (cfg : StreamConfig) (s : Stream) :
    Bool → List (Nat × Nat) → Completing → Option Completing
  | _, [], c => some c
  | isFirst, p :: packets, c =>
    (completeStep cfg s isFirst c p).bind (completeLoop cfg s false packets)

def complete (cfg : StreamConfig) (s : Stream) : Option Completing :=
  completeLoop cfg s true s.okPackets ⟨[], 0, 0, [], 0⟩

def saveCompleteData (cfg : StreamConfig) (s : Stream) : Option Stream :=
  if s.isOk ∧ s.completeData.isNone then
    (complete cfg s).map (fun c =>
      if c.buffLen ≠ 0 then
        { s with completeData := some ⟨c.data, c.seq⟩, completeDataIndex := c.index }
      else s)
  else some s

/-! ## The walk along the packets -/

def setState (s : Stream) (p : Nat × Nat) (state : PacketState) : Stream :=
  s.updateVar p.1 (fun v => v.setState p.2 state)

def failLast (s : Stream) : Stream :=
  match s.okPackets.getLast? with
  | none => s
  | some p => { s.setState p .fail with okPackets := s.okPackets.dropLast }

/-- The local variables of the loop. -/
structure Walk where
  counter : Nat
  waitForPsh : Bool
  forceFirstSeq : Nat
deriving DecidableEq, Repr

/-- The sequence number at which the row goes on. -/
def wantedSeq (s : Stream) (w : Walk) : Nat :=
  match s.okPackets.getLast? with
  | some p => p.2
  | none =>
    let seq := if w.forceFirstSeq ≠ 0 then w.forceFirstSeq
      else if s.firstSeq ≠ 0 then s.firstSeq else s.minSeq
    if (SortedMap.get seq s.queuePacketVars).isNone ∧ seq ≠ 0 ∧ seq = s.firstSeq ∧
        s.minSeq ≠ 0 ∧ s.minSeq ≠ s.firstSeq then s.minSeq
    else seq

/-- The first packets from `seq` on that are not all given up. -/
def nextUsable (vars : PacketVars) (seq : Nat) : Option Nat :=
  (vars.find? (fun e => seq ≤ e.1 && !e.2.isFail)).map (fun e => e.1)

def gapSearch (vars : PacketVars) (prevSeq seq : Nat) : Option Nat :=
  (vars.find? (fun e => prevSeq < e.1 && e.1 < seq)).map (fun e => e.1)

/-- Where the walk goes on: at the packets with the wanted sequence number, with `completeMod` 0
also behind packets that were given up, or else within the last packet of the row. -/
def findVar (cfg : StreamConfig) (s : Stream) (seq : Nat) : Option Nat :=
  let found :=
    if (SortedMap.get seq s.queuePacketVars).isNone then none
    else if cfg.completeMod = 1 then some seq
    else nextUsable s.queuePacketVars seq
  match found, s.okPackets.getLast? with
  | some k, _ => some k
  | none, some p => gapSearch s.queuePacketVars p.1 seq
  | none, none => none

def reachesEnd (s : Stream) (maxNextSeq nextSeq : Nat) : Bool :=
  (maxNextSeq ≠ 0 && nextSeq = maxNextSeq) || (s.lastSeq ≠ 0 && nextSeq = s.lastSeq) ||
    (s.lastSeq ≠ 0 && nextSeq = s.lastSeq - 1) || nextSeq = s.maxNextSeq

inductive Round where
  | done (result : Bool) (s : Stream)
  | next (s : Stream) (w : Walk)
  | broken

def countRound (s : Stream) (w : Walk) : Round :=
  if w.counter + 1 > 500 then .done false s else .next s { w with counter := w.counter + 1 }

/-- The packets at `k` are taken into the row. -/
def takeVar (cfg : StreamConfig) (maxNextSeq : Nat) (ignorePsh : Bool) (s : Stream) (w : Walk)
    (k : Nat) : Round :=
  let nextSeq := ((SortedMap.get k s.queuePacketVars).map PacketVar.getNextSeqCheck).getD 0
  if nextSeq ≠ 0 then
    let s := { s.setState (k, nextSeq) .check with okPackets := s.okPackets ++ [(k, nextSeq)] }
    let psh := ((s.getPacket k nextSeq).map (fun p => p.psh)).getD false
    if (if w.waitForPsh then psh else reachesEnd s maxNextSeq nextSeq) then
      if ¬psh ∧ ¬ignorePsh then countRound s { w with waitForPsh := true }
      else
        match saveCompleteData cfg { s with isOk := true } with
        | none => .broken
        | some s => .done true s
    else countRound s w
  else if s.okPackets ≠ [] then countRound s.failLast w
  else .done false s

/-- One round. With `completeMod` 1 packets that were given up also give up the packet before
them, and the search begins at other packets; such a round is not counted. -/
def okRound (cfg : StreamConfig) (maxNextSeq : Nat) (ignorePsh : Bool) (s : Stream) (w : Walk) :
    Round :=
  let seq := wantedSeq s w
  let failed := ((SortedMap.get seq s.queuePacketVars).map PacketVar.isFail).getD false
  if cfg.completeMod = 1 ∧ failed then
    let s := s.failLast
    .next s (if s.okPackets = [] then
      { w with forceFirstSeq := (nextUsable s.queuePacketVars seq).getD cfg.mapEnd } else w)
  else
    match findVar cfg s seq with
    | none =>
      if s.okPackets = [] then .done (w.counter = 0) s else countRound s.failLast w
    | some k => takeVar cfg maxNextSeq ignorePsh s w k

def okLoop (cfg : StreamConfig) (maxNextSeq : Nat) (ignorePsh : Bool) :
    Nat → Stream → Walk → Option (Bool × Stream)
  | 0, _, _ => none
  | fuel + 1, s, w =>
    match okRound cfg maxNextSeq ignorePsh s w with
    | .done result s => some (result, s)
    | .next s w => okLoop cfg maxNextSeq ignorePsh fuel s w
    | .broken => none

def cleanPacketsState (s : Stream) : Stream :=
  { s with
    queuePacketVars := s.queuePacketVars.map (fun e => (e.1, e.2.cleanState))
    okPackets := [] }

/-- `ok(false, true, maxNextSeq, 0, 0, 0, NULL, enableDebug, forceFirstSeq, ignorePsh)`, which is
how the streams of `simpleByAck` links are checked. The first argument bounds the rounds. -/
def ok (cfg : StreamConfig) (fuel : Nat) (maxNextSeq forceFirstSeq : Nat) (ignorePsh : Bool)
    (s : Stream) : Option (Bool × Stream) :=
  if s.isOk then some (true, s)
  else if s.counterTryOk > cfg.maxReassemblyAttempts then some (true, s)
  else
    let s := { s with counterTryOk := s.counterTryOk + 1 }.cleanPacketsState
    match s.queuePacketVars with
    -- the first packets of an empty queue are read
    | [] => none
    | e :: _ =>
      if e.2.getNextSeqCheck = 0 then some (false, s)
      else okLoop cfg maxNextSeq ignorePsh fuel s ⟨0, false, forceFirstSeq⟩

/-! ## Confirmed data -/

/-- The packets that begin behind the confirmed data are dropped: the rest of the index, the rest
of the row and the length that was dropped. -/
def dropUnconfirmed (datalenConfirmed : Nat) :
    List IndexItem → List (Nat × Nat) → Nat → Nat → List IndexItem × List (Nat × Nat) × Nat
  | [], okPackets, _, dropped => ([], okPackets, dropped)
  | item :: index, okPackets, datalen, dropped =>
    if datalen - dropped > item.len ∧ datalenConfirmed ≤ datalen - dropped - item.len then
      dropUnconfirmed datalenConfirmed index
        (okPackets.reverse.erase (item.seq, item.nextSeq)).reverse datalen (dropped + item.len)
    else (item :: index, okPackets, dropped)

/-- `confirmCompleteData`, with the last sequence number. -/
def confirmCompleteData (s : Stream) (datalenConfirmed : Nat) : Stream × Nat :=
  let datalen := s.getDatalen
  if datalenConfirmed ≠ 0 ∧ datalenConfirmed < datalen then
    let (index, okPackets, dropped) :=
      dropUnconfirmed datalenConfirmed s.completeDataIndex.reverse s.okPackets datalen 0
    let s := { s with completeDataIndex := index.reverse, okPackets := okPackets }
    match index with
    | [] => (s, 0)
    | last :: _ =>
      let rest := datalen - dropped - datalenConfirmed
      if datalenConfirmed < datalen - dropped ∧ rest < last.len ∧
          (SortedMap.get last.seq s.queuePacketVars).isSome then
        (s.updateVar last.seq (fun v => { v with offset := last.len - rest }),
          sub32 last.nextSeq rest)
      else (s, last.nextSeq)
  else (s, 0)

def setDatalen (s : Stream) (datalen : Nat) : Stream :=
  { s with completeData := s.completeData.map (fun d => { d with data := d.data.take datalen }) }

def eraseOkPackets (vars : PacketVars) : List (Nat × Nat) → PacketVars
  | [] => vars
  | p :: packets =>
    match SortedMap.get p.1 vars with
    | none => eraseOkPackets vars packets
    | some v =>
      eraseOkPackets (if packets ≠ [] ∨ v.offset = 0 then SortedMap.erase p.1 vars else vars) packets

def cleanupCompleteData (s : Stream) : Stream :=
  let s :=
    if s.okPackets ≠ [] then
      let vars := (eraseOkPackets s.queuePacketVars s.okPackets).map (fun e => (e.1, e.2.cleanState))
      let s := { s with queuePacketVars := vars, okPackets := [], isOk := false }
      match vars with
      | [] => s
      | e :: _ =>
        { s with
          minSeq := e.1
          maxNextSeq := (vars.foldl (fun (m : Option Nat) e =>
            match m with
            | none => some e.2.getMaxNextSeq
            | some m =>
              some (if seqCmp e.2.getMaxNextSeq m > 0 then e.2.getMaxNextSeq else m)) none).getD 0 }
    else s
  s.clearCompleteData

end Stream

/-!
## Consuming a stream (`okQueue_simple_by_ack`, `complete_simple_by_ack`, `tcpreassembly.cpp`)

With `completeMod` 1 a checker looks at the complete data of the stream after each packet and
confirms some of the first bytes. These are delivered, and what is behind them stays queued. A
stream without packets is deleted.
-/

/-- A part of a byte string that comes with one packet. -/
structure Segment where
  data : Bytes
  psh : Bool
  isSip : Bool
deriving DecidableEq, Repr

namespace Stream

/-- The checker confirms a number of bytes of the complete data, or none: the stream that is left
and the bytes that are delivered. -/
def confirm (cfg : StreamConfig) (s : Stream) (datalenConfirmed : Nat) : Option Stream × Bytes :=
  if datalenConfirmed ≠ 0 then
    let s :=
      if datalenConfirmed < s.getDatalen then
        (s.confirmCompleteData datalenConfirmed).1.setDatalen datalenConfirmed
      else s
    let rest := { s with counterTryOk := 0 }.cleanupCompleteData
    (if rest.queuePacketVars = [] then none else some rest, s.getData)
  else (some (if cfg.enableSmartCompleteData then s
    else { s.clearCompleteData with isOk := false }), [])

end Stream

/-- A packet that is pushed, the end up to which the stream is checked, and the number of bytes that
the checker confirms. The packet is the next segment, or the one that is queued at a sequence
number, with the flags of its retransmission. -/
structure Arrival where
  again : Option (Nat × Bool × Bool)
  maxNextSeq : Nat
  confirmed : Nat

/-- The stream of one acknowledge number, the segments that did not come yet with the sequence
number of the first one, and what was delivered. -/
structure Consumer where
  stream : Option Stream
  rest : List Segment
  nextSeq : Nat
  delivered : Bytes
deriving DecidableEq, Repr

namespace Consumer

def arrive (c : Consumer) (a : Arrival) : Option (StreamPacket × List Segment × Nat) :=
  match a.again with
  | none =>
    match c.rest with
    | [] => none
    | g :: rest =>
      some (.setData c.nextSeq g.psh g.data g.data.length g.isSip, rest, c.nextSeq + g.data.length)
  | some (seq, psh, isSip) =>
    (c.stream.bind (fun s => SortedMap.get seq s.queuePacketVars)).bind (fun v =>
      v.queuePackets.head?.map (fun q =>
        (.setData seq psh q.2.data q.2.datalen isSip, c.rest, c.nextSeq)))

/-- One packet, and the check behind it. The checker confirms at most what it was shown; none is an
arrival that cannot be. -/
def step (cfg : StreamConfig) (fuel : Nat) (toDest : Bool) (ack : Nat) (c : Consumer) (a : Arrival) :
    Option Consumer :=
  (c.arrive a).bind (fun (p, rest, nextSeq) =>
    let s := ((c.stream.getD (.new ack toDest)).push cfg p).moveBounds p
    (s.ok cfg fuel a.maxNextSeq s.minSeq true).bind (fun (result, s) =>
      if a.confirmed ≤ (if result then s.getDatalen else 0) then
        let (stream, data) := if result then s.confirm cfg a.confirmed else (some s, [])
        some ⟨stream, rest, nextSeq, c.delivered ++ data⟩
      else none))

def run (cfg : StreamConfig) (fuel : Nat) (toDest : Bool) (ack : Nat) (c : Consumer)
    (arrivals : List Arrival) : Option Consumer :=
  arrivals.foldl (fun c a => c.bind (fun c => c.step cfg fuel toDest ack a)) (some c)

def new (base : Nat) (segments : List Segment) : Consumer := ⟨none, segments, base, []⟩

end Consumer

/-!
## The streams of a TCP connection (`TcpReassemblyLink`, `tcpreassembly.cpp`)

A link keeps its streams in a queue and by their acknowledge numbers. The streams are objects on
the heap, known by their addresses; an access to an address that is not in the heap gives none.
-/

abbrev Addr := Nat

structure Link where
  heap : List (Addr × Stream)
  nextAddr : Addr
  queueStreams : List Addr
  queueByAck : List (Nat × Addr)

namespace Link

def new : Link := ⟨[], 0, [], []⟩

def stream (l : Link) (a : Addr) : Option Stream := SortedMap.get a l.heap

def setStream (l : Link) (a : Addr) (s : Stream) : Link :=
  { l with heap := SortedMap.set seqLt a s l.heap }

def findOrCreate (ack : Nat) (toDest : Bool) (l : Link) : Addr × Link :=
  match SortedMap.get ack l.queueByAck with
  | some a => (a, l)
  | none =>
    (l.nextAddr,
      { l with
        heap := SortedMap.set seqLt l.nextAddr (.new ack toDest) l.heap
        nextAddr := l.nextAddr + 1
        queueByAck := SortedMap.set seqLt ack l.nextAddr l.queueByAck
        queueStreams := l.queueStreams ++ [l.nextAddr] })

def pushpacket (cfg : StreamConfig) (toDest : Bool) (ack : Nat) (p : StreamPacket) (l : Link) :
    Option Link :=
  let (a, l) := findOrCreate ack toDest l
  (l.stream a).map (fun s => l.setStream a ((s.push cfg p).moveBounds p))

end Link

end VoipMonitor.Tcp

/-!
## The check of a TCP stream with all its arguments (`TcpReassemblyStream::ok`, `tcpreassembly.cpp`)

The walk along the packets as `okQueue_normal` and `okQueue_simple_by_ack` ask for it, with each
place where the end of `queuePacketVars` is read as a broken round. What is put together from the
row and shown to the checks of the data does not change the packets or the row: the answers of
these checks are arguments here.
-/

namespace VoipMonitor.Tcp
open VoipMonitor.Library

/-- What `ok` is called with and what it reads of the link: `unlimited` is also the link of http,
`validate` is the branch of `enableValidateDataViaCheckData` (none goes on) and `checkOkData` that
of `needValidateDataViaCheckData`. `crazySequence` is false in these calls. -/
structure CheckArgs where
  enableSimpleCmpMaxNextSeq : Bool
  maxNextSeq : Nat
  forceFirstSeq : Nat
  ignorePsh : Bool
  unlimited : Bool
  onlyCheckPsh : Bool
  forceWaitForNextPsh : Bool
  lastSeqFromNextStream : Nat
  validate : Stream → Stream.Walk → Option Bool
  checkOkData : Stream → Bool

/-- `ok(false, true, maxNextSeq, 0, 0, 0, NULL, enableDebug, forceFirstSeq, ignorePsh)`. -/
def CheckArgs.simpleByAck (maxNextSeq forceFirstSeq : Nat) (ignorePsh : Bool) : CheckArgs :=
  { enableSimpleCmpMaxNextSeq := true, maxNextSeq := maxNextSeq, forceFirstSeq := forceFirstSeq
    ignorePsh := ignorePsh, unlimited := false, onlyCheckPsh := false
    forceWaitForNextPsh := false, lastSeqFromNextStream := 0, validate := fun _ _ => none
    checkOkData := fun _ => true }

def CheckArgs.reachesEnd (a : CheckArgs) (s : Stream) (nextSeq : Nat) : Bool :=
  (a.maxNextSeq ≠ 0 && nextSeq = a.maxNextSeq) ||
    (!a.enableSimpleCmpMaxNextSeq && a.maxNextSeq ≠ 0 && nextSeq = a.maxNextSeq - 1) ||
    (s.lastSeq ≠ 0 && nextSeq = s.lastSeq) || (s.lastSeq ≠ 0 && nextSeq = s.lastSeq - 1) ||
    (a.enableSimpleCmpMaxNextSeq && nextSeq = s.maxNextSeq) ||
    (nextSeq = s.maxNextSeq && nextSeq = a.lastSeqFromNextStream)

namespace Stream

abbrev CheckRound := Outcome (Stream × Walk) Bool

def countCheck (s : Stream) (w : Walk) : CheckRound :=
  if w.counter + 1 > 500 then .done false else .next (s, { w with counter := w.counter + 1 })

/-- The end of the packets at `k` that may still be used, or 0. -/
def nextSeqOf (s : Stream) (k : Nat) : Nat :=
  ((SortedMap.get k s.queuePacketVars).map PacketVar.getNextSeqCheck).getD 0

/-- All packets at `k` are given up; there are some. -/
def isFailAt (s : Stream) (k : Nat) : Bool :=
  ((SortedMap.get k s.queuePacketVars).map PacketVar.isFail).getD false

def atEnd (a : CheckArgs) (s : Stream) (w : Walk) (nextSeq : Nat) (psh : Bool) : Bool :=
  if w.waitForPsh then psh else a.reachesEnd s nextSeq

def checkTaken (a : CheckArgs) (s : Stream) (w : Walk) (p : Nat × Nat) : CheckRound :=
  match a.validate s w with
  | some result => .done result
  | none =>
    let s := s.setState p .check
    let psh := ((s.getPacket p.1 p.2).map (fun packet => packet.psh)).getD false
    if atEnd a s w p.2 psh then
      if ¬psh ∧ ¬a.ignorePsh then countCheck s { w with waitForPsh := true }
      else if ¬w.waitForPsh ∧ a.forceWaitForNextPsh then countCheck s { w with waitForPsh := true }
      else .done (a.checkOkData { s with isOk := true })
    else countCheck s w

/-- The packets at `k` are taken into the row. -/
def checkVar (a : CheckArgs) (s : Stream) (w : Walk) (k : Nat) : CheckRound :=
  if s.nextSeqOf k ≠ 0 then
    checkTaken a { s with okPackets := s.okPackets ++ [(k, s.nextSeqOf k)] } w (k, s.nextSeqOf k)
  else if s.okPackets ≠ [] then countCheck s.failLast w
  else .done false

/-- `completeMod` 1 at packets that were all given up: the packet before them is given up too.
Without a row the search begins at the next packets that are not, whose key is read there. -/
def checkBack (s : Stream) (w : Walk) (seq : Nat) : CheckRound :=
  if s.failLast.okPackets = [] then
    match nextUsable s.failLast.queuePacketVars seq with
    | some k => .next (s.failLast, { w with forceFirstSeq := k })
    | none => .broken
  else .next (s.failLast, w)

def checkRound (cfg : StreamConfig) (a : CheckArgs) (c : Stream × Walk) : CheckRound :=
  let s := c.1
  let w := c.2
  let seq := wantedSeq s w
  if cfg.completeMod = 1 ∧ s.isFailAt seq then checkBack s w seq
  else
    match findVar cfg s seq with
    | none => if s.okPackets = [] then .done (w.counter = 0) else countCheck s.failLast w
    | some k => checkVar a s w k

def attempted (s : Stream) : Stream :=
  { s with counterTryOk := s.counterTryOk + 1 }.cleanPacketsState

/-- `ok`: its result, or none when it reads an end or does not end within the rounds. -/
def check (cfg : StreamConfig) (a : CheckArgs) (fuel : Nat) (s : Stream) : Option Bool :=
  if s.isOk then some true
  else if ¬a.unlimited ∧ s.counterTryOk > cfg.maxReassemblyAttempts then some true
  else
    match s.attempted.queuePacketVars with
    | [] => none
    | e :: _ =>
      if e.2.getNextSeqCheck = 0 then some false
      else runLoop (checkRound cfg a) fuel (s.attempted, ⟨0, a.onlyCheckPsh, a.forceFirstSeq⟩)

end Stream

end VoipMonitor.Tcp
