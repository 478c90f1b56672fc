import VoipMonitor.Library.Scripts
import VoipMonitor.Model.TcpStream

/-!
# The link that looks for data (`okQueue_simple_by_ack`, `tcpreassembly.cpp`)

Behind each packet a `simpleByAck` link checks the stream of the packet, joins it with the streams
before it, and asks whether the data are SIP messages. What it does to its streams are actions of
a step function, and the functions of the link are programs of these actions. A program stops where
the source would read behind the end of a row or a stream that was deleted.
-/

namespace VoipMonitor.Tcp
open VoipMonitor.Library

/-- The options of `TcpReassembly`, and what it asks of SIP data: `checkOkData` (strict, with data
of several streams) with the length that it confirms, `check_sip20`, and
`process_packet__parse_sip_method_ext`. `fuel` bounds the rounds of `ok` behind the first. -/
structure Reassembly where
  stream : StreamConfig
  smartMaxSeq : Bool
  smartMaxSeqByPsh : Bool
  ignorePshInCheckOkData : Bool
  isSip : Bool
  checkOkData : Bytes → Bool → Bool → Option Nat
  checkSip20 : Bytes → Bool
  parseSipMethod : Bytes → Bool
  fuel : Nat

/-! ## Actions -/

inductive StreamAct where
  | check (maxNextSeq : Nat)
  | restart
  | restartRow
  | resetTries
  | confirm (datalenConfirmed : Nat)
  | setDatalen (datalen : Nat)
  | popFront
  | refresh
  | setRow (p : Nat × Nat)
  | setOffset (seq offset : Nat)
  | setLastSeq (seq : Nat)
  | expire (seqs : List Nat)
  | cleanup
deriving DecidableEq, Repr

namespace Stream

/-- The packet that `operator[]` of a map makes. -/
def emptyPacket : StreamPacket :=
  { seq := 0, nextSeq := 0, psh := false, data := [], datalen := 0, isSip := false, state := .na }

/-- `complete` reads the packets of the row by `operator[]`. -/
def touch (s : Stream) (p : Nat × Nat) : Stream :=
  if (s.getPacket p.1 p.2).isSome then s
  else
    let v := (SortedMap.get p.1 s.queuePacketVars).getD .empty
    { s with
      queuePacketVars := SortedMap.set seqLt p.1
        { v with queuePackets := SortedMap.set seqLt p.2 emptyPacket v.queuePackets }
        s.queuePacketVars }

/-- `clearCompleteData` and `saveCompleteData`. -/
def refresh (cfg : StreamConfig) (s : Stream) : Option Stream :=
  (saveCompleteData cfg s.clearCompleteData).map (fun s =>
    if s.isOk then s.okPackets.foldl touch s else s)

def expire (s : Stream) (seqs : List Nat) : Stream :=
  { s with queuePacketVars := s.queuePacketVars.filter (fun e => e.1 ∉ seqs) }

/-- One action; none is one that cannot be. -/
def step (r : Reassembly) (s : Stream) : StreamAct → Option Stream
  | .check maxNextSeq =>
    (s.ok r.stream (r.fuel + 1) maxNextSeq s.minSeq r.ignorePshInCheckOkData).map (fun e => e.2)
  | .restart => some { s.clearCompleteData with isOk := false }
  | .restartRow => some { s.clearCompleteData with isOk := false, okPackets := [] }
  | .resetTries => some { s with counterTryOk := 0 }
  | .confirm datalenConfirmed => some (s.confirmCompleteData datalenConfirmed).1
  | .setDatalen datalen => some (s.setDatalen datalen)
  | .popFront => if s.okPackets.length > 1 then some { s with okPackets := s.okPackets.tail } else none
  | .refresh => s.refresh r.stream
  | .setRow p => some { s with okPackets := [p] }
  | .setOffset seq offset => some (s.updateVar seq (fun v => { v with offset := offset }))
  | .setLastSeq seq => some { s with lastSeq := seq }
  | .expire seqs => some (s.expire seqs)
  | .cleanup => some s.cleanupCompleteData

end Stream

/-- A link with `last_ok_seq_direction`. -/
structure LinkState where
  link : Link
  lastOkSeqToDest : Nat
  lastOkSeqToSource : Nat

inductive LinkAct where
  | push (toDest : Bool) (ack : Nat) (p : StreamPacket)
  | stream (a : Addr) (act : StreamAct)
  | setLastOkSeq (toDest : Bool) (seq : Nat)
  | delete (a : Addr)
deriving DecidableEq, Repr

namespace LinkState

def new : LinkState := ⟨.new, 0, 0⟩

def lastOkSeq (l : LinkState) (toDest : Bool) : Nat :=
  if toDest then l.lastOkSeqToDest else l.lastOkSeqToSource

def delete (l : LinkState) (a : Addr) (s : Stream) : LinkState :=
  { l with
    link :=
      { l.link with
        heap := SortedMap.erase a l.link.heap
        queueStreams := l.link.queueStreams.filter (fun b => b ≠ a)
        queueByAck := SortedMap.erase s.ack l.link.queueByAck } }

def step (r : Reassembly) (l : LinkState) : LinkAct → Option LinkState
  | .push toDest ack p =>
    (l.link.pushpacket r.stream toDest ack p).map (fun link => { l with link := link })
  | .stream a act =>
    (l.link.stream a).bind (fun s =>
      (s.step r act).map (fun s => { l with link := l.link.setStream a s }))
  | .setLastOkSeq toDest seq =>
    some (if toDest then { l with lastOkSeqToDest := seq } else { l with lastOkSeqToSource := seq })
  | .delete a => (l.link.stream a).map (l.delete a)

/-- `findStreamByMaxNextSeq`: the last stream that ends between two numbers. -/
def findStreamByMaxNextSeq (l : LinkState) (seqFrom seqTo : Nat) : Option Addr :=
  l.link.queueStreams.reverse.find? (fun a =>
    (l.link.stream a).any (fun s => seqFrom ≤ s.maxNextSeq ∧ s.maxNextSeq ≤ seqTo))

/-- `findStreamByNextSeq`: the last stream with a packet that ends at a number, and the packet. -/
def findStreamByNextSeq (l : LinkState) (seq : Nat) : Option (Addr × StreamPacket) :=
  l.link.queueStreams.reverse.findSome? (fun a =>
    (l.link.stream a).bind (fun s =>
      if s.minSeq ≤ seq ∧ s.maxNextSeq ≥ seq then
        (s.queuePacketVars.findSome? (fun e => SortedMap.get seq e.2.queuePackets)).map
          (fun p => (a, p))
      else none))

end LinkState

/-! ## Programs -/

abbrev LinkScript (r : Reassembly) := Script (LinkState.step r)

section Programs
variable (r : Reassembly)

def state : LinkScript r LinkState := .get

def readStream (a : Addr) : LinkScript r Stream := do
  let l ← state r
  .need (l.link.stream a)

def actOn (a : Addr) (act : StreamAct) : LinkScript r Unit := .act (.stream a act)

def setLastOkSeq (toDest : Bool) (seq : Nat) : LinkScript r Unit := .act (.setLastOkSeq toDest seq)

def firstOk (s : Stream) : LinkScript r (Nat × Nat) := .need s.okPackets.head?

def lastOk (s : Stream) : LinkScript r (Nat × Nat) := .need s.okPackets.getLast?

/-- `ok(false, true, maxNextSeq, 0, 0, 0, NULL, enableDebug, min_seq)`. -/
def checkStream (a : Addr) (maxNextSeq : Nat) : LinkScript r Bool := do
  let s ← readStream r a
  let result ← .need (s.ok r.stream (r.fuel + 1) maxNextSeq s.minSeq r.ignorePshInCheckOkData)
  actOn r a (.check maxNextSeq)
  pure result.1

def checkPrev (a : Addr) (maxNextSeq : Nat) : LinkScript r Bool := do
  let s ← readStream r a
  if r.stream.enableSmartCompleteData ∧ s.completeData.isSome ∧ s.isOk then pure true
  else checkStream r a maxNextSeq

def strictMode : Bool := r.stream.completeMod ≠ 1

def checkData (a : Addr) : LinkScript r (Option Nat) := do
  let s ← readStream r a
  pure (r.checkOkData s.getData (strictMode r) false)

def acceptStream (a : Addr) (toDest : Bool) (datalenConfirmed : Nat) : LinkScript r (List Addr) := do
  if r.stream.completeMod = 1 ∧ datalenConfirmed ≠ 0 then
    let s ← readStream r a
    if datalenConfirmed < s.getDatalen then
      actOn r a (.confirm datalenConfirmed)
      actOn r a (.setDatalen datalenConfirmed)
      setLastOkSeq r toDest (s.confirmCompleteData datalenConfirmed).2
    else
      let p ← lastOk r s
      setLastOkSeq r toDest p.2
  else setLastOkSeq r toDest 0
  actOn r a .resetTries
  pure [a]

/-! ### The streams before a stream -/

/-- The stream that ends where the row of `s` begins; with `completeMod` 1 one that ends within its
first packet, or one with a packet that ends there, with the end of the packet. -/
def findPrev (s : Stream) : LinkScript r (Option (Addr × Option Nat)) := do
  let l ← state r
  if r.stream.completeMod = 1 then
    let p ← firstOk r s
    match l.findStreamByMaxNextSeq p.1 (sub32 p.2 1) with
    | some a => pure (some (a, none))
    | none => pure ((l.findStreamByNextSeq p.1).map (fun e => (e.1, some e.2.nextSeq)))
  else pure ((l.findStreamByMaxNextSeq s.minSeq s.minSeq).map (fun a => (a, none)))

/-- The row of `prev` leads to that of `last`, or the latter does not begin a SIP message. -/
def joins (prev last : Stream) : Bool :=
  match prev.okPackets.getLast?, last.okPackets.head? with
  | some e, some b =>
    (b.1 = e.2 && (!r.stream.ignoreZeroData ||
      (prev.getPacket e.1 e.2).any (fun p => p.data.head?.any (fun c => c ≠ 0)))) ||
    (last.getPacket b.1 b.2).any (fun p => !r.parseSipMethod p.data)
  | _, _ => false

def addPrevStreams : Nat → List Addr → LinkScript r (List Addr)
  | 0, streams => pure streams
  | n + 1, streams => do
    let last ← .need streams.getLast?
    let lastStream ← readStream r last
    match ← findPrev r lastStream with
    | none => pure streams
    | some (a, packetEnd) =>
      let prev ← readStream r a
      let acks ← streams.mapM (fun b => do return (← readStream r b).ack)
      if prev.ack ∈ acks then pure streams
      else
        if packetEnd.isSome then actOn r a .restart
        let ok ← checkPrev r a (packetEnd.getD prev.maxNextSeq)
        let prev ← readStream r a
        let lastStream ← readStream r last
        if ok ∧ joins r prev lastStream then addPrevStreams n (streams ++ [a])
        else
          actOn r a .restart
          pure streams

/-! ### The data of several streams -/

/-- Whether the row of a stream begins with a SIP message. With `renew` the data are put together
again when they are looked at or when it does. -/
def beginsSip (a : Addr) (renew : Bool) : LinkScript r Bool := do
  let s ← readStream r a
  let p ← firstOk r s
  let offset := s.getPacketOffset p.1
  match s.getPacket p.1 p.2 with
  | none => pure false
  | some packet =>
    if offset < packet.data.length then
      if offset = 0 ∨ packet.data.length - offset ≥ 11 then
        let ok := if offset = 0 then packet.isSip else r.checkSip20 (packet.data.drop offset)
        if renew ∧ ok then actOn r a .refresh
        pure ok
      else
        if renew then actOn r a .refresh
        let s ← readStream r a
        pure (r.checkSip20 s.getData)
    else pure false

/-- Packets are taken off the begin of a row of `n` until it begins with a SIP message. -/
def trimRow (a : Addr) : Nat → Bool → LinkScript r Bool
  | 0, ok => pure ok
  | n + 1, ok => do
    let s ← readStream r a
    if ok = false ∧ s.okPackets.length > 1 then
      actOn r a .popFront
      let ok ← beginsSip r a true
      trimRow a n ok
    else pure ok

/-- `data_overlay`: what the row of `s` has in common with the next one. -/
def dataOverlay (s next : Stream) : Nat :=
  match s.okPackets.getLast?, next.okPackets.head? with
  | some e, some b =>
    if seqCmp e.2 b.1 > 0 ∧ seqSub e.2 b.1 < s.getDatalen then seqSub e.2 b.1 else 0
  | _, _ => 0

def joinData : List Stream → Bytes
  | [] => []
  | [s] => s.getData
  | s :: next :: rest => s.getData.take (s.getDatalen - dataOverlay s next) ++ joinData (next :: rest)

/-- `fromStream` and `fromStreamSize`: the last streams of which nothing was confirmed. -/
def fromStream : List Nat → Nat → Nat × Nat
  | datalen :: next :: rest, unconfirmed =>
    if unconfirmed ≥ datalen then
      let e := fromStream (next :: rest) (unconfirmed - datalen)
      (e.1 + 1, e.2 + datalen)
    else (0, 0)
  | _, _ => (0, 0)

/-- Some of the joined data were confirmed: the streams from the one at `from` on are used. -/
def confirmJoined (streams : List Addr) (toDest : Bool) (size datalenConfirmed : Nat) :
    LinkScript r Nat := do
  let lens ← streams.mapM (fun b => do return (← readStream r b).getDatalen)
  let e := fromStream lens (size - datalenConfirmed)
  let a ← .need streams[e.1]?
  let s ← readStream r a
  if datalenConfirmed < size - e.2 ∧ size - datalenConfirmed - e.2 < s.getDatalen then
    if streams.length - e.1 = 1 then
      actOn r a (.confirm datalenConfirmed)
      actOn r a (.setDatalen datalenConfirmed)
      setLastOkSeq r toDest (s.confirmCompleteData datalenConfirmed).2
    else
      actOn r a (.confirm (sub32 s.getDatalen (size - datalenConfirmed)))
      setLastOkSeq r toDest 0
      let _ ← (streams.drop (e.1 + 1)).mapM (fun b => do
        let t ← readStream r b
        let p ← lastOk r t
        actOn r b (.setOffset p.1 0))
  else setLastOkSeq r toDest 0
  pure e.1

def acceptJoined (streams : List Addr) (toDest : Bool) (size datalenConfirmed : Nat) :
    LinkScript r (List Addr) := do
  let used ← do
    if r.stream.completeMod = 1 ∧ datalenConfirmed ≠ 0 then
      if datalenConfirmed < size then confirmJoined r streams toDest size datalenConfirmed
      else
        let a ← .need streams.head?
        let s ← readStream r a
        let p ← lastOk r s
        setLastOkSeq r toDest p.2
        pure 0
    else
      setLastOkSeq r toDest 0
      pure 0
  let okStreams := (streams.drop used).reverse
  let _ ← okStreams.mapM (fun a => actOn r a .resetTries)
  pure okStreams

/-- The loop of `checkOkStreams`: the data of the first streams are checked, with `completeMod` 1 of
fewer and fewer. -/
def tryJoined (toDest : Bool) (streams : List Addr) : Nat → LinkScript r (Option (List Addr))
  | 0 => pure none
  | n + 1 => do
    if n + 1 < streams.length ∧ r.stream.completeMod ≠ 1 then pure none
    else
      let begins ← do
        if n + 1 > 1 then
          let a ← .need streams[n]?
          let ok ← beginsSip r a false
          let s ← readStream r a
          trimRow r a s.okPackets.length ok
        else pure true
      let found ← do
        if begins then
          let l ← (streams.take (n + 1)).mapM (readStream r)
          let data := joinData l.reverse
          match r.checkOkData data (strictMode r) (n + 1 > 1) with
          | some confirmed =>
            let okStreams ← acceptJoined r (streams.take (n + 1)) toDest data.length confirmed
            pure (some okStreams)
          | none => pure none
        else pure none
      match found with
      | some okStreams => pure (some okStreams)
      | none => tryJoined toDest streams n

def trySingle (a : Addr) (toDest : Bool) : LinkScript r (Option (List Addr)) := do
  match ← checkData r a with
  | some confirmed =>
    let okStreams ← acceptStream r a toDest confirmed
    pure (some okStreams)
  | none => pure none

/-- The loop behind the previous streams. In the second pass they are added one by one, fewer than
in the first. -/
def tryStreams (a : Addr) (toDest : Bool) (pass streamsSizePass0 : Nat) :
    Nat → List Addr → LinkScript r (Option (List Addr) × List Addr)
  | 0, streams => pure (none, streams)
  | n + 1, streams => do
    let found ← if streams.length = 1 then trySingle r a toDest
      else tryJoined r toDest streams streams.length
    if found.isSome ∨ pass ≠ 1 ∨ streams.length = streamsSizePass0 - 1 then pure (found, streams)
    else
      let last ← .need streams.getLast?
      let lastStream ← readStream r last
      let l ← state r
      match l.findStreamByMaxNextSeq lastStream.minSeq lastStream.minSeq with
      | none => pure (none, streams)
      | some prev =>
        let s ← readStream r prev
        let ok ← checkPrev r prev s.maxNextSeq
        if ok then tryStreams a toDest pass streamsSizePass0 n (streams ++ [prev])
        else
          actOn r prev .restart
          pure (none, streams)

/-! ### The passes -/

/-- What one pass found: the streams, whether the packet is in the row, and the number of streams
that were joined. -/
structure Pass where
  okStreams : Option (List Addr)
  useSeq : Bool
  streams : Nat

def tryPass (a : Addr) (seq maxSeq mainPass pass streamsSizePass0 : Nat) :
    LinkScript r (Option Pass) := do
  if mainPass > 0 then actOn r a .restartRow
  let ok ← checkStream r a maxSeq
  if ok = false then pure none
  else
    let s ← readStream r a
    let useSeq := s.okPackets.any (fun p => p.1 = seq)
    let streams ← do
      if pass = 0 then
        let p ← firstOk r s
        if (SortedMap.get p.1 s.queuePacketVars).any (fun v => v.offset = 0) then
          addPrevStreams r 19 [a]
        else pure [a]
      else pure [a]
    let e ← tryStreams r a s.toDest pass streamsSizePass0 (streamsSizePass0 + 1) streams
    if e.1.isNone ∧ r.stream.enableSmartCompleteData = false then
      let _ ← e.2.mapM (fun b => actOn r b .restart)
    pure (some ⟨e.1, useSeq, streams.length⟩)

/-- Both passes: the streams and `useSeq`. -/
def tryPasses (a : Addr) (seq maxSeq mainPass : Nat) : LinkScript r (Option (List Addr) × Bool) := do
  match ← tryPass r a seq maxSeq mainPass 0 0 with
  | none => pure (none, false)
  | some first =>
    if first.okStreams.isSome ∨ first.streams = 1 then pure (first.okStreams, first.useSeq)
    else
      match ← tryPass r a seq maxSeq mainPass 1 first.streams with
      | none => pure (none, first.useSeq)
      | some second => pure (second.okStreams, first.useSeq || second.useSeq)

/-- The data of the stream are put together again and checked. -/
def retry (a : Addr) (toDest : Bool) : LinkScript r (Option (List Addr)) := do
  actOn r a .refresh
  trySingle r a toDest

/-- Packets are taken off a row of `n` until the data of the rest are accepted. -/
def retryBehind (a : Addr) (toDest : Bool) : Nat → LinkScript r (Option (List Addr))
  | 0 => pure none
  | n + 1 => do
    let s ← readStream r a
    if s.okPackets.length > 1 then
      actOn r a .popFront
      match ← retry r a toDest with
      | some okStreams => pure (some okStreams)
      | none => retryBehind a toDest n
    else pure none

/-- `possibleStartSipInNextPacket`. -/
def sipInNextPacket (s : Stream) : Bool :=
  let rec go : List IndexItem → Nat → Bool
    | [], _ => false
    | item :: index, offset =>
      r.checkSip20 (s.getData.drop (offset + s.getPacketOffset item.seq)) ||
        go index (offset + item.len)
  match s.completeDataIndex with
  | [] => false
  | item :: index => decide (s.okPackets.length > 1) && go index item.len

/-- A message may begin within the row: where the last one ended, or at a later packet. -/
def tryWithin (a : Addr) : LinkScript r (Option (List Addr)) := do
  let l ← state r
  let s ← readStream r a
  let p ← firstOk r s
  let lastSeq := l.lastOkSeq s.toDest
  let offset := lastSeq - p.1
  let sipAtLast := decide (lastSeq ≠ 0 ∧ p.1 < lastSeq ∧ lastSeq < p.2) &&
    (s.getPacket p.1 p.2).any (fun packet =>
      decide (offset < packet.data.length) && r.checkSip20 (packet.data.drop offset))
  if sipAtLast then
    let offsetOld := s.getPacketOffset p.1
    actOn r a (.setOffset p.1 offset)
    let found ← retry r a s.toDest
    if found.isNone then actOn r a .restart
    actOn r a (.setOffset p.1 offsetOld)
    pure found
  else if sipInNextPacket r s then
    let found ← retryBehind r a s.toDest s.okPackets.length
    if found.isNone then actOn r a .restart
    pure found
  else pure none

/-- The packet alone is a message. -/
def tryPacket (a : Addr) (seq : Nat) : LinkScript r (Option (List Addr)) := do
  let s ← readStream r a
  let packet := (SortedMap.get seq s.queuePacketVars).bind (fun v => v.queuePackets.head?)
  match packet with
  | none => pure none
  | some e =>
    if e.2.data ≠ [] ∧ r.checkSip20 e.2.data then
      actOn r a (.setRow (e.2.seq, e.2.nextSeq))
      let found ← retry r a s.toDest
      if found.isNone then actOn r a .restart
      pure found
    else pure none

/-- One round of the loop of `mainPass`. -/
def tryMaxSeq (a : Addr) (seq maxSeq mainPass : Nat) : LinkScript r (Option (List Addr)) := do
  let e ← tryPasses r a seq maxSeq mainPass
  let s ← readStream r a
  let found ← do
    if r.isSip ∧ e.1.isNone ∧ s.okPackets ≠ [] then tryWithin r a else pure e.1
  if r.isSip ∧ found.isNone ∧ seq ≠ 0 ∧ e.2 = false then tryPacket r a seq else pure found

/-- `okQueue_simple_by_ack`: the streams whose data are complete. With `smartMaxSeq` the stream is
checked up to the end of the packet, and then up to its own end. -/
def okQueueSimpleByAck (seq nextSeq ack : Nat) (psh : Bool) : LinkScript r (List Addr) := do
  let l ← state r
  match SortedMap.get ack l.link.queueByAck with
  | none => pure []
  | some a =>
    let s ← readStream r a
    if r.smartMaxSeq ∨ r.smartMaxSeqByPsh then
      if r.smartMaxSeq ∨ psh then
        let found ← do
          if nextSeq ≠ 0 then tryMaxSeq r a seq nextSeq 0 else pure none
        match found with
        | some okStreams => pure okStreams
        | none =>
          let s ← readStream r a
          if s.maxNextSeq ≠ 0 ∧ s.maxNextSeq ≠ nextSeq then
            return (← tryMaxSeq r a seq s.maxNextSeq 1).getD []
          else pure []
      else if s.maxNextSeq ≠ 0 then return (← tryMaxSeq r a seq s.maxNextSeq 1).getD []
      else pure []
    else return (← tryMaxSeq r a seq s.maxNextSeq 0).getD []

/-- `complete_simple_by_ack`: the streams are cleaned up, and deleted when nothing is left of them
or with `completeMod` 0. -/
def completeSimpleByAck (okStreams : List Addr) : LinkScript r Unit := do
  let _ ← okStreams.mapM (fun a => do
    if r.stream.completeMod = 1 then
      actOn r a .cleanup
      let s ← readStream r a
      if s.queuePacketVars = [] then .act (.delete a)
    else .act (.delete a))

/-! ### Histories -/

/-- What happens to a link: a packet, which is looked at when the link has SIP data; the last number
of a stream; packets and streams that are too old. -/
inductive LinkEvent where
  | packet (toDest : Bool) (ack : Nat) (p : StreamPacket) (tryOk : Bool)
  | lastSeq (a : Addr) (seq : Nat)
  | expire (a : Addr) (seqs : List Nat)
  | drop (a : Addr)

def handle : LinkEvent → LinkScript r Unit
  | .packet toDest ack p tryOk => do
    .act (.push toDest ack p)
    if tryOk then
      let okStreams ← okQueueSimpleByAck r p.seq p.nextSeq ack p.psh
      completeSimpleByAck r okStreams
  | .lastSeq a seq => actOn r a (.setLastSeq seq)
  | .expire a seqs => do
    actOn r a (.expire seqs)
    let s ← readStream r a
    if s.queuePacketVars = [] then .act (.delete a)
  | .drop a => .act (.delete a)

def history : List LinkEvent → LinkScript r Unit
  | [] => pure ()
  | e :: events => do
    handle r e
    history events

end Programs

end VoipMonitor.Tcp
