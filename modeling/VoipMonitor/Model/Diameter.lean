import Mathlib.Logic.Function.Basic
import VoipMonitor.Library.Runs
import VoipMonitor.Library.Text

/-!
# Diameter messages (`diameter.cpp`)

A message is a header of 20 bytes and a series of AVPs. An AVP with the code of a group holds
AVPs again; `parse` flattens them into the list of those that carry data. A length field of 0
keeps its loop at the same place for ever, so the recursion is bounded by an argument, and `none`
says that the bound was not enough.
-/

namespace VoipMonitor.Diameter
open VoipMonitor.Library

/-- `cDiameterAvpDataItem`. -/
structure DataItem where
  code : Nat
  length : Nat
  payload : Bytes
deriving DecidableEq, Repr

/-- `sizeof(cDiameterAvp::sHeader)`. -/
def avpHeaderSize : Nat := 8

/-- `cDiameterAvp`: the bytes from the AVP on, and how many of them belong to what holds it. -/
structure DiameterAvp where
  data : Bytes
  datalen : Nat

namespace DiameterAvp

def code (avp : DiameterAvp) : Nat := be32 avp.data 0

def flags (avp : DiameterAvp) : Nat := byteAt avp.data 4

def hasVendor (avp : DiameterAvp) : Bool := avp.flags / 128 % 2 = 1

def headerLength (avp : DiameterAvp) : Nat := avpHeaderSize + if avp.hasVendor then 4 else 0

def length (avp : DiameterAvp) : Nat := be24 avp.data 5

def realLength (avp : DiameterAvp) : Nat :=
  avp.length / 4 * 4 + if avp.length % 4 ≠ 0 then 4 else 0

def payload (avp : DiameterAvp) : Bytes := avp.data.drop avp.headerLength

def payloadLen (avp : DiameterAvp) : Nat :=
  if avp.length > avp.headerLength then avp.length - avp.headerLength else 0

def isGroup (avp : DiameterAvp) : Bool :=
  avp.code = 456 || avp.code = 651 || avp.code = 700 || avp.code = 873 || avp.code = 876

def headerLengthIsOk (avp : DiameterAvp) : Bool :=
  avp.datalen ≥ avpHeaderSize && avp.datalen ≥ avp.headerLength

def lengthIsOk (avp : DiameterAvp) : Bool :=
  avp.headerLengthIsOk && avp.realLength ≤ avp.datalen

end DiameterAvp

mutual

/-- `cDiameterAvp::parse`: the items that it pushes. -/
def DiameterAvp.parse : Nat → DiameterAvp → Option (List DataItem)
  | 0, _ => none
  | fuel + 1, avp =>
    if avp.isGroup then
      if avp.payloadLen > 0 then parseAvps fuel avp.payload avp.payloadLen 0
      else some []
    else if avp.payloadLen > 0 ∧ avp.payloadLen < 16 * 1024 then
      some [⟨avp.code, avp.payloadLen, avp.payload.take avp.payloadLen⟩]
    else some []

/-- The loop of `cDiameterAvp::parse` over a group and of `cDiameter::parse` over a message. -/
def parseAvps : Nat → Bytes → Nat → Nat → Option (List DataItem)
  | 0, _, _, _ => none
  | fuel + 1, payload, payloadLen, offset =>
    if offset < payloadLen ∧ payloadLen - offset > avpHeaderSize then
      let avp : DiameterAvp := ⟨payload.drop offset, payloadLen - offset⟩
      if avp.lengthIsOk then do
        let items ← DiameterAvp.parse fuel avp
        let more ← parseAvps fuel payload payloadLen (offset + avp.realLength)
        some (items ++ more)
      else some []
    else some []

end

/-- `sizeof(cDiameter::sHeader)`. -/
def headerSize : Nat := 20

/-- `cDiameter`. -/
structure DiameterMsg where
  data : Bytes
  datalen : Nat

namespace DiameterMsg

def length (d : DiameterMsg) : Nat := be24 d.data 1

def payload (d : DiameterMsg) : Bytes := d.data.drop headerSize

def payloadLen (d : DiameterMsg) : Nat := sub32 d.length headerSize

def parse (fuel : Nat) (d : DiameterMsg) : Option (List DataItem) :=
  parseAvps fuel d.payload d.payloadLen 0

def versionIsOk (d : DiameterMsg) : Bool := d.datalen > 0 && byteAt d.data 0 = 1

def headerLengthIsOk (d : DiameterMsg) : Bool := d.datalen ≥ headerSize

def lengthIsOk (d : DiameterMsg) : Bool := d.headerLengthIsOk && d.length ≤ d.datalen

end DiameterMsg

def checkOkDiameter (data : Bytes) (datalen : Nat) : Bool :=
  if datalen > 0 ∧ byteAt data 0 = 1 then
    let d : DiameterMsg := ⟨data, datalen⟩
    d.versionIsOk && d.headerLengthIsOk && d.lengthIsOk
  else false

/-- The loop of `getValue` over the items; the value is read as a C string. -/
def getItemValue (code : Nat) (dataItems : List DataItem) : Bytes :=
  match dataItems.find? (fun item => item.code = code ∧ item.length > 0) with
  | some item => cString item.payload
  | none => []

/-- `getValue`, with the items given or taken from the message. -/
def DiameterMsg.getValue (fuel : Nat) (d : DiameterMsg) (code : Nat) (dataItems : Option (List DataItem)) :
    Option Bytes :=
  match dataItems with
  | some items => some (getItemValue code items)
  | none => (d.parse fuel).map (getItemValue code)

/-! ## What `parse` reads

The same recursion gives the headers and payloads in the order in which they are read, up to where
the bound stops it, and whether it has come to its end. -/

/-- A part of the message. -/
structure Region where
  start : Nat
  size : Nat
deriving DecidableEq, Repr

structure Reads where
  regions : List Region
  ended : Bool
deriving DecidableEq, Repr

def Reads.append (r s : Reads) : Reads :=
  if r.ended then ⟨r.regions ++ s.regions, s.ended⟩ else r

mutual

/-- `start` is the place of the AVP in the message. -/
def DiameterAvp.reads : Nat → Nat → DiameterAvp → Reads
  | 0, _, _ => ⟨[], false⟩
  | fuel + 1, start, avp =>
    if avp.isGroup then
      if avp.payloadLen > 0 then
        avpsReads fuel (start + avp.headerLength) avp.payload avp.payloadLen 0
      else ⟨[], true⟩
    else if avp.payloadLen > 0 ∧ avp.payloadLen < 16 * 1024 then
      ⟨[⟨start + avp.headerLength, avp.payloadLen⟩], true⟩
    else ⟨[], true⟩

/-- `start` is the place of the payload in the message. -/
def avpsReads : Nat → Nat → Bytes → Nat → Nat → Reads
  | 0, _, _, _, _ => ⟨[], false⟩
  | fuel + 1, start, payload, payloadLen, offset =>
    if offset < payloadLen ∧ payloadLen - offset > avpHeaderSize then
      let avp : DiameterAvp := ⟨payload.drop offset, payloadLen - offset⟩
      let header : Reads := ⟨[⟨start + offset, avpHeaderSize⟩], true⟩
      if avp.lengthIsOk then
        header.append ((DiameterAvp.reads fuel (start + offset) avp).append
          (avpsReads fuel start payload payloadLen (offset + avp.realLength)))
      else header
    else ⟨[], true⟩

end

def DiameterMsg.reads (fuel : Nat) (d : DiameterMsg) : Reads :=
  avpsReads fuel headerSize d.payload d.payloadLen 0

end VoipMonitor.Diameter

/-!
# The stack of Diameter packets (`diameter.cpp`)

`cDiameterPacketStack` keeps the packets of one set of identities in a queue. A request goes to the
queue of its identities, an answer to the queue of its request, which is found by the hop-by-hop id.
Queues are in memory, and the four maps hold pointers to them. The order of `packet_stack` is of no
use to any operation, so it is a list here.
-/

namespace VoipMonitor.DiameterStack
open VoipMonitor.Library

structure SPacket where
  packet : Nat
  isRequest : Bool
  hbhId : Nat
  timeUs : Nat

def timeUsToS (us : Nat) : Nat := us / 1000000 % 2 ^ 32

def SPacket.ageS (p : SPacket) (timeUs : Nat) : Nat :=
  if p.timeUs < timeUs then timeUsToS (timeUs - p.timeUs) else 0

structure SQueuePacketsId where
  publicIdentity : Bytes
  sessionId : Bytes
  callingPartyAddress : Bytes
deriving DecidableEq, Repr

structure CQueuePackets where
  id : SQueuePacketsId
  packets : List SPacket := []

def CQueuePackets.ageS (q : CQueuePackets) (timeUs : Nat) : Nat :=
  (q.packets.head?.map (fun p => p.ageS timeUs)).getD 0

/-- `cDiameterPacketStack`, with the memory behind its pointers. A string without an entry in the
maps for the search has the empty list. -/
structure PacketStack where
  queues : Nat → Option CQueuePackets := fun _ => none
  packetStack : List (SQueuePacketsId × Nat) := []
  byFrom : Bytes → List Nat := fun _ => []
  byTo : Bytes → List Nat := fun _ => []
  hbhIdToQueue : Nat → Option Nat := fun _ => none
  lastCleanupS : Nat := 0

def ageExpirationS : Nat := 60

def cleanupPeriodS : Nat := 120

/-- What the options and the call table say: `absolute_timeout`, `opt_diameter_time_overlap` in
microseconds. -/
structure Config where
  absoluteTimeout : Nat
  timeOverlapUs : Nat

/-! ## The maps for the search -/

/-- The strings under which `packet_stack_by_to` has a queue. -/
def SQueuePacketsId.toIdentities (id : SQueuePacketsId) : List Bytes :=
  ([id.publicIdentity, id.sessionId].filter (fun b => b ≠ [])).map cString

/-- The strings under which `packet_stack_by_from` has a queue. -/
def SQueuePacketsId.fromIdentities (id : SQueuePacketsId) : List Bytes :=
  ([id.publicIdentity, id.sessionId, id.callingPartyAddress].filter (fun b => b ≠ [])).map cString

def addFindIndex (qp : Nat) (diaMap : Bytes → List Nat) (index : Bytes) : Bytes → List Nat :=
  if qp ∈ diaMap index then diaMap else Function.update diaMap index (diaMap index ++ [qp])

def eraseFindIndex (qp : Nat) (diaMap : Bytes → List Nat) (index : Bytes) : Bytes → List Nat :=
  Function.update diaMap index ((diaMap index).erase qp)

def addFindIndexes (s : PacketStack) (qp : Nat) (id : SQueuePacketsId) : PacketStack :=
  { s with
    byTo := id.toIdentities.foldl (addFindIndex qp) s.byTo
    byFrom := id.fromIdentities.foldl (addFindIndex qp) s.byFrom }

def eraseFindIndexes (s : PacketStack) (qp : Nat) (id : SQueuePacketsId) : PacketStack :=
  { s with
    byTo := id.toIdentities.foldl (eraseFindIndex qp) s.byTo
    byFrom := id.fromIdentities.foldl (eraseFindIndex qp) s.byFrom }

/-! ## The operations -/

def find (s : PacketStack) (id : SQueuePacketsId) : Option Nat :=
  (s.packetStack.find? (fun e => e.1 = id)).map Prod.snd

/-- The queue for a request; `alloc` is what `new` gives when there is none. -/
def queueFor (s : PacketStack) (alloc : Nat) (id : SQueuePacketsId) : PacketStack × Nat :=
  match find s id with
  | some qp => (s, qp)
  | none =>
    (addFindIndexes { s with
      queues := Function.update s.queues alloc (some { id := id })
      packetStack := s.packetStack ++ [(id, alloc)] } alloc id, alloc)

/-- `cQueuePackets::add`. -/
def pushBack (s : PacketStack) (qp : Nat) (packet : SPacket) : PacketStack :=
  let q := (s.queues qp).map (fun q => { q with packets := q.packets ++ [packet] })
  { s with queues := Function.update s.queues qp q }

/-- The part of `add` under the lock. -/
def addPacket (s : PacketStack) (alloc : Nat) (packet : SPacket) (id : SQueuePacketsId) :
    PacketStack × Bool :=
  if packet.isRequest then
    let (s, qp) := queueFor s alloc id
    let s := { s with hbhIdToQueue := Function.update s.hbhIdToQueue packet.hbhId (some qp) }
    (pushBack s qp packet, true)
  else
    match s.hbhIdToQueue packet.hbhId with
    | some qp => (pushBack s qp packet, true)
    | none => (s, false)

def eraseHbhIds (removed : List SPacket) (m : Nat → Option Nat) : Nat → Option Nat :=
  removed.foldl (fun m (p : SPacket) => Function.update m p.hbhId none) m

/-- The queue loses packets, each with the entry of its hop-by-hop id; without packets it is erased
from the maps and deleted. -/
def dropPackets (s : PacketStack) (qp : Nat) (id : SQueuePacketsId) (removed kept : List SPacket) :
    PacketStack :=
  let s := { s with hbhIdToQueue := eraseHbhIds removed s.hbhIdToQueue }
  if kept = [] then
    eraseFindIndexes { s with
      packetStack := s.packetStack.filter (fun e => e.1 ≠ id)
      queues := Function.update s.queues qp none } qp id
  else { s with queues := Function.update s.queues qp (some { id := id, packets := kept }) }

/-- The loop of `retrieve` and of `cleanup` over queues: `split` gives the packets that are removed
from a queue and those that stay. -/
def sweepQueue (split : CQueuePackets → Option (List SPacket × List SPacket)) (s : PacketStack)
    (qp : Nat) : PacketStack :=
  match s.queues qp with
  | none => s
  | some q =>
    match split q with
    | none => s
    | some (removed, kept) => dropPackets s qp q.id removed kept

inductive TypeRetrieve where
  | trFrom
  | trTo

/-- The window of `retrieve`, with unsigned sums. -/
def inWindow (cfg : Config) (fromTime toTime : Nat) (p : SPacket) : Bool :=
  p.timeUs ≥ (fromTime + (2 ^ 64 - cfg.timeOverlapUs % 2 ^ 64)) % 2 ^ 64 &&
    p.timeUs ≤ (toTime + cfg.timeOverlapUs) % 2 ^ 64

def retrieveSplit (cfg : Config) (fromTime toTime : Nat) (q : CQueuePackets) :
    Option (List SPacket × List SPacket) :=
  some (q.packets.filter (inWindow cfg fromTime toTime),
    q.packets.filter (fun p => !inWindow cfg fromTime toTime p))

def found (s : PacketStack) (typeRetrieve : TypeRetrieve) (identity : Bytes) : List Nat :=
  match typeRetrieve with
  | .trFrom => s.byFrom identity
  | .trTo => s.byTo identity

/-- `retrieve` for one identity; the call with a list does it for each. -/
def retrieve (cfg : Config) (s : PacketStack) (typeRetrieve : TypeRetrieve) (identity : Bytes)
    (fromTime toTime : Nat) : PacketStack × List SPacket :=
  let qpl := found s typeRetrieve identity
  (qpl.foldl (sweepQueue (retrieveSplit cfg fromTime toTime)) s,
    qpl.flatMap (fun qp => ((s.queues qp).map (fun q =>
      q.packets.filter (inWindow cfg fromTime toTime))).getD []))

/-- The packets that `cleanup` removes from a queue; `used` is `check_used`, which asks the call
table. -/
def cleanupSplit (cfg : Config) (used : SQueuePacketsId → Bool) (timeUs : Nat) (q : CQueuePackets) :
    Option (List SPacket × List SPacket) :=
  let doCleanup :=
    if q.ageS timeUs > (cfg.absoluteTimeout + 120) % 2 ^ 32 then true
    else if q.ageS timeUs > ageExpirationS then !used q.id
    else false
  if doCleanup then
    some (q.packets.takeWhile (fun p => p.ageS timeUs > ageExpirationS),
      q.packets.dropWhile (fun p => p.ageS timeUs > ageExpirationS))
  else none

def cleanup (cfg : Config) (used : SQueuePacketsId → Bool) (s : PacketStack) (timeUs : Nat) :
    PacketStack :=
  (s.packetStack.map Prod.snd).foldl (sweepQueue (cleanupSplit cfg used timeUs)) s

/-- The test at the end of `add`. -/
def cleanupDue (s : PacketStack) (timeUs : Nat) : Bool :=
  s.lastCleanupS ≠ 0 && timeUsToS timeUs > s.lastCleanupS &&
    timeUsToS timeUs - s.lastCleanupS > cleanupPeriodS

def add (cfg : Config) (used : SQueuePacketsId → Bool) (s : PacketStack) (alloc : Nat)
    (packet : SPacket) (id : SQueuePacketsId) : PacketStack × Bool :=
  let (s, rslt) := addPacket s alloc packet id
  if s.lastCleanupS = 0 then ({ s with lastCleanupS := timeUsToS packet.timeUs }, rslt)
  else if cleanupDue s packet.timeUs then
    ({ cleanup cfg used s packet.timeUs with lastCleanupS := timeUsToS packet.timeUs }, rslt)
  else (s, rslt)

/-! ## Runs -/

/-- A call of the class. `alloc` is the memory that `new` gives in case a queue is created. -/
inductive Op where
  | add (alloc : Nat) (isRequest : Bool) (hbhId : Nat) (id : SQueuePacketsId) (timeUs : Nat)
      (used : SQueuePacketsId → Bool)
  | retrieve (typeRetrieve : TypeRetrieve) (identity : Bytes) (fromTime toTime : Nat)
  | cleanup (timeUs : Nat) (used : SQueuePacketsId → Bool)

/-- The stack with what was added to it: packets are numbered, and `recent` is the number of the
last request with a hop-by-hop id. -/
structure Traced where
  stack : PacketStack := {}
  count : Nat := 0
  recent : Nat → Option Nat := fun _ => none

/-- One call; `new` gives memory that is not in use. -/
def step (cfg : Config) (t : Traced) : Op → Option Traced
  | .add alloc isRequest hbhId id timeUs used =>
    if t.stack.queues alloc ≠ none then none
    else some {
      stack := (add cfg used t.stack alloc ⟨t.count, isRequest, hbhId, timeUs⟩ id).1
      count := t.count + 1
      recent := if isRequest then Function.update t.recent hbhId (some t.count) else t.recent }
  | .retrieve typeRetrieve identity fromTime toTime =>
    some { t with stack := (retrieve cfg t.stack typeRetrieve identity fromTime toTime).1 }
  | .cleanup timeUs used => some { t with stack := cleanup cfg used t.stack timeUs }

end VoipMonitor.DiameterStack
