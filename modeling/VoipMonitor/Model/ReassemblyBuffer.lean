import VoipMonitor.Library.SortedMap
import VoipMonitor.Model.CallsHash
import VoipMonitor.Model.SipFraming

/-!
# Data of several packets (`ReassemblyBuffer`, `sniff.cpp`)

The decrypted data of a stream are collected until they are complete. What was collected is also
handed over when a packet begins a new piece of the stream and when it gets too old.
-/

namespace VoipMonitor.ReassemblyBuffer
open VoipMonitor.Library
open VoipMonitor.CallsHash (VmIP VmPort)

structure TimeVal where
  sec : Nat
  usec : Nat
deriving DecidableEq, Repr

/-- `getTimeUS`. -/
def timeUS (t : TimeVal) : Nat := (t.sec * 1000000 + t.usec) % 2 ^ 64

/-- `vmIPport`. -/
structure IpPort where
  ip : VmIP
  port : VmPort
deriving DecidableEq, Repr

def IpPort.lt (a b : IpPort) : Bool := a.ip.lt b.ip || (a.ip = b.ip && a.port < b.port)

/-- `sStreamId`. -/
structure StreamId where
  s : IpPort
  c : IpPort
deriving DecidableEq, Repr

def StreamId.lt (a b : StreamId) : Bool := IpPort.lt a.s b.s || (a.s = b.s && IpPort.lt a.c b.c)

/-- `eType` under `_type_mask`; nothing here reads the flag of incomplete data. -/
inductive DataType where
  | na | websocket | sip
deriving DecidableEq, Repr

/-- Where a packet comes from: the fields of `sData_base` that are copied only. -/
structure PacketInfo where
  handleIndex : Nat
  dlt : Int
  sensorId : Int
  sensorIp : VmIP
  vlan : Nat
  flags : Nat
deriving DecidableEq, Repr

/-- The arguments of `processPacket`. -/
structure Packet where
  ethHeader : Bytes
  id : StreamId
  type : DataType
  data : Bytes
  createStream : Bool
  time : TimeVal
  ack : Nat
  seq : Nat
  info : PacketInfo
deriving DecidableEq, Repr

/-- `sData`. -/
structure Data where
  type : DataType
  time : TimeVal
  ack : Nat
  seq : Nat
  info : PacketInfo
  ethHeader : Bytes
  buffer : Bytes

/-- `sDataRslt`. -/
structure DataRslt where
  type : DataType
  time : TimeVal
  ack : Nat
  seq : Nat
  info : PacketInfo
  ethHeader : Bytes
  data : Bytes
  id : StreamId

structure Buffer where
  streams : List (StreamId × Data)
  minTimeInStreams : Nat

def complete (id : StreamId) (b : Data) : DataRslt :=
  { type := b.type, time := b.time, ack := b.ack, seq := b.seq, info := b.info
    ethHeader := b.ethHeader, data := b.buffer, id := id }

def startPiece (p : Packet) (type : DataType) : Data :=
  { type := type, time := p.time, ack := p.ack, seq := p.seq, info := p.info
    ethHeader := p.ethHeader, buffer := [] }

def startsPiece (p : Packet) (b : Data) : Bool :=
  p.createStream || (b.type = .sip && p.ack ≠ b.ack)

def isComplete (b : Data) : Bool :=
  (b.type = .websocket && Sip.checkWebsocket b.buffer .geLimit) ||
    (b.type = .sip && b.buffer.length < 2 ^ 31 && (Sip.checkSipData b.buffer {}).count ≠ 0)

def lowerMin (minTime : Nat) (time : TimeVal) : Nat :=
  if minTime = 0 ∨ timeUS time < minTime then timeUS time else minTime

def addData (p : Packet) (b : Data) (s : Buffer) : Buffer × List DataRslt :=
  let b := { b with buffer := b.buffer ++ p.data }
  if ¬p.createStream ∧ isComplete b then
    ({ s with streams := SortedMap.erase p.id s.streams }, [complete p.id b])
  else
    ({ streams := SortedMap.set StreamId.lt p.id b s.streams
       minTimeInStreams := lowerMin s.minTimeInStreams p.time }, [])

def processPacket (p : Packet) (s : Buffer) : Buffer × List DataRslt :=
  match SortedMap.get p.id s.streams with
  | none =>
    if p.createStream then addData p (startPiece p p.type) s else (s, [])
  | some b =>
    if startsPiece p b then
      let rslt :=
        if b.buffer ≠ [] ∧ (b.time.sec : Int) > p.time.sec - 10 then [complete p.id b] else []
      let r := addData p (startPiece p (if p.type ≠ .na then p.type else b.type)) s
      (r.1, rslt ++ r.2)
    else addData p b s

def limitUS (t : TimeVal) : Nat := (timeUS t + (2 ^ 64 - 500000)) % 2 ^ 64

def isOld (t : TimeVal) (b : Data) : Bool := timeUS b.time < limitUS t

def cleanup (t : TimeVal) (s : Buffer) : Buffer × List DataRslt :=
  if s.minTimeInStreams ≠ 0 ∧ s.minTimeInStreams < limitUS t then
    let kept := s.streams.filter (fun e => !isOld t e.2)
    ({ streams := kept
       minTimeInStreams := kept.foldl (fun m e => lowerMin m e.2.time) 0 },
      (s.streams.filter (fun e => isOld t e.2)).map (fun e => complete e.1 e.2))
  else (s, [])

inductive Call where
  | packet (p : Packet)
  | cleanup (t : TimeVal)
deriving DecidableEq, Repr

structure Run where
  buffer : Buffer
  results : List DataRslt
  accepted : List Packet

def start : Run := ⟨⟨[], 0⟩, [], []⟩

def accepts (s : Buffer) (p : Packet) : Bool :=
  p.createStream || (SortedMap.get p.id s.streams).isSome

def step (r : Run) : Call → Run
  | .packet p =>
    let o := processPacket p r.buffer
    ⟨o.1, r.results ++ o.2, if accepts r.buffer p then r.accepted ++ [p] else r.accepted⟩
  | .cleanup t =>
    let o := cleanup t r.buffer
    ⟨o.1, r.results ++ o.2, r.accepted⟩

def collected (s : Buffer) (id : StreamId) : Bytes :=
  match SortedMap.get id s.streams with
  | some b => b.buffer
  | none => []

end VoipMonitor.ReassemblyBuffer
