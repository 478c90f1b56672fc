import VoipMonitor.Library.Bytes
import VoipMonitor.Library.Frames

/-!
# IPFIX messages on a connection (`ipfix.cpp`)

The connection appends what it reads to a buffer. `checkIPFixData` looks for a whole message in
the buffer, and `process` hands the whole messages to `process_ipfix` and removes them. Both walk
over the buffer in a `do`-`while` loop of their own.
-/

namespace VoipMonitor.IpFix
open VoipMonitor.Library

def headerSize : Nat := 20

def versionDefault : Nat := 10

/-- `opt_ipfix_version` is a parameter. -/
def checkIPFixVersion (optVersion : List Int) (version : Nat) : Bool :=
  if optVersion ≠ [] then optVersion.any (fun v => v = version)
  else version = versionDefault

def getVersion (header : Bytes) : Nat := be16 header 0

def getLength (header : Bytes) : Nat := be16 header 2

def Again (data : Bytes) (offset : Nat) : Prop :=
  offset < data.length ∧ data.length - offset > headerSize

instance (data : Bytes) (offset : Nat) : Decidable (Again data offset) :=
  inferInstanceAs (Decidable (_ ∧ _))

/-- One walk of `checkIPFixData` from `offset` on: the offset at its end and the number of
messages. -/
def checkLoop (optVersion : List Int) (strict : Bool) (data : Bytes) (offset counter : Nat) :
    Nat × Nat :=
  let header := data.drop offset
  if ¬checkIPFixVersion optVersion (getVersion header) then
    if strict then (offset, counter)
    else if Again data (offset + 1) then checkLoop optVersion strict data (offset + 1) counter
    else (offset + 1, counter)
  else if getLength header > data.length - offset then (offset, counter)
  else if getLength header < headerSize then
    if strict then (offset, counter)
    else if Again data (offset + headerSize) then
      checkLoop optVersion strict data (offset + headerSize) counter
    else (offset + headerSize, counter)
  else if Again data (offset + getLength header) then
    checkLoop optVersion strict data (offset + getLength header) (counter + 1)
  else (offset + getLength header, counter + 1)
termination_by data.length - offset
decreasing_by all_goals simp only [Again, headerSize, header] at *; omega

def checkIPFixData (optVersion : List Int) (data : Bytes) (strict : Bool) : Bool :=
  if data.length < headerSize then false
  else
    let (offset, counter) := checkLoop optVersion strict data 0 0
    if strict then offset = data.length else counter > 0

def check (optVersion : List Int) (data : Bytes) : Bool := checkIPFixData optVersion data false

/-- The walk of `process`: the bytes of each message handed to `process_ipfix`, and the offset at
the end. -/
def processLoop (optVersion : List Int) (data : Bytes) (offset : Nat) : List Bytes × Nat :=
  let header := data.drop offset
  if ¬checkIPFixVersion optVersion (getVersion header) then
    if Again data (offset + 1) then processLoop optVersion data (offset + 1)
    else ([], offset + 1)
  else if getLength header > data.length - offset then ([], offset)
  else if getLength header < headerSize then
    if Again data (offset + headerSize) then processLoop optVersion data (offset + headerSize)
    else ([], offset + headerSize)
  else
    let message := header.take (getLength header)
    if Again data (offset + getLength header) then
      let (messages, offset') := processLoop optVersion data (offset + getLength header)
      (message :: messages, offset')
    else ([message], offset + getLength header)
termination_by data.length - offset
decreasing_by all_goals simp only [Again, headerSize, header] at *; omega

/-- `SimpleBuffer::removeDataFromLeft`; more than there is is not removed. -/
def removeDataFromLeft (buffer : Bytes) (removeSize : Nat) : Bytes :=
  if removeSize > buffer.length then buffer else buffer.drop removeSize

/-- The messages handed to `process_ipfix`, and the buffer without them. -/
def process (optVersion : List Int) (data : Bytes) : List Bytes × Bytes :=
  if data.length < headerSize then ([], data)
  else
    let (messages, offset) := processLoop optVersion data 0
    if offset = data.length then (messages, []) else (messages, removeDataFromLeft data offset)

/-- One turn of the loop in `connection_process`; a read that gives no data is the empty list. -/
def connectionRead (optVersion : List Int) (readBuffer buffer : Bytes) : List Bytes × Bytes :=
  if buffer.length > 0 then
    if check optVersion (readBuffer ++ buffer) then process optVersion (readBuffer ++ buffer)
    else ([], readBuffer ++ buffer)
  else if readBuffer.length > 1024 * 1024 then ([], [])
  else ([], readBuffer)

/-- The messages handed to `process_ipfix` over the reads of a connection, and the buffer after
them. -/
def connectionProcess (optVersion : List Int) (reads : List Bytes) : List Bytes × Bytes :=
  readAll (connectionRead optVersion) [] reads

end VoipMonitor.IpFix

/-!
## SIP records of IPFIX messages (`ipfix.h`, `ipfix.cpp`)

A message is its `Length` bytes. The structures of the records lie behind the header, those with a
Call-ID go on behind it in a second structure. A read behind the message is an error here, and so
is a text with a negative length.
-/

namespace VoipMonitor.IpFix
open VoipMonitor.Library

inductive ReadFault where
  | outside
  | negativeLength
deriving DecidableEq

/-- Where the fields of a SIP record are. `headSize` is the size of the structure in front of the
Call-ID, if there is one, and `tailSize` the size of the structure that ends with the text. -/
structure SipLayout where
  tcp : Bool
  callIdLen : Option Nat
  headSize : Nat
  tailSize : Nat
  addressesInTail : Bool
  srcIp : Nat
  dstIp : Nat
  dstPort : Nat
  srcPort : Nat
  sipMsgLen : Nat
  callIdLen_lt : ∀ o ∈ callIdLen, o < headSize
  headSize_eq : callIdLen = none → headSize = 0
  time_le : 8 ≤ if callIdLen.isSome then headSize else tailSize
  addresses_le : max (max (srcIp + 4) (dstIp + 4)) (max (dstPort + 2) (srcPort + 2)) ≤
    if addressesInTail then tailSize else headSize
  sipMsgLen_le : sipMsgLen + 2 ≤ tailSize
  size_lt : headSize + tailSize < 256

def sIPFixSipIn : SipLayout where
  tcp := false
  callIdLen := none
  headSize := 0
  tailSize := 43
  addressesInTail := true
  srcIp := 27
  dstIp := 31
  dstPort := 35
  srcPort := 37
  sipMsgLen := 41
  callIdLen_lt := by decide
  headSize_eq := by decide
  time_le := by decide
  addresses_le := by decide
  sipMsgLen_le := by decide
  size_lt := by decide

def sIPFixSipOut : SipLayout where
  tcp := false
  callIdLen := some 12
  headSize := 13
  tailSize := 31
  addressesInTail := true
  srcIp := 15
  dstIp := 19
  dstPort := 23
  srcPort := 25
  sipMsgLen := 29
  callIdLen_lt := by decide
  headSize_eq := by decide
  time_le := by decide
  addresses_le := by decide
  sipMsgLen_le := by decide
  size_lt := by decide

def sIPFixSipInTCP : SipLayout where
  tcp := true
  callIdLen := none
  headSize := 0
  tailSize := 31
  addressesInTail := true
  dstIp := 12
  srcIp := 16
  dstPort := 20
  srcPort := 22
  sipMsgLen := 29
  callIdLen_lt := by decide
  headSize_eq := by decide
  time_le := by decide
  addresses_le := by decide
  sipMsgLen_le := by decide
  size_lt := by decide

def sIPFixSipOutTCP : SipLayout where
  tcp := true
  callIdLen := some 28
  headSize := 29
  tailSize := 3
  addressesInTail := false
  dstIp := 12
  srcIp := 16
  dstPort := 20
  srcPort := 22
  sipMsgLen := 1
  callIdLen_lt := by decide
  headSize_eq := by decide
  time_le := by decide
  addresses_le := by decide
  sipMsgLen_le := by decide
  size_lt := by decide

/-- What `process_packet` gets. -/
structure SipPacket where
  data : Bytes
  tcp : Bool
  timeSec : Nat
  timeMic : Nat
  srcIp : Nat
  srcPort : Nat
  dstIp : Nat
  dstPort : Nat
deriving DecidableEq

variable (l : SipLayout) (message : Bytes)

def readField (pos size : Nat) : Except ReadFault Nat :=
  if pos + size ≤ message.length then .ok (leNat (slice message pos size).reverse)
  else .error .outside

/-- `next`, and `CallIDLen`; the position of the structure that ends with the text. -/
def next : Except ReadFault (Nat × Nat) :=
  match l.callIdLen with
  | none => .ok (headerSize, 0)
  | some o => do
    let callIdLen ← readField message (headerSize + o) 1
    return (headerSize + l.headSize + callIdLen, callIdLen)

/-- `SipMsg`. The difference has 64 bits and is taken for an `int`. -/
def sipMsg : Except ReadFault Bytes := do
  let (next, callIdLen) ← next l message
  let sipMsgLen ← readField message (next + l.sipMsgLen) 2
  let left := Int.bmod ((getLength message : Int) - headerSize - l.headSize - l.tailSize - callIdLen)
    (2 ^ 32)
  let length := min (sipMsgLen : Int) left
  if length < 0 then throw .negativeLength
  else if next + l.tailSize + length.toNat ≤ message.length then
    return slice message (next + l.tailSize) length.toNat
  else throw .outside

/-- `process_ipfix_SipIn` and the like: `SipMsg`, `GetTime`, `GetSrc`, `GetDst`. -/
def processSip : Except ReadFault SipPacket := do
  let data ← sipMsg l message
  let timeSec ← readField message headerSize 4
  let timeMic ← readField message (headerSize + 4) 4
  let (next, _) ← next l message
  let addresses := if l.addressesInTail then next else headerSize
  let srcIp ← readField message (addresses + l.srcIp) 4
  let srcPort ← readField message (addresses + l.srcPort) 2
  let dstIp ← readField message (addresses + l.dstIp) 4
  let dstPort ← readField message (addresses + l.dstPort) 2
  return { data, tcp := l.tcp, timeSec, timeMic, srcIp, srcPort, dstIp, dstPort }

/-- What `process_ipfix` does with a message. -/
inductive IpFixAction where
  | nothing
  | write (message : Bytes)
  | packet (packet : SipPacket)
deriving DecidableEq

def getSetId : Nat := be16 message 16

/-- `process_ipfix_HandShake` writes the message back with another `SetID`. -/
def processIpFixHandShake : Bytes := overwrite message 16 (encodeBe16 257)

def processIpFixSipIn : Except ReadFault SipPacket := processSip sIPFixSipIn message

def processIpFixSipOut : Except ReadFault SipPacket := processSip sIPFixSipOut message

def processIpFixSipInTcp : Except ReadFault SipPacket := processSip sIPFixSipInTCP message

def processIpFixSipOutTcp : Except ReadFault SipPacket := processSip sIPFixSipOutTCP message

def processIpFix : Except ReadFault IpFixAction :=
  match getSetId message with
  | 256 => .ok (.write (processIpFixHandShake message))
  | 258 => .packet <$> processIpFixSipIn message
  | 259 => .packet <$> processIpFixSipOut message
  | 260 => .packet <$> processIpFixSipInTcp message
  | 261 => .packet <$> processIpFixSipOutTcp message
  | _ => .ok .nothing

end VoipMonitor.IpFix
