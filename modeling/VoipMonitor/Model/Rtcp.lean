import VoipMonitor.Library.Bytes

/-!
# RTCP (`rtcp.cpp`)

`parse_rtcp` walks over the packets of a payload. The reports of a packet are read up to the end of
the payload, for as many as its header counts. What is read goes into the statistics of a stream; of
these only the round-trip delays are modelled. The bytes are the memory from the payload on, which
goes on behind its `datalen` bytes.
-/

namespace VoipMonitor.Rtcp
open VoipMonitor.Library

def headerSize : Nat := 4

def senderInfoSize : Nat := 24

def reportBlockSize : Nat := 24

def xrHeaderSize : Nat := 8

def xrGenSize : Nat := 4

def voipMetricsSize : Nat := 32

def packetTypeSr : Nat := 200

def packetTypeRr : Nat := 201

def packetTypeXr : Nat := 207

def xrVoipMetrics : Nat := 7

structure SenderInfo where
  senderSsrc : Nat
  timestampMSW : Nat
  timestampLSW : Nat
deriving DecidableEq, Repr

structure ReportBlock where
  ssrc : Nat
  fracLost : Nat
  packetsLost : Nat
  jitter : Nat
  lsr : Nat
  delaySinceLsr : Nat
deriving DecidableEq, Repr

structure VoipMetrics where
  ssrc : Nat
  lossRate : Nat
  mosLq : Nat
deriving DecidableEq, Repr

def readSenderInfo (data : Bytes) (pkt : Nat) : SenderInfo where
  senderSsrc := be32 data pkt
  timestampMSW := be32 data (pkt + 4)
  timestampLSW := be32 data (pkt + 8)

def readReportBlock (data : Bytes) (pkt : Nat) : ReportBlock where
  ssrc := be32 data pkt
  fracLost := byteAt data (pkt + 4)
  packetsLost := be24 data (pkt + 5)
  jitter := be32 data (pkt + 12)
  lsr := be32 data (pkt + 16)
  delaySinceLsr := be32 data (pkt + 20)

def readVoipMetrics (data : Bytes) (pkt : Nat) : VoipMetrics where
  ssrc := be32 data pkt
  lossRate := byteAt data (pkt + 4)
  mosLq := byteAt data (pkt + 22)

/-! ## The reports of a packet, with their places -/

/-- The loop over the report blocks in `dump_rtcp_sr` and `dump_rtcp_rr`; `stop` is the end of the
payload. -/
def reportBlocks (data : Bytes) (stop : Nat) : Nat → Nat → List (Nat × ReportBlock)
  | 0, _ => []
  | count + 1, pkt =>
    if pkt + reportBlockSize ≤ stop then
      (pkt, readReportBlock data pkt) :: reportBlocks data stop count (pkt + reportBlockSize)
    else []

def dumpRtcpSr (data : Bytes) (pkt stop count : Nat) :
    Option SenderInfo × List (Nat × ReportBlock) :=
  if pkt + senderInfoSize < stop then
    (some (readSenderInfo data pkt), reportBlocks data stop count (pkt + senderInfoSize))
  else (none, [])

def dumpRtcpRr (data : Bytes) (pkt stop count : Nat) : List (Nat × ReportBlock) :=
  if pkt + 4 < stop then reportBlocks data stop count (pkt + 4) else []

/-- The loop of `dump_rtcp_xr`. Each round takes at least four bytes of `all_block_size`, so the
bound is never reached. -/
def xrBlocks (data : Bytes) (stop : Nat) : Nat → Int → Nat → List (Nat × VoipMetrics)
  | 0, _, _ => []
  | fuel + 1, allBlockSize, pkt =>
    if allBlockSize > xrGenSize then
      if pkt + xrGenSize > stop then []
      else
        let blockSize := xrGenSize + be16 data (pkt + 2) * 4
        let rest := xrBlocks data stop fuel (allBlockSize - blockSize) (pkt + blockSize)
        if byteAt data pkt ≠ xrVoipMetrics then rest
        else (pkt, readVoipMetrics data (pkt + xrGenSize)) :: rest
    else []

def dumpRtcpXr (data : Bytes) (pkt datalen rtcpSize : Nat) : List (Nat × VoipMetrics) :=
  xrBlocks data (pkt + datalen) rtcpSize (rtcpSize - xrHeaderSize) (pkt + xrHeaderSize)

/-! ## The packets of a payload -/

inductive Content where
  | sr (sender : Option SenderInfo) (reports : List (Nat × ReportBlock))
  | rr (reports : List (Nat × ReportBlock))
  | xr (reports : List (Nat × VoipMetrics))
  | other
deriving DecidableEq, Repr

/-- A packet with its place and `rtcp_size`. -/
structure RtcpPacket where
  start : Nat
  size : Nat
  content : Content
deriving DecidableEq, Repr

def rtcpSize (data : Bytes) (pkt : Nat) : Nat := be16 data (pkt + 2) * 4 + headerSize

def version (data : Bytes) (pkt : Nat) : Nat := byteAt data pkt / 64

def rcSc (data : Bytes) (pkt : Nat) : Nat := byteAt data pkt % 32

def packetType (data : Bytes) (pkt : Nat) : Nat := byteAt data (pkt + 1)

/-- The `switch` over the type. -/
def readContent (data : Bytes) (datalen pkt : Nat) : Content :=
  let rtcpData := pkt + headerSize
  if packetType data pkt = packetTypeSr then
    let r := dumpRtcpSr data rtcpData datalen (rcSc data pkt)
    .sr r.1 r.2
  else if packetType data pkt = packetTypeRr then
    .rr (dumpRtcpRr data rtcpData datalen (rcSc data pkt))
  else if packetType data pkt = packetTypeXr then
    .xr (dumpRtcpXr data pkt (datalen - rtcpData) (rtcpSize data pkt))
  else .other

def packetIsOk (data : Bytes) (datalen pkt : Nat) : Bool :=
  decide (pkt + headerSize < datalen) && version data pkt == 2 &&
    decide (pkt + rtcpSize data pkt ≤ datalen)

/-- The loop of `parse_rtcp`. A packet has at least four bytes, so the bound is never reached. -/
def parseLoop (data : Bytes) (datalen : Nat) : Nat → Nat → List RtcpPacket
  | 0, _ => []
  | fuel + 1, pkt =>
    if packetIsOk data datalen pkt then
      { start := pkt, size := rtcpSize data pkt, content := readContent data datalen pkt } ::
        parseLoop data datalen fuel (pkt + rtcpSize data pkt)
    else []

def parseRtcp (data : Bytes) (datalen : Nat) : List RtcpPacket := parseLoop data datalen datalen 0

/-! ## Round-trip delays

A sender report marks its stream with the time at which it is seen. A report block that names it
gives a delay. The delays in `rtd_sum`, which come from the reports alone, are left out.
Times are in microseconds. -/

/-- What has been done with a stream: it was marked by a sender report, or a block named it and a
delay was added or not. -/
inductive Event where
  | senderReport (lsr ts : Nat)
  | block (lsr delaySinceLsr ts : Nat) (added : Option Nat)
deriving DecidableEq, Repr

/-- The members of `rtcp_t` for the delays. -/
structure RtcpStats where
  lsr4compare : Nat := 0
  sniffTs : Nat := 0
  rtdWSum : Nat := 0
  rtdWCount : Nat := 0
  rtdWMax : Nat := 0
deriving DecidableEq, Repr

/-- What is read of a stream; `events` records what happens, the newest first. -/
structure Stream where
  ssrc : Nat
  saddr : Nat
  daddr : Nat
  rtcp : RtcpStats := {}
  events : List Event := []
deriving DecidableEq, Repr

structure Datagram where
  data : Bytes
  datalen : Nat
  ts : Nat
  ipSrc : Nat
  ipDst : Nat

/-- The last index of a loop without `break`. -/
def lastIndex (streams : List Stream) (f : Stream → Bool) : Option Nat :=
  (List.range streams.length).reverse.find? (fun i => (streams[i]?.map f).getD false)

def onlyOther (streams : List Stream) (i ipSrc ipDst : Nat) : Option Nat :=
  let opposite : Stream → Bool := fun r => r.saddr = ipDst ∧ r.daddr = ipSrc
  match (List.range streams.length).filter (fun j =>
    j ≠ i && (streams[j]?.map opposite).getD false) with
  | [j] => some j
  | _ => none

def findRtp (streams : List Stream) (ssrc ssrcSender ipSrc ipDst : Nat) : Option Nat :=
  let bySsrc := if ssrc ≠ 0 then
      lastIndex streams (fun r => r.ssrc = ssrc ∧ r.saddr = ipDst ∧ r.daddr = ipSrc)
    else none
  let bySender := if ssrcSender ≠ 0 then
      (streams.findIdx? (fun r => r.ssrc = ssrcSender ∧ r.saddr = ipSrc ∧ r.daddr = ipDst)).bind
        (fun i => onlyOther streams i ipSrc ipDst)
    else none
  (bySsrc.or bySender).or (lastIndex streams (fun r => r.ssrc = ssrc))

def findSender (streams : List Stream) (ssrc ipSrc ipDst : Nat) : Option Nat :=
  (streams.findIdx? (fun r => r.ssrc = ssrc ∧
    (r.saddr = ipSrc ∧ r.daddr = ipDst ∨ r.saddr = ipDst ∧ r.daddr = ipSrc))).or
    (streams.findIdx? (fun r => r.ssrc = ssrc))

def curLsr (sender : SenderInfo) : Nat :=
  sender.timestampMSW % 65536 * 65536 + sender.timestampLSW / 65536

def Stream.mark (lsr ts : Nat) (r : Stream) : Stream :=
  { r with
    rtcp := { r.rtcp with lsr4compare := lsr, sniffTs := ts }
    events := .senderReport lsr ts :: r.events }

/-- `ms`, an `unsigned int`; the product is one too. -/
def delayMs (ts sniffTs delaySinceLsr : Nat) : Nat :=
  ((((ts : Int) - sniffTs) / 1000 - (delaySinceLsr * 1000 % 2 ^ 32 / 65536 : Nat)) % 2 ^ 32).toNat

/-- The delay that a block adds. -/
def RtcpStats.measured (r : RtcpStats) (lsr delaySinceLsr ts : Nat) : Option Nat :=
  if lsr ≠ 0 ∧ delaySinceLsr ≠ 0 ∧ r.lsr4compare = lsr ∧ r.sniffTs ≠ 0 then
    let ms := delayMs ts r.sniffTs delaySinceLsr
    if ms > 0 then some ms else none
  else none

def RtcpStats.addDelay (r : RtcpStats) : Option Nat → RtcpStats
  | none => r
  | some ms =>
    { r with
      rtdWCount := (r.rtdWCount + 1) % 2 ^ 32
      rtdWSum := (r.rtdWSum + ms) % 2 ^ 32
      rtdWMax := if r.rtdWMax < ms then ms else r.rtdWMax }

/-- The part for the delay, which is the same in `dump_rtcp_sr` and `dump_rtcp_rr`. -/
def Stream.report (ts : Nat) (b : ReportBlock) (r : Stream) : Stream :=
  let added := r.rtcp.measured b.lsr b.delaySinceLsr ts
  { r with
    rtcp := r.rtcp.addDelay added
    events := .block b.lsr b.delaySinceLsr ts added :: r.events }

def useBlock (d : Datagram) (ssrcSender : Nat) (streams : List Stream) (b : ReportBlock) :
    List Stream :=
  match findRtp streams b.ssrc ssrcSender d.ipSrc d.ipDst with
  | none => streams
  | some i => streams.modify i (Stream.report d.ts b)

def useSr (d : Datagram) (streams : List Stream) (sender : SenderInfo)
    (reports : List (Nat × ReportBlock)) : List Stream :=
  let streams :=
    match findSender streams sender.senderSsrc d.ipSrc d.ipDst with
    | none => streams
    | some i => streams.modify i (Stream.mark (curLsr sender) d.ts)
  (reports.map Prod.snd).foldl (useBlock d sender.senderSsrc) streams

def usePacket (d : Datagram) (streams : List Stream) (packet : RtcpPacket) : List Stream :=
  match packet.content with
  | .sr (some sender) reports => useSr d streams sender reports
  | .rr reports => (reports.map Prod.snd).foldl (useBlock d 0) streams
  | _ => streams

inductive CallStep where
  | newStream (ssrc saddr daddr : Nat)
  | rtcp (d : Datagram)

def callStep (streams : List Stream) : CallStep → List Stream
  | .newStream ssrc saddr daddr => streams ++ [{ ssrc := ssrc, saddr := saddr, daddr := daddr }]
  | .rtcp d => (parseRtcp d.data d.datalen).foldl (usePacket d) streams

end VoipMonitor.Rtcp
