import Mathlib
import VoipMonitor.Library.ReadBound

/-!
# The payload of an RTP packet (`RTP::get_payload_len`, `rtp.cpp`)

Padding, the list of contributing sources and the header extension are taken off one after another.
The bytes are the memory from the packet on, which goes on behind its `len` bytes.
-/

namespace VoipMonitor.Rtp
open VoipMonitor.Library

def fixedHeaderSize : Nat := 12

def extensionHeaderSize : Nat := 4

/-! The bit fields in the first byte of the header. -/

def getPadding (first : Nat) : Bool := first / 32 % 2 = 1

def getExtension (first : Nat) : Bool := first / 16 % 2 = 1

def getCC (first : Nat) : Nat := first % 16

/-- The members that the function sets; `payloadData` is the distance from `data`. -/
structure Payload where
  payloadData : Nat
  payloadLen : Int
  paddingLen : Nat
deriving DecidableEq, Repr

def removePadding (data : Bytes) (len first : Nat) (p : Payload) : Reading Payload :=
  if getPadding first then do
    let padding ← read8 data (len - 1)
    if padding > 0 ∧ padding < p.payloadLen then
      pure { p with payloadLen := p.payloadLen - padding, paddingLen := padding }
    else pure p
  else pure p

def removeCsrc (first : Nat) (p : Payload) : Payload :=
  if getCC first > 0 then
    let cc := 4 * getCC first
    if cc > 0 ∧ cc < p.payloadLen then
      { p with payloadData := p.payloadData + cc, payloadLen := p.payloadLen - cc }
    else p
  else p

def removeExtension (data : Bytes) (first : Nat) (p : Payload) : Reading Payload :=
  if getExtension first then do
    let length ← read16 data (p.payloadData + 2)
    let size := extensionHeaderSize + length * 4
    if p.payloadLen - size < 2 then
      pure { p with payloadData := fixedHeaderSize, payloadLen := 0 }
    else pure { p with payloadData := p.payloadData + size, payloadLen := p.payloadLen - size }
  else pure p

def getPayloadLen (data : Bytes) (len paddingLen : Nat) : Reading Payload := do
  let first ← read8 data 0
  let p ← removePadding data len first ⟨fixedHeaderSize, len - fixedHeaderSize, paddingLen⟩
  removeExtension data first (removeCsrc first p)

def readAccepts (p : Payload) : Bool := !decide (p.payloadLen < 0)

end VoipMonitor.Rtp

/-!
## Sequence numbers and lost packets of an RTP stream (`rtp.cpp`)

`update_seq` follows the highest sequence number and counts its cycles, and `update_stats` takes
the loss from what should have been received and what has been. Times are in microseconds. The
delays and the jitter, which the loss does not depend on, are left out.
-/

namespace VoipMonitor.Rtp

def seqMod : Nat := 65536

def maxDropout : Nat := 3000

def maxMisorder : Nat := 100

def minSequential : Nat := 2

/-- A value in an `int`. -/
def toInt (x : Int) : Int := Int.bmod x (2 ^ 32)

/-- A value in a `u_int32_t`. -/
def toU32 (x : Int) : Nat := (x % 2 ^ 32).toNat

structure Source where
  maxSeq : Nat
  cycles : Int
  baseSeq : Nat
  badSeq : Nat
  probation : Nat
  received : Nat
  lastTimeRecJ : Int

structure Stats where
  received : Nat
  lost : Nat
  lost2 : Nat
  lastLost : Int

structure RTP where
  first : Bool
  s : Source
  stats : Stats
  lastSeq : Int
  lastVoiceFrameTs : Int
  forcemark2 : Bool
  isVideo : Bool

/-- What the functions read of a packet; `televent` and `dtmf` are
`codec == PAYLOAD_TELEVENT` and `lastframetype == AST_FRAME_DTMF`. -/
structure Packet where
  seq : Nat
  headerTs : Int
  televent : Bool
  dtmf : Bool
deriving DecidableEq, Repr

/-- The packets lost if `seq` is the highest number. -/
def Source.lostAt (s : Source) (seq : Nat) : Int :=
  toInt (s.cycles + seq - ((s.baseSeq + 1) % 2 ^ 32 : Nat) - s.received)

def Source.initSeq (s : Source) (seq : Nat) : Source :=
  { s with baseSeq := seq, maxSeq := seq, badSeq := seqMod + 1, cycles := 0, received := 0 }

/-- A jump that is too large for the time since the packet before is taken as a new begin. -/
def RTP.resetBaseSeq (r : RTP) (p : Packet) : RTP :=
  let tsdiff2 := (p.headerTs - r.s.lastTimeRecJ).natAbs / 1000
  if r.s.lostAt p.seq - r.stats.lastLost > 200 ∧ tsdiff2 < 1000 then
    { r with s := { r.s with
        cycles := r.s.cycles - r.s.baseSeq + r.s.maxSeq
        baseSeq := p.seq
        maxSeq := p.seq } }
  else r

def RTP.countReceived (r : RTP) : RTP :=
  { r with
    s := { r.s with received := (r.s.received + 1) % 2 ^ 32 }
    stats := { r.stats with received := (r.stats.received + 1) % 2 ^ 32 } }

/-- `update_seq` and its result; the option is `opt_disable_rtp_seq_probation`. -/
def RTP.updateSeq (disableProbation : Bool) (r : RTP) (p : Packet) : RTP × Bool :=
  let r := r.resetBaseSeq p
  let seq := p.seq
  if r.first then
    let s := r.s.initSeq seq
    ({ r with
      first := false
      s := { s with
        maxSeq := (seq + seqMod - 1) % seqMod
        probation := if disableProbation then 0 else minSequential
        lastTimeRecJ := p.headerTs } }, false)
  else
    let udelta := (seq + seqMod - r.s.maxSeq) % seqMod
    if r.s.probation ≠ 0 then
      if seq = r.s.maxSeq + 1 then
        if r.s.probation - 1 = 0 then
          ({ r with s := { r.s.initSeq seq with probation := 0 } }.countReceived, true)
        else ({ r with s := { r.s with probation := r.s.probation - 1, maxSeq := seq } }, false)
      else ({ r with s := { r.s with probation := minSequential - 1, maxSeq := seq } }, false)
    else if udelta < maxDropout then
      let cycles := if seq < r.s.maxSeq ∧ (¬disableProbation ∨ r.s.received > 0) then
        r.s.cycles + seqMod else r.s.cycles
      ({ r with s := { r.s with cycles := cycles, maxSeq := seq } }.countReceived, true)
    else if udelta ≤ seqMod - maxMisorder then
      if seq = r.s.badSeq then ({ r with s := r.s.initSeq seq }.countReceived, true)
      else ({ r with s := { r.s with badSeq := (seq + 1) % seqMod } }, false)
    else (r.countReceived, true)

/-- The base is moved where another stream with the same SSRC has the numbers in between; `others`
are the highest numbers of those streams. -/
def Source.interlaced (s : Source) (lastSeq : Int) (lost : Int) (others : List Nat) : Source :=
  let maxSeqOtherSsrc := others.foldl max 0
  if lost > 100 ∧ s.maxSeq - lastSeq ≥ lost ∧ maxSeqOtherSsrc > lastSeq ∧
      maxSeqOtherSsrc < s.maxSeq then
    { s with baseSeq := toU32 (s.cycles + s.maxSeq - s.received - 1 - (s.maxSeq - maxSeqOtherSsrc - 1)) }
  else s

/-- `s->cycles += lost * -1` for a negative loss. -/
def Source.clampLost (s : Source) (lost : Int) : Source :=
  if lost < 0 then { s with cycles := s.cycles - lost } else s

/-- The end of `update_stats`, where the loss is added up. -/
def RTP.addLost (r : RTP) (lost : Int) : RTP :=
  let grown := lost - r.stats.lastLost
  let stats : Stats :=
    if r.forcemark2 then { r.stats with lost2 := toU32 (r.stats.lost2 + grown) }
    else if lost > r.stats.lastLost then
      { r.stats with
        lost2 := toU32 (r.stats.lost2 + grown)
        lost := toU32 (r.stats.lost + grown) }
    else r.stats
  { r with stats := { stats with lastLost := lost }, forcemark2 := false }

/-- `update_stats`. A frame of an event and the first voice frame end it before the loss is added
up. -/
def RTP.updateStats (others : List Nat) (r : RTP) (p : Packet) : RTP :=
  let s := r.s.interlaced r.lastSeq (r.s.lostAt r.s.maxSeq) others
  let lost := s.lostAt s.maxSeq
  let r := { r with s := s.clampLost lost }
  let lost := max lost 0
  if ¬r.isVideo then
    let noVoice : Bool := r.lastVoiceFrameTs / 1000000 = 0
    if p.televent ∨ p.dtmf then
      if ¬p.televent ∧ noVoice then { r with lastVoiceFrameTs := p.headerTs }
      else { r with forcemark2 := false }
    else if noVoice then { r with lastVoiceFrameTs := p.headerTs, forcemark2 := false }
    else
      { r with lastVoiceFrameTs := p.headerTs, s := { r.s with lastTimeRecJ := p.headerTs } }.addLost
        lost
  else r.addLost lost

/-- A packet is given to `update_seq` and, if that says so, to `update_stats`. -/
def RTP.packet (disableProbation : Bool) (others : List Nat) (r : RTP) (p : Packet) : RTP :=
  let (r, ok) := r.updateSeq disableProbation p
  let r := if ok then r.updateStats others p else r
  { r with lastSeq := p.seq }

end VoipMonitor.Rtp
