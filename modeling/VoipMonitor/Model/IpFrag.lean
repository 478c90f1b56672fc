import Std.Data.TreeMap
import VoipMonitor.Library.Bytes

/-!
# IP defragmentation: `iphdr2` (`ip.h`) and `cIpFrag` (`ip_frag.h`)

The header accessors are the `version == 4` branch of `iphdr2`, read from the packet bytes
at the header's offset. A queue `sFrags` is a map ordered by fragment offset, and `fdata` is
indexed by the data thread and by `frags_index`, the pair of source address and
identification.
-/

namespace VoipMonitor.IpFrag
open VoipMonitor.Library

def ipprotoEsp : Nat := 50
def ipprotoEspHeaderSize : Nat := 8
def sizeofIphdr2 : Nat := 20

def version (p : Bytes) (o : Nat) : Nat := byteAt p o / 16
def getIhl (p : Bytes) (o : Nat) : Nat := byteAt p o % 16
def getTotLen (p : Bytes) (o : Nat) : Nat := be16 p (o + 2)
def getFragId (p : Bytes) (o : Nat) : Nat := be16 p (o + 4)
def getFragData (p : Bytes) (o : Nat) : Nat := be16 p (o + 6)
def getProtocol (p : Bytes) (o : Nat) : Nat := byteAt p (o + 9)
def getSaddr (p : Bytes) (o : Nat) : Nat := be32 p (o + 12)
def getDaddr (p : Bytes) (o : Nat) : Nat := be32 p (o + 16)

def isMoreFrag (fragData : Nat) : Bool := fragData / 0x2000 % 2 = 1
def getFragOffset (fragData : Nat) : Nat := fragData % 0x2000 * 8

def getHdrSize (p : Bytes) (o : Nat) : Nat :=
  sizeofIphdr2 + if getProtocol p o = ipprotoEsp then ipprotoEspHeaderSize else 0

def setTotLen (p : Bytes) (o totLen : Nat) : Bytes := overwrite p (o + 2) (encodeBe16 totLen)
def clearFragData (p : Bytes) (o : Nat) : Bytes := overwrite p (o + 6) (encodeBe16 0)
def setCheck (p : Bytes) (o check : Nat) : Bytes := overwrite p (o + 10) (encodeBe16 check)

structure SPacketInfoData where
  vlan : Nat := 0xFFFF
  flags : Nat := 0
deriving DecidableEq, Repr

/-- What `defrag` reads and writes of an `sHeaderPacket` or of an `sHeaderPacketPQout`: the
capture header, the packet information and the captured bytes. -/
structure Packet where
  tvSec : Nat := 0
  tvUsec : Nat := 0
  caplen : Nat
  len : Nat
  pid : SPacketInfoData := {}
  packet : Bytes
deriving DecidableEq, Repr

/-- Which of the two packet arguments of `defrag` is set. -/
inductive PacketPath where
  | headerPacket
  | headerPacketPQout

structure SFrag where
  packet : Packet
  headerIpOffset : Nat
  ts : Nat
  offset : Nat
  len : Nat
  iphdrLen : Nat

structure SFrags where
  map : Std.TreeMap Nat SFrag := {}
  hasLast : Bool := false

structure CIpFrag where
  fdataThreadsSplit : Nat := 1
  fdata : Nat → Nat × Nat → Option SFrags := fun _ _ => none

/-- The integer a call returns and what it leaves behind the packet argument (`none` for the
`NULL` stored when the packet has moved into the queue). -/
structure DefragResult where
  res : Int
  out : Option Packet

/-- The loop that sums `totallen`, with the cut at the largest IP datagram. -/
def totallen (l : List SFrag) : Nat :=
  let h := (l.head?.map (·.headerIpOffset)).getD 0
  let sum := l.zipIdx.foldl (fun t (frag, i) =>
    let t := add32 t frag.len
    if i = 0 then t else sub32 t frag.iphdrLen) h
  if sum > add32 0xFFFF h then add32 0xFFFF h else sum

structure CopyState where
  out : Packet
  iphdr : Option Nat := none
  len : Nat := 0
  additionallen : Nat := 0
  pid : SPacketInfoData := {}

/-- The `memcpy` of both loops: `src` goes to the current position of the new packet. -/
def CopyState.write (st : CopyState) (src : Bytes) : CopyState :=
  { st with out := { st.out with packet := overwrite st.out.packet st.len src } }

/-- The part of both copy loops for the last fragment: the new capture header is that of the
last fragment, with the lengths and the packet information replaced. -/
def copyLastHeader (total count i : Nat) (frag : SFrag) (st : CopyState) : CopyState :=
  if i = count - 1 then
    { st with out := { frag.packet with
        len := total, caplen := total, pid := st.pid, packet := st.out.packet } }
  else st

/-- Both loops copy the link header of the first fragment when it has one; the position is
still 0 there. -/
def copyLinkHeader (frag : SFrag) (st : CopyState) : CopyState :=
  if frag.headerIpOffset ≠ 0 then
    let len := add32 st.len frag.headerIpOffset
    { st.write (slice frag.packet.packet 0 frag.headerIpOffset) with
      len := len, iphdr := some len }
  else st

def copyHeaderPacket (total count : Nat) (st : CopyState) (frag : SFrag) (i : Nat) : CopyState :=
  let src := frag.packet.packet
  let st :=
    if i = 0 then
      let st := copyLinkHeader frag st
      { st.write (slice src frag.headerIpOffset frag.len) with
        len := add32 st.len frag.len, pid := frag.packet.pid }
    else if st.len < total then
      let cpyLen := min (sub32 frag.len frag.iphdrLen) (sub32 total st.len)
      { st.write (slice src (frag.headerIpOffset + frag.iphdrLen) cpyLen) with
        len := add32 st.len cpyLen, additionallen := add32 st.additionallen cpyLen }
    else st
  copyLastHeader total count i frag st

/-- One round of the `header_packet_pqout` copy loop: the bytes copied are limited by the
captured length, the position advances by the length the fragment declares. -/
def copyPQout (total count : Nat) (st : CopyState) (frag : SFrag) (i : Nat) : CopyState :=
  let src := frag.packet.packet
  let caplen := frag.packet.caplen
  let st :=
    if i = 0 then
      let st := copyLinkHeader frag st
      let cpyLen := min frag.len
        (if caplen > frag.headerIpOffset then caplen - frag.headerIpOffset else 0)
      { st.write (slice src frag.headerIpOffset cpyLen) with
        len := add32 st.len frag.len, pid := frag.packet.pid }
    else if st.len < total then
      let fragLen := min (sub32 frag.len frag.iphdrLen) (sub32 total st.len)
      let start := add32 frag.headerIpOffset frag.iphdrLen
      let cpyLen := min fragLen (if caplen > start then caplen - start else 0)
      { st.write (slice src (frag.headerIpOffset + frag.iphdrLen) cpyLen) with
        len := add32 st.len fragLen, additionallen := add32 st.additionallen fragLen }
    else st
  copyLastHeader total count i frag st

def copyFrag : PacketPath → Nat → Nat → CopyState → SFrag → Nat → CopyState
  | .headerPacket => copyHeaderPacket
  | .headerPacketPQout => copyPQout

/-- The header fix-up at the end of `dequeue`, done only when `iphdr` was set. -/
def fixIphdr (st : CopyState) : Packet :=
  match st.iphdr with
  | none => st.out
  | some o =>
    let p := setTotLen st.out.packet o (add32 (getTotLen st.out.packet o) st.additionallen)
    { st.out with packet := clearFragData (setCheck p o 0) o }

/-- `dequeue`: the packet built from the queue in the order of the fragment offsets. The
fresh buffer of `totallen` bytes is modelled as zeros. -/
def dequeue (path : PacketPath) (frags : SFrags) : Packet :=
  let l := frags.map.toList.map Prod.snd
  let total := totallen l
  let st : CopyState := { out := { caplen := 0, len := 0, packet := List.replicate total 0 } }
  fixIphdr (l.zipIdx.foldl (fun st (frag, i) => copyFrag path total l.length st frag i) st)

/-- The scan that checks for missing middle fragments. -/
def contiguous : Nat → List SFrag → Bool
  | _, [] => true
  | lastoffset, frag :: rest =>
    if frag.offset ≠ lastoffset then false
    else contiguous (add32 lastoffset (sub32 frag.len frag.iphdrLen)) rest

def complete (frags : SFrags) : Bool :=
  let l := frags.map.toList.map Prod.snd
  frags.hasLast && (l.head?.map (·.offset)) == some 0 && contiguous 0 l

def mkFrag (pkt : Packet) (headerIpOffset len : Nat) : SFrag where
  packet := pkt
  headerIpOffset := headerIpOffset
  ts := pkt.tvSec
  offset := getFragOffset (getFragData pkt.packet headerIpOffset)
  len := len
  iphdrLen := getHdrSize pkt.packet headerIpOffset -
    if getProtocol pkt.packet headerIpOffset = ipprotoEsp then ipprotoEspHeaderSize else 0

def add (path : PacketPath) (frags : SFrags) (pkt : Packet) (headerIpOffset len : Nat) :
    DefragResult × SFrags :=
  let fragData := getFragData pkt.packet headerIpOffset
  let offsetD := getFragOffset fragData
  let frags :=
    if !isMoreFrag fragData && offsetD ≠ 0 then { frags with hasLast := true } else frags
  if frags.map.contains offsetD then
    (⟨-1, some pkt⟩, frags)
  else
    let frags := { frags with map := frags.map.insert offsetD (mkFrag pkt headerIpOffset len) }
    if complete frags then
      (⟨1, some (dequeue path frags)⟩, frags)
    else
      (⟨0, match path with | .headerPacket => none | .headerPacketPQout => some pkt⟩, frags)

/-- The data thread of a call: the one given, or the one chosen by the source address. -/
def fdataIndex (s : CIpFrag) (p : Bytes) (o : Nat) (fdataThreadIndex : Int) : Nat :=
  if fdataThreadIndex < 0 then
    if s.fdataThreadsSplit > 1 then getSaddr p o % s.fdataThreadsSplit else 0
  else fdataThreadIndex.toNat

def setFrags (s : CIpFrag) (i : Nat) (key : Nat × Nat) (q : Option SFrags) : CIpFrag :=
  { s with fdata := fun j k => if j = i ∧ k = key then q else s.fdata j k }

def defrag (path : PacketPath) (s : CIpFrag) (pkt : Packet) (headerIpOffset : Nat)
    (fdataThreadIndex : Int) : DefragResult × CIpFrag :=
  let i := fdataIndex s pkt.packet headerIpOffset fdataThreadIndex
  let key := (getSaddr pkt.packet headerIpOffset, getFragId pkt.packet headerIpOffset)
  let frags := (s.fdata i key).getD {}
  let r := add path frags pkt headerIpOffset (getTotLen pkt.packet headerIpOffset)
  (r.1, setFrags s i key (if r.1.res > 0 then none else some r.2))

/-- One call of `defrag`: the packet, the offset of its IP header and the data thread. -/
structure DefragCall where
  pkt : Packet
  headerIpOffset : Nat
  fdataThreadIndex : Int := -1

def runDefrag (path : PacketPath) : CIpFrag → List DefragCall → List DefragResult × CIpFrag
  | s, [] => ([], s)
  | s, c :: cs =>
    let r := defrag path s c.pkt c.headerIpOffset c.fdataThreadIndex
    let rest := runDefrag path r.2 cs
    (r.1 :: rest.1, rest.2)

end VoipMonitor.IpFrag
