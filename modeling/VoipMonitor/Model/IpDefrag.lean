import VoipMonitor.Model.IpFrag

/-!
# Defragmentation of both IP versions

The accessors of `iphdr2` for both versions (`ip.h`), with the extension headers of version 6
(`ip.cpp`), and `cIpFrag` over them. `pcapProcess` (`sniff_inline.cpp`) gives a fragment to
`defrag` when the length in its header fits into what was captured.
-/

namespace VoipMonitor.IpDefrag
open VoipMonitor.Library VoipMonitor.IpFrag

def sizeofIp6hdr2 : Nat := 40

def ipprotoFragment : Nat := 44

def ip6ExtHeadersMax : Nat := 10

def isExtHeader (headerId : Nat) : Bool :=
  headerId = 0 || headerId = 43 || headerId = ipprotoFragment || headerId = 58 || headerId = 59 ||
    headerId = 60 || headerId = 135

def getExtHeaderSize (p : Bytes) (pos headerId : Nat) : Nat :=
  if headerId = ipprotoFragment then 8 else if isExtHeader headerId then byteAt p (pos + 1) else 0

/-- What `get_ext_headers` finds: the headers with their positions, the position behind them and
the protocol. -/
structure ExtHeaders where
  headers : List (Nat × Nat)
  stop : Nat
  proto : Nat
deriving DecidableEq, Repr

/-- The loop of `get_ext_headers` with the room in the array of types; `none` stands for the result
`(u_int8_t)-1`. -/
def extHeadersFrom (p : Bytes) : Nat → Nat → Nat → Option ExtHeaders
  | room, pos, nxt =>
    if isExtHeader nxt then
      let size := getExtHeaderSize p pos nxt
      if size = 0 then none
      else
        match room with
        | 0 => none
        | room + 1 =>
          (extHeadersFrom p room (pos + size) (byteAt p pos)).map
            (fun e => { e with headers := (nxt, pos) :: e.headers })
    else if nxt = 255 then none
    else some ⟨[], pos, nxt⟩

def getExtHeaders (p : Bytes) (o : Nat) : Option ExtHeaders :=
  extHeadersFrom p ip6ExtHeadersMax (o + sizeofIp6hdr2) (byteAt p (o + 6))

def fragmentHeader (p : Bytes) (o : Nat) : Option Nat :=
  (getExtHeaders p o).bind (fun e => (e.headers.find? (fun h => h.1 = ipprotoFragment)).map Prod.snd)

def totLen (p : Bytes) (o : Nat) : Nat :=
  if version p o = 4 then getTotLen p o else sizeofIp6hdr2 + be16 p (o + 4)

def fragData (p : Bytes) (o : Nat) : Nat :=
  if version p o = 4 then getFragData p o
  else (fragmentHeader p o).elim 0 (fun q => be16 p (q + 2))

def moreFrag (p : Bytes) (o : Nat) : Bool :=
  if version p o = 4 then isMoreFrag (fragData p o) else fragData p o % 2 = 1

def fragOffset (p : Bytes) (o : Nat) : Nat :=
  if version p o = 4 then getFragOffset (fragData p o) else fragData p o / 8 * 8

def fragId (p : Bytes) (o : Nat) : Nat :=
  if version p o = 4 then getFragId p o
  else (fragmentHeader p o).elim 0 (fun q => be32 p (q + 4))

def saddr (p : Bytes) (o : Nat) : Bytes :=
  if version p o = 4 then slice p (o + 12) 4 else slice p (o + 8) 16

/-- `get_hdr_size` without the header of ESP. A chain of extension headers that is not valid has no
fragment header, so that such a packet does not come here. -/
def iphdrLen (p : Bytes) (o : Nat) : Nat :=
  if version p o = 4 then sizeofIphdr2
  else (getExtHeaders p o).elim 65535 (fun e => e.stop - o)

/-- The test for a fragment in `pcapProcess`. -/
def isIpFrag (p : Bytes) (o : Nat) : Bool := moreFrag p o || fragOffset p o ≠ 0

def putTotLen (p : Bytes) (o n : Nat) : Bytes :=
  if version p o = 4 then setTotLen p o n
  else overwrite p (o + 4) (encodeBe16 (sub32 n sizeofIp6hdr2))

def putCheck (p : Bytes) (o check : Nat) : Bytes :=
  if version p o = 4 then setCheck p o check else p

def resetFragData (p : Bytes) (o : Nat) : Bytes :=
  if version p o = 4 then clearFragData p o
  else (fragmentHeader p o).elim p (fun q => overwrite p (q + 2) (encodeBe16 0))

/-- A packet in `pcapProcess`; the offset of its IP header is a number of 16 bits, and the captured
bytes are in the buffer. -/
structure Call where
  pkt : Packet
  headerIpOffset : Nat
  offset_lt : headerIpOffset < 65536
  captured : pkt.caplen ≤ pkt.packet.length

def Call.frag (c : Call) : SFrag where
  packet := c.pkt
  headerIpOffset := c.headerIpOffset
  ts := c.pkt.tvSec
  offset := fragOffset c.pkt.packet c.headerIpOffset
  len := totLen c.pkt.packet c.headerIpOffset
  iphdrLen := iphdrLen c.pkt.packet c.headerIpOffset

def Call.key (c : Call) : Bytes × Nat :=
  (saddr c.pkt.packet c.headerIpOffset, fragId c.pkt.packet c.headerIpOffset)

/-- The header fix-up at the end of `dequeue`, done only when `iphdr` was set. -/
def fixHeader (st : CopyState) : Packet :=
  match st.iphdr with
  | none => st.out
  | some o =>
    let p := putTotLen st.out.packet o (add32 (totLen st.out.packet o) st.additionallen)
    { st.out with packet := resetFragData (putCheck p o 0) o }

def queued (frags : SFrags) : List SFrag := frags.map.toList.map Prod.snd

def copyStart (total : Nat) : CopyState :=
  { out := { caplen := 0, len := 0, packet := List.replicate total 0 } }

def copyAll (path : PacketPath) (l : List SFrag) : CopyState :=
  l.zipIdx.foldl (fun st (frag, i) => copyFrag path (totallen l) l.length st frag i)
    (copyStart (totallen l))

def dequeue (path : PacketPath) (frags : SFrags) : Packet := fixHeader (copyAll path (queued frags))

/-- The queue with the mark for the last fragment, before the fragment is put into it. -/
def markLast (frags : SFrags) (c : Call) : SFrags :=
  if !moreFrag c.pkt.packet c.headerIpOffset && c.frag.offset ≠ 0 then { frags with hasLast := true }
  else frags

def insertFrag (frags : SFrags) (c : Call) : Option SFrags :=
  let frags := markLast frags c
  if frags.map.contains c.frag.offset then none
  else some { frags with map := frags.map.insert c.frag.offset c.frag }

def add (path : PacketPath) (frags : SFrags) (c : Call) : DefragResult × SFrags :=
  match insertFrag frags c with
  | none => (⟨-1, some c.pkt⟩, markLast frags c)
  | some frags =>
    if complete frags then (⟨1, some (dequeue path frags)⟩, frags)
    else (⟨0, match path with | .headerPacket => none | .headerPacketPQout => some c.pkt⟩, frags)

abbrev Queues := Bytes × Nat → Option SFrags

def defrag (path : PacketPath) (s : Queues) (c : Call) : DefragResult × Queues :=
  let r := add path ((s c.key).getD {}) c
  (r.1, Function.update s c.key (if r.1.res > 0 then none else some r.2))

/-- `pcapProcess` takes the packet as a fragment, and its length is within what was captured. -/
def Call.Admitted (c : Call) : Prop :=
  isIpFrag c.pkt.packet c.headerIpOffset = true ∧
    ¬totLen c.pkt.packet c.headerIpOffset + c.headerIpOffset > c.pkt.caplen

instance (c : Call) : Decidable c.Admitted := inferInstanceAs (Decidable (_ ∧ _))

def pcapProcess (path : PacketPath) (s : Queues) (c : Call) : Queues :=
  if c.Admitted then (defrag path s c).2 else s

def pcapRun (path : PacketPath) (calls : List Call) : Queues :=
  calls.foldl (pcapProcess path) (fun _ => none)

/-- Position and size of each `memcpy` in one round of the `header_packet` copy loop. -/
def roundCopies (total : Nat) (st : CopyState) (frag : SFrag) (i : Nat) : List (Nat × Nat) :=
  if i = 0 then
    (if frag.headerIpOffset ≠ 0 then [(st.len, frag.headerIpOffset)] else []) ++
      [((copyLinkHeader frag st).len, frag.len)]
  else if st.len < total then
    [(st.len, min (sub32 frag.len frag.iphdrLen) (sub32 total st.len))]
  else []

/-- Position and size of each `memcpy` of the loop, from the round `i` on. -/
def copiesFrom (total count : Nat) : CopyState → Nat → List SFrag → List (Nat × Nat)
  | _, _, [] => []
  | st, i, frag :: rest =>
    roundCopies total st frag i ++
      copiesFrom total count (copyHeaderPacket total count st frag i) (i + 1) rest

def dequeueCopies (l : List SFrag) : List (Nat × Nat) :=
  copiesFrom (totallen l) l.length (copyStart (totallen l)) 0 l

end VoipMonitor.IpDefrag
