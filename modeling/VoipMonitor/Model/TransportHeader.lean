import VoipMonitor.Model.IpDefrag

/-!
# The transport header and its payload in `pcapProcess` (`sniff_inline.cpp`)

`get_hdr_size`, `get_footer_size` and `get_protocol` (`ip.h`) for both IP versions, and the lengths
that are computed from them. All differences have 32 bits without a sign. A position that is not in
the packet is still read: the memory goes on in front of the packet and behind it.
-/

namespace VoipMonitor.TransportHeader
open VoipMonitor.Library VoipMonitor.IpFrag VoipMonitor.IpDefrag

def ipprotoTcp : Nat := 6
def ipprotoUdp : Nat := 17
def ipprotoEspFooterSize : Nat := 14
def sizeofUdphdr2 : Nat := 8

/-- A captured packet with the position of its IP header. `packet` is the memory from the start of
the packet on, and `front` the memory before it, backwards. -/
structure Capture where
  packet : Bytes
  front : Bytes
  caplen : Nat
  headerIp : Nat
  caplen_lt : caplen < 2 ^ 32
  headerIp_lt : headerIp < 2 ^ 31

def Capture.byte (c : Capture) (pos : Int) : Nat :=
  if 0 ≤ pos then byteAt c.packet pos.toNat else byteAt c.front (-pos - 1).toNat

def Capture.totLen (c : Capture) : Nat := IpDefrag.totLen c.packet c.headerIp

/-- `get_ext_headers` without an array of types. Nothing limits the number of the headers, and the
offset has 16 bits. -/
def extProtocol (p : Bytes) (o : Nat) : Nat → Nat → Nat → Option Nat
  | 0, _, _ => none
  | fuel + 1, offset, nxt =>
    if isExtHeader nxt then
      let header := o + sizeofIp6hdr2 + offset
      let size := getExtHeaderSize p header nxt
      if size = 0 then some 255
      else extProtocol p o fuel ((offset + size) % 2 ^ 16) (byteAt p header)
    else some nxt

def headerProtocol (c : Capture) (fuel : Nat) : Option Nat :=
  if version c.packet c.headerIp = 4 then some (getProtocol c.packet c.headerIp)
  else extProtocol c.packet c.headerIp fuel 0 (byteAt c.packet (c.headerIp + 6))

/-- `get_protocol`: the protocol behind an ESP header is in the footer. -/
def innerProtocol (c : Capture) (maxLen fuel : Nat) : Option Nat :=
  (headerProtocol c fuel).map (fun proto =>
    if proto = ipprotoEsp ∧ (maxLen = 0 ∨ c.totLen ≤ maxLen) then
      c.byte (c.headerIp + c.totLen - ipprotoEspFooterSize + 1)
    else proto)

/-- The result of `get_hdr_size` and the protocol that it stores. -/
structure HdrSize where
  hdrSize : Nat
  proto : Nat

def getHdrSize (c : Capture) (unset : Nat) : HdrSize :=
  if version c.packet c.headerIp = 4 then
    ⟨IpFrag.getHdrSize c.packet c.headerIp, getProtocol c.packet c.headerIp⟩
  else
    (getExtHeaders c.packet c.headerIp).elim ⟨65535, unset⟩ (fun e =>
      ⟨e.stop - c.headerIp + if e.proto = ipprotoEsp then ipprotoEspHeaderSize else 0, e.proto⟩)

/-- `get_footer_size`; 255 is the default argument. -/
def getFooterSize (c : Capture) (proto fuel : Nat) : Option Nat :=
  (if proto = 255 then headerProtocol c fuel else some proto).map (fun proto =>
    if proto = ipprotoEsp then
      ipprotoEspFooterSize + c.byte (c.headerIp + c.totLen - ipprotoEspFooterSize)
    else 0)

/-- Where the payload starts and the length that the call returns. -/
structure Payload where
  data : Nat
  len : Nat
deriving DecidableEq, Repr

def ipDataLen (c : Capture) (hdrSize footerSize headerLen : Nat) : Nat :=
  sub32 (sub32 (sub32 c.totLen hdrSize) footerSize) headerLen

def udpLen (c : Capture) (headerUdp : Nat) : Nat := be16 c.packet (headerUdp + 4)

def getUdpDataLen (c : Capture) (headerUdp unset fuel : Nat) : Option Payload :=
  let h := getHdrSize c unset
  (getFooterSize c h.proto fuel).map (fun footerSize =>
    { data := headerUdp + sizeofUdphdr2
      len := min (ipDataLen c h.hdrSize footerSize sizeofUdphdr2)
        (min (sub32 (udpLen c headerUdp) sizeofUdphdr2)
          (sub32 c.caplen (headerUdp + sizeofUdphdr2))) })

/-- `get_tcp_header_len`, from the data offset in the header. -/
def getTcpHeaderLen (c : Capture) (headerTcp : Nat) : Nat :=
  byteAt c.packet (headerTcp + 12) / 16 * 4

def getTcpDataLen (c : Capture) (headerTcp unset fuel : Nat) : Option Payload :=
  let h := getHdrSize c unset
  let headerLen := getTcpHeaderLen c headerTcp
  (getFooterSize c h.proto fuel).map (fun footerSize =>
    { data := headerTcp + headerLen
      len := min (ipDataLen c h.hdrSize footerSize headerLen)
        (sub32 c.caplen (headerTcp + headerLen)) })

/-- What `pcapProcess` finds behind the IP header. -/
structure Transport where
  header : Nat
  payload : Payload

/-- The branches of `pcapProcess` for UDP and TCP; the inner `none` stands for the rest. -/
def transport (c : Capture) (unset fuel : Nat) : Option (Option Transport) :=
  let header := c.headerIp + (getHdrSize c unset).hdrSize
  (innerProtocol c (sub32 c.caplen c.headerIp) fuel).bind (fun protocol =>
    if protocol = ipprotoUdp then
      (getUdpDataLen c header unset fuel).map (fun d => some ⟨header, d⟩)
    else if protocol = ipprotoTcp then
      (getTcpDataLen c header unset fuel).map (fun d => some ⟨header, d⟩)
    else some none)

end VoipMonitor.TransportHeader

/-!
# The extension headers of version 6 (`ip6hdr2`, `ip.cpp`)

One loop goes along the headers, with or without an array of their types. The callers with an array
go along the types again and add the sizes. Offsets and sizes have 16 bits; of the result
`(u_int8_t)-1` the types are not used.
-/

namespace VoipMonitor.ExtHeaders
open VoipMonitor.Library VoipMonitor.IpDefrag

/-- The result of `get_ext_headers` with the types that it stores. -/
structure Walk where
  nxt : Nat
  types : List Nat
deriving DecidableEq, Repr

/-- The loop of `get_ext_headers`. `max` is the room in the array, when there is one; the first
number bounds the rounds. -/
def walkLoop (p : Bytes) (o : Nat) (max : Option Nat) : Nat → Nat → Nat → List Nat → Option Walk
  | 0, _, _, _ => none
  | fuel + 1, nxt, offset, types =>
    if isExtHeader nxt then
      let header := o + sizeofIp6hdr2 + offset
      let size := getExtHeaderSize p header nxt
      if size = 0 then some ⟨255, types⟩
      else if max.any (fun n => types.length ≥ n) then some ⟨255, types⟩
      else
        walkLoop p o max fuel (byteAt p header) ((offset + size) % 2 ^ 16)
          (if max.isSome then types ++ [nxt] else types)
    else some ⟨nxt, types⟩

def getExtHeaders (p : Bytes) (o : Nat) (max : Option Nat) (fuel : Nat) : Option Walk :=
  walkLoop p o max fuel (byteAt p (o + 6)) 0 []

/-- What `get_ext_headers_len` returns and the protocol that it stores. -/
structure HeadersLen where
  size : Nat
  proto : Option Nat
deriving DecidableEq, Repr

/-- `size += get_ext_header_size(…)` for each type. -/
def addSizes (p : Bytes) (o : Nat) : Nat → List Nat → Nat
  | size, [] => size
  | size, t :: types =>
    addSizes p o ((size + getExtHeaderSize p (o + sizeofIp6hdr2 + size) t) % 2 ^ 16) types

def getExtHeadersLen (p : Bytes) (o fuel : Nat) : Option HeadersLen :=
  (getExtHeaders p o (some ip6ExtHeadersMax) fuel).map (fun w =>
    if w.nxt = 255 then ⟨65535, none⟩ else ⟨addSizes p o 0 w.types, some w.nxt⟩)

def offsetLoop (p : Bytes) (o headerId : Nat) : Nat → List Nat → Nat
  | _, [] => 65535
  | offset, t :: types =>
    if t = headerId then offset
    else offsetLoop p o headerId ((offset + getExtHeaderSize p (o + offset) t) % 2 ^ 16) types

def getExtHeaderOffset (p : Bytes) (o headerId fuel : Nat) : Option Nat :=
  (getExtHeaders p o (some ip6ExtHeadersMax) fuel).map (fun w =>
    if w.nxt = 255 ∨ w.types = [] then 65535
    else offsetLoop p o headerId sizeofIp6hdr2 w.types)

end VoipMonitor.ExtHeaders
