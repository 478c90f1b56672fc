import VoipMonitor.Library.ReadBound
import VoipMonitor.Model.IpDefrag

/-!
# Link layer: `parseEtherHeader` and the checks of `pcapProcess` (`sniff_inline.cpp`)

The bytes are the memory from the start of the packet, which goes on behind the captured frame.
The reads of the VLAN, 802.1ad, VN-Tag, PPPoE, MPLS and FabricPath branches are noted; the field
that every frame of a type has, its first EtherType, is not. `header_ip_offset` has 16 bits.
-/

namespace VoipMonitor.LinkLayer
open VoipMonitor.Library

/-- The values of `pcapLinklayerHeaderType` with a branch, and the rest. -/
inductive LinkType where
  | linuxSll
  | linuxSll2
  | atmRfc1483
  | en10mb
  | raw
  | ieee80211Radio
  | mtp2WithPhdr
  | mtp2
  | null
  | other

def vlanNoset : Nat := 0xFFFE
def ethertypeIp : Nat := 0x0800
def ethertypeIpv6 : Nat := 0x86DD
def sizeofSllHeader : Nat := 16
def sizeofSll2Header : Nat := 20
def sizeofEtherHeader : Nat := 14

/-- What the call sets; the pointers are positions in the packet. -/
structure EtherHeader where
  headerIpOffset : Nat
  protocol : Nat
  vlan : Nat := vlanNoset
  headerEth : Option Nat := none
  headerPppOE : Option Nat := none
deriving DecidableEq, Repr

/-- `header_ip_offset += 4`. -/
def nextOffset (headerIpOffset : Nat) : Nat := (headerIpOffset + 4) % 2 ^ 16

/-- What the loop over the tags leaves. -/
structure Tags where
  headerIpOffset : Nat
  protocol : Nat
  vlan : Nat

/-- One round of the loop, which goes on while the type is that of another tag. -/
def readTag (packet : Bytes) (base headerIpOffset : Nat) : Reading (Option Tags) := do
  let tci ← read16 packet (base + headerIpOffset)
  let protocol ← read16 packet (base + headerIpOffset + 2)
  if protocol = 0x8100 then pure none
  else pure (some ⟨nextOffset headerIpOffset, protocol, tci % 0x1000⟩)

def readTags (packet : Bytes) (base fuel headerIpOffset : Nat) : Reading Tags :=
  doWhile (readTag packet base) nextOffset fuel headerIpOffset

/-- The tags are read behind a `sll_header` for both types; `size` is added at the end. -/
def parseSll (packet : Bytes) (protocol size fuel : Nat) : Reading (Option EtherHeader) :=
  if protocol = 0x8100 then do
    let t ← readTags packet sizeofSllHeader fuel 0
    pure (some
      { headerIpOffset := (t.headerIpOffset + size) % 2 ^ 16
        protocol := t.protocol
        vlan := t.vlan })
  else
    pure (some { headerIpOffset := size, protocol := protocol })

structure EtherStart where
  linkHeaderOffset : Nat
  etherType : Nat

/-- Cisco FabricPath. -/
def skipFabricPath (packet : Bytes) (linkHeaderOffset : Nat) : Reading EtherStart :=
  if be16 packet (linkHeaderOffset + 12) = 0x8903 then do
    let etherType ← read16 packet (linkHeaderOffset + 20 + 12)
    pure ⟨linkHeaderOffset + 20, etherType⟩
  else
    pure ⟨linkHeaderOffset, be16 packet (linkHeaderOffset + 12)⟩

/-- What the branches on the type leave: the loop over the tags follows (`exists_vlan`), or the
header is known. -/
inductive EtherBranch where
  | existsVlan (headerIpOffset : Nat)
  | known (headerIpOffset protocol : Nat) (headerPppOE : Option Nat)

/-- IEEE 802.1ad and VN-Tag: the type inside may be that of a tag. -/
def innerType (packet : Bytes) (typePos headerIpOffset : Nat) : Reading EtherBranch := do
  let protocol ← read16 packet typePos
  if protocol = 0x8100 then pure (.existsVlan headerIpOffset)
  else pure (.known headerIpOffset protocol none)

def pppOE (packet : Bytes) (base : Nat) : Reading EtherBranch := do
  let protocol ← read16 packet (base + 6)
  if protocol = 0x0021 then pure (.known 8 ethertypeIp (some base))
  else pure (.known 0 0 none)

/-- One round over the MPLS labels, which ends at the label with the bottom flag. -/
def readLabel (packet : Bytes) (base headerIpOffset : Nat) : Reading (Option Nat) := do
  let label ← read8 packet (base + headerIpOffset + 2)
  if label % 2 = 0 then pure none
  else pure (some (nextOffset headerIpOffset))

def mpls (packet : Bytes) (base fuel : Nat) : Reading EtherBranch := do
  let headerIpOffset ← doWhile (readLabel packet base) nextOffset fuel 0
  pure (.known headerIpOffset ethertypeIp none)

def etherBranch (packet : Bytes) (base etherType fuel : Nat) : Reading EtherBranch :=
  if etherType = 0x8100 then pure (.existsVlan 0)
  else if etherType = 0x88A8 then innerType packet (base + 2) 4
  else if etherType = 0x8926 then innerType packet (base + 4) 6
  else if etherType = 0x8864 then pppOE packet base
  else if etherType = 0x8847 then mpls packet base fuel
  else pure (.known 0 etherType none)

def pppOEBehindTags (packet : Bytes) (base : Nat) (t : Tags) : Reading EtherHeader :=
  if t.protocol = 0x8864 then do
    let protocol ← read16 packet (base + t.headerIpOffset + 6)
    if protocol = 0x0021 then
      pure
        { headerIpOffset := (t.headerIpOffset + 8) % 2 ^ 16
          protocol := ethertypeIp
          vlan := t.vlan
          headerPppOE := some (base + t.headerIpOffset) }
    else
      pure { headerIpOffset := t.headerIpOffset, protocol := t.protocol, vlan := t.vlan }
  else
    pure { headerIpOffset := t.headerIpOffset, protocol := t.protocol, vlan := t.vlan }

def etherTags (packet : Bytes) (base : Nat) : EtherBranch → Nat → Reading EtherHeader
  | .existsVlan headerIpOffset, fuel => do
    let t ← readTags packet base fuel headerIpOffset
    pppOEBehindTags packet base t
  | .known headerIpOffset protocol headerPppOE, _ =>
    pure { headerIpOffset := headerIpOffset, protocol := protocol, headerPppOE := headerPppOE }

def parseFrom (packet : Bytes) (s : EtherStart) (fuel : Nat) : Reading (Option EtherHeader) := do
  let base := s.linkHeaderOffset + sizeofEtherHeader
  let b ← etherBranch packet base s.etherType fuel
  let h ← etherTags packet base b fuel
  pure (some { h with
    headerIpOffset := (h.headerIpOffset + base) % 2 ^ 16
    headerEth := some s.linkHeaderOffset })

def parseEther (packet : Bytes) (linkHeaderOffset fuel : Nat) : Reading (Option EtherHeader) := do
  let s ← skipFabricPath packet linkHeaderOffset
  parseFrom packet s fuel

/-- `parseEtherHeader`; the result is `none` for `false`. -/
def parseEtherHeader (packet : Bytes) (pcapLinklayerHeaderType : LinkType) (fuel : Nat) :
    Reading (Option EtherHeader) :=
  match pcapLinklayerHeaderType with
  | .linuxSll => parseSll packet (be16 packet 14) sizeofSllHeader fuel
  | .linuxSll2 => parseSll packet (be16 packet 0) sizeofSll2Header fuel
  | .atmRfc1483 => parseEther packet 10 fuel
  | .en10mb => parseEther packet 0 fuel
  | .raw => pure (some { headerIpOffset := 0, protocol := ethertypeIp })
  | .ieee80211Radio => pure (some { headerIpOffset := 52, protocol := ethertypeIp })
  | .mtp2WithPhdr | .mtp2 => pure (some { headerIpOffset := 0xFFFF, protocol := 0 })
  | .null => pure (some { headerIpOffset := 4, protocol := ethertypeIp })
  | .other => pure none

inductive PacketSource where
  | headerPacket
  | blockStore
deriving DecidableEq, Repr

/-- The options that the checks of `pcapProcess` read. -/
structure Options where
  useIPv6 : Bool
  tcpreplay : Bool
  processRtpHeader : Bool

/-- The offset of the IP header after the check of the protocol; `none` when it fails. -/
def checkProtocol (opt : Options) (h : EtherHeader) : Option Nat :=
  if h.protocol = ethertypeIp || opt.useIPv6 && h.protocol = ethertypeIpv6 ||
      h.headerIpOffset = 0xFFFF then
    some h.headerIpOffset
  else if opt.tcpreplay && h.protocol = 0 then some ((h.headerIpOffset + 2) % 2 ^ 16)
  else none

def checkIp (opt : Options) (src : PacketSource) (packet : Bytes) (len o : Nat) : Bool :=
  o = 0xFFFF ||
    (IpFrag.version packet o = 4 || opt.useIPv6 && IpFrag.version packet o = 6) &&
      (IpDefrag.totLen packet o + o ≤ len || opt.processRtpHeader && src = .headerPacket)

/-- The packet is given up: `pcapProcess` returns 0 behind `parseEtherHeader`. -/
def rejects (opt : Options) (src : PacketSource) (packet : Bytes) (len : Nat) :
    Option EtherHeader → Bool
  | none => true
  | some h => (checkProtocol opt h).elim true (fun o => !checkIp opt src packet len o)

end VoipMonitor.LinkLayer
