import VoipMonitor.Library.Loops
import VoipMonitor.Model.TransportHeader
import VoipMonitor.Proofs.IpDequeueBounds

/-!
# The payload that `pcapProcess` hands on

The length of the payload is a minimum of differences without a sign. The one with the captured
length bounds it as long as the payload starts inside the capture. The size of an IP header of
version 4 does not depend on its options, so that only a header without options leads to the
transport header.
-/

namespace VoipMonitor.TransportHeader
open VoipMonitor.Library VoipMonitor.IpFrag VoipMonitor.IpDefrag

/-! ## Ranges -/

lemma Capture.byte_lt (c : Capture) (pos : Int) : c.byte pos < 256 := by
  unfold Capture.byte
  split
  · exact byteAt_lt _ _
  · exact byteAt_lt _ _

lemma totLen_lt (c : Capture) : c.totLen < 2 ^ 17 := by
  have h4 := be16_lt c.packet (c.headerIp + 2)
  have h6 := be16_lt c.packet (c.headerIp + 4)
  unfold Capture.totLen IpDefrag.totLen getTotLen sizeofIp6hdr2
  split
  · omega
  · omega

lemma hdrSize_lt (c : Capture) (unset : Nat) : (getHdrSize c unset).hdrSize < 2 ^ 17 := by
  unfold getHdrSize
  split
  · change IpFrag.getHdrSize c.packet c.headerIp < 2 ^ 17
    unfold IpFrag.getHdrSize sizeofIphdr2 ipprotoEspHeaderSize
    split
    · decide
    · decide
  · cases hext : getExtHeaders c.packet c.headerIp with
    | none => exact (by norm_num : 65535 < 2 ^ 17)
    | some e =>
      have hstop := (extHeadersFrom_stop hext).2
      change e.stop - c.headerIp + _ < 2 ^ 17
      unfold ip6ExtHeadersMax sizeofIp6hdr2 at hstop
      unfold ipprotoEspHeaderSize
      split
      · omega
      · omega

lemma footerSize_lt {c : Capture} {proto fuel footerSize : Nat}
    (h : getFooterSize c proto fuel = some footerSize) : footerSize < 2 ^ 17 := by
  obtain ⟨p, -, hp⟩ := Option.map_eq_some_iff.mp h
  have hpadding := c.byte_lt (c.headerIp + c.totLen - ipprotoEspFooterSize)
  rw [← hp]
  unfold ipprotoEspFooterSize at hpadding ⊢
  split
  · omega
  · norm_num

lemma getTcpHeaderLen_lt (c : Capture) (headerTcp : Nat) : getTcpHeaderLen c headerTcp < 64 := by
  have hbyte := byteAt_lt c.packet (headerTcp + 12)
  unfold getTcpHeaderLen
  omega

/-! ## The minimum -/

lemma min_sub32_le_iff {m caplen data : Nat} (hcaplen : caplen < 2 ^ 32) (hdata : data < 2 ^ 32) :
    min m (sub32 caplen data) ≤ caplen - data ↔ data ≤ caplen ∨ m = 0 := by
  by_cases hle : data ≤ caplen
  · rw [sub32_eq hcaplen hle]
    exact iff_of_true (min_le_right _ _) (Or.inl hle)
  · have hpos : 0 < sub32 caplen data := by
      unfold sub32
      omega
    have hzero : caplen - data = 0 := by omega
    rw [hzero]
    omega

lemma ipDataLen_eq_zero_iff {c : Capture} {hdrSize footerSize headerLen : Nat}
    (hhdr : hdrSize < 2 ^ 17) (hfooter : footerSize < 2 ^ 17) (hheader : headerLen < 2 ^ 17) :
    ipDataLen c hdrSize footerSize headerLen = 0 ↔
      c.totLen = hdrSize + footerSize + headerLen := by
  have htot := totLen_lt c
  unfold ipDataLen sub32
  omega

lemma udpLen_eq_eight_iff (c : Capture) (headerUdp : Nat) :
    sub32 (udpLen c headerUdp) sizeofUdphdr2 = 0 ↔ udpLen c headerUdp = 8 := by
  have hlt : udpLen c headerUdp < 65536 := be16_lt c.packet (headerUdp + 4)
  unfold sub32 sizeofUdphdr2
  omega

def Captured (c : Capture) (d : Payload) : Prop := d.len ≤ c.caplen - d.data

/-- Every length that the call returns for the header behind the IP header is captured. -/
def PayloadCaptured (c : Capture) (unset : Nat)
    (getDataLen : Capture → Nat → Nat → Nat → Option Payload) : Prop :=
  ∀ fuel d, getDataLen c (c.headerIp + (getHdrSize c unset).hdrSize) unset fuel = some d →
    Captured c d

/-- The IP header leaves no byte for a payload behind a header of the length. -/
def NoIpData (c : Capture) (unset headerLen : Nat) : Prop :=
  ∀ fuel footerSize, getFooterSize c (getHdrSize c unset).proto fuel = some footerSize →
    c.totLen = (getHdrSize c unset).hdrSize + footerSize + headerLen

section Lengths
variable (c : Capture) (unset : Nat)

def headerPos : Nat := c.headerIp + (getHdrSize c unset).hdrSize

lemma headerPos_lt : headerPos c unset < 2 ^ 31 + 2 ^ 17 := by
  have hip := c.headerIp_lt
  have hhdr := hdrSize_lt c unset
  unfold headerPos
  omega

lemma payloadCaptured_iff_of {getDataLen : Capture → Nat → Nat → Nat → Option Payload}
    {payload : Nat → Payload} {inside : Prop} {headerLen : Nat}
    (hget : ∀ fuel, getDataLen c (headerPos c unset) unset fuel =
      (getFooterSize c (getHdrSize c unset).proto fuel).map payload)
    (hpayload : ∀ footerSize, footerSize < 2 ^ 17 → (Captured c (payload footerSize) ↔
      inside ∨ c.totLen = (getHdrSize c unset).hdrSize + footerSize + headerLen)) :
    PayloadCaptured c unset getDataLen ↔ inside ∨ NoIpData c unset headerLen := by
  constructor
  · intro h
    by_cases hinside : inside
    · exact Or.inl hinside
    · refine Or.inr (fun fuel footerSize hfooter => ?_)
      have hcaptured := h fuel (payload footerSize)
        ((hget fuel).trans (Option.map_eq_some_iff.mpr ⟨footerSize, hfooter, rfl⟩))
      exact ((hpayload footerSize (footerSize_lt hfooter)).mp hcaptured).resolve_left hinside
  · intro h fuel d hd
    obtain ⟨footerSize, hfooter, rfl⟩ := Option.map_eq_some_iff.mp ((hget fuel).symm.trans hd)
    apply (hpayload footerSize (footerSize_lt hfooter)).mpr
    exact h.imp_right (fun hip => hip fuel footerSize hfooter)

lemma udp_captured_iff {footerSize : Nat} (hfooter : footerSize < 2 ^ 17) :
    Captured c
      { data := headerPos c unset + sizeofUdphdr2
        len := min (ipDataLen c (getHdrSize c unset).hdrSize footerSize sizeofUdphdr2)
          (min (sub32 (udpLen c (headerPos c unset)) sizeofUdphdr2)
            (sub32 c.caplen (headerPos c unset + sizeofUdphdr2))) } ↔
      (headerPos c unset + 8 ≤ c.caplen ∨ udpLen c (headerPos c unset) = 8) ∨
        c.totLen = (getHdrSize c unset).hdrSize + footerSize + 8 := by
  have hpos := headerPos_lt c unset
  have hdata : headerPos c unset + sizeofUdphdr2 < 2 ^ 32 := by
    unfold sizeofUdphdr2
    omega
  have hip := ipDataLen_eq_zero_iff (c := c) (hdrSize_lt c unset) hfooter
    (by decide : sizeofUdphdr2 < 2 ^ 17)
  rw [Captured, ← min_assoc, min_sub32_le_iff c.caplen_lt hdata, Nat.min_eq_zero_iff, hip,
    udpLen_eq_eight_iff, or_assoc, or_comm (a := udpLen c (headerPos c unset) = 8)]
  rfl

lemma tcp_captured_iff {footerSize : Nat} (hfooter : footerSize < 2 ^ 17) :
    Captured c
      { data := headerPos c unset + getTcpHeaderLen c (headerPos c unset)
        len := min (ipDataLen c (getHdrSize c unset).hdrSize footerSize
            (getTcpHeaderLen c (headerPos c unset)))
          (sub32 c.caplen (headerPos c unset + getTcpHeaderLen c (headerPos c unset))) } ↔
      headerPos c unset + getTcpHeaderLen c (headerPos c unset) ≤ c.caplen ∨
        c.totLen = (getHdrSize c unset).hdrSize + footerSize +
          getTcpHeaderLen c (headerPos c unset) := by
  have hpos := headerPos_lt c unset
  have hlen := getTcpHeaderLen_lt c (headerPos c unset)
  rw [Captured, min_sub32_le_iff c.caplen_lt (by omega),
    ipDataLen_eq_zero_iff (hdrSize_lt c unset) hfooter (by omega)]

/-- The length is captured when the payload starts inside the capture, and otherwise when the IP
header or the UDP header leaves no payload. -/
theorem payloadCaptured_iff :
    (PayloadCaptured c unset getUdpDataLen ↔
      headerPos c unset + 8 ≤ c.caplen ∨ NoIpData c unset 8 ∨
        udpLen c (headerPos c unset) = 8) ∧
    (PayloadCaptured c unset getTcpDataLen ↔
      headerPos c unset + getTcpHeaderLen c (headerPos c unset) ≤ c.caplen ∨
        NoIpData c unset (getTcpHeaderLen c (headerPos c unset))) := by
  constructor
  · have hudp : PayloadCaptured c unset getUdpDataLen ↔ _ :=
      payloadCaptured_iff_of c unset (fun _ => rfl)
        (fun _ hfooter => udp_captured_iff c unset hfooter)
    rw [hudp, or_assoc, or_comm (a := udpLen c (headerPos c unset) = 8)]
  · exact payloadCaptured_iff_of c unset (fun _ => rfl)
      (fun _ hfooter => tcp_captured_iff c unset hfooter)

end Lengths

def cutUdp : Capture where
  packet := [0x45, 0, 0, 100, 0, 1, 0, 0, 64, 17, 0, 0, 10, 0, 0, 1, 10, 0, 0, 2,
    0x13, 0xC4, 0x13, 0xC4, 0, 80, 0, 0]
  front := []
  caplen := 24
  headerIp := 0
  caplen_lt := by norm_num
  headerIp_lt := by norm_num

theorem cutUdp_not_captured : ¬∀ c unset, PayloadCaptured c unset getUdpDataLen := by
  intro h
  have hcaptured := h cutUdp 0 0 ⟨28, 72⟩ (by decide +kernel)
  exact absurd hcaptured (by decide : ¬72 ≤ 24 - 28)

/-! ## UDP packets of version 4 -/

/-- A whole UDP packet behind an IP header of version 4, with any options. -/
structure UdpPacket extends Capture where
  version_eq : version packet headerIp = 4
  ihl_ge : 5 ≤ getIhl packet headerIp
  protocol_eq : getProtocol packet headerIp = ipprotoUdp
  udpLen_ge : 8 ≤ be16 packet (headerIp + 4 * getIhl packet headerIp + 4)
  totLen_eq : getTotLen packet headerIp =
    4 * getIhl packet headerIp + be16 packet (headerIp + 4 * getIhl packet headerIp + 4)
  captured : headerIp + getTotLen packet headerIp ≤ caplen

namespace UdpPacket
variable (u : UdpPacket) (unset fuel : Nat)

def ihl : Nat := getIhl u.packet u.headerIp

def expected : Transport :=
  { header := u.headerIp + 4 * u.ihl
    payload :=
      { data := u.headerIp + 4 * u.ihl + sizeofUdphdr2
        len := udpLen u.toCapture (u.headerIp + 4 * u.ihl) - sizeofUdphdr2 } }

lemma hdrSize_eq : getHdrSize u.toCapture unset = ⟨20, ipprotoUdp⟩ := by
  rw [getHdrSize, if_pos u.version_eq, IpFrag.getHdrSize, u.protocol_eq]
  rfl

lemma footerSize_eq : getFooterSize u.toCapture ipprotoUdp fuel = some 0 := rfl

lemma innerProtocol_eq (maxLen : Nat) :
    innerProtocol u.toCapture maxLen fuel = some ipprotoUdp := by
  rw [innerProtocol, headerProtocol, if_pos u.version_eq, u.protocol_eq]
  rfl

lemma transport_eq :
    transport u.toCapture unset fuel =
      (getUdpDataLen u.toCapture (u.headerIp + 20) unset fuel).map
        (fun d => some ⟨u.headerIp + 20, d⟩) := by
  rw [transport, innerProtocol_eq, hdrSize_eq]
  rfl

lemma getUdpDataLen_eq (hihl : u.ihl = 5) :
    getUdpDataLen u.toCapture (u.headerIp + 20) unset fuel = some u.expected.payload := by
  have hn : be16 u.packet (u.headerIp + 4 * getIhl u.packet u.headerIp + 4) =
      udpLen u.toCapture (u.headerIp + 20) := by
    rw [show getIhl u.packet u.headerIp = 5 from hihl]
    rfl
  have hudp := u.udpLen_ge
  have htot := u.totLen_eq
  have hcaptured := u.captured
  have hcaplen := u.caplen_lt
  have hlt : udpLen u.toCapture (u.headerIp + 20) < 65536 := be16_lt _ _
  have htotLen : u.toCapture.totLen = getTotLen u.packet u.headerIp := if_pos u.version_eq
  rw [hn] at hudp htot
  rw [show getIhl u.packet u.headerIp = 5 from hihl] at htot
  have hip : ipDataLen u.toCapture 20 0 sizeofUdphdr2 =
      udpLen u.toCapture (u.headerIp + 20) - 8 := by
    rw [ipDataLen, htotLen, htot]
    unfold sub32 sizeofUdphdr2
    omega
  have hudpData : sub32 (udpLen u.toCapture (u.headerIp + 20)) sizeofUdphdr2 =
      udpLen u.toCapture (u.headerIp + 20) - 8 := sub32_eq (by omega) hudp
  have hcapture : sub32 u.caplen (u.headerIp + 20 + sizeofUdphdr2) =
      u.caplen - (u.headerIp + 28) := sub32_eq hcaplen (by unfold sizeofUdphdr2; omega)
  rw [getUdpDataLen, hdrSize_eq, expected, hihl, footerSize_eq, Option.map_some, hip, hudpData,
    hcapture, min_eq_left (by omega)]
  rfl

/-- `pcapProcess` finds the UDP header and the payload of a whole packet exactly when its IP header
has no options. -/
theorem transport_expected_iff :
    (∀ unset fuel, transport u.toCapture unset fuel = some (some u.expected)) ↔ u.ihl = 5 := by
  constructor
  · intro h
    have hrun := h 0 0
    rw [transport_eq] at hrun
    obtain ⟨d, -, hd⟩ := Option.map_eq_some_iff.mp hrun
    have hheader : u.headerIp + 20 = u.headerIp + 4 * u.ihl :=
      congrArg Transport.header (Option.some.inj hd)
    omega
  · intro hihl unset fuel
    rw [transport_eq, getUdpDataLen_eq u unset fuel hihl, Option.map_some, expected, hihl]

end UdpPacket

def udpWithOptions : UdpPacket where
  packet := [0x46, 0, 0, 36, 0, 1, 0, 0, 64, 17, 0, 0, 10, 0, 0, 1, 10, 0, 0, 2, 0x94, 4, 0, 0,
    0x13, 0xC4, 0x13, 0xC4, 0, 12, 0, 0, 1, 2, 3, 4]
  front := []
  caplen := 36
  headerIp := 0
  caplen_lt := by norm_num
  headerIp_lt := by norm_num
  version_eq := by decide
  ihl_ge := by decide
  protocol_eq := by decide
  udpLen_ge := by decide
  totLen_eq := by decide
  captured := by decide

theorem udpWithOptions_header :
    ¬∀ (u : UdpPacket) (unset fuel : Nat),
      transport u.toCapture unset fuel = some (some u.expected) := by
  intro h
  have hheader := congrArg (Option.map (Option.map Transport.header)) (h udpWithOptions 0 0)
  exact absurd hheader (by decide)

end VoipMonitor.TransportHeader

/-!
# The end of the walk along extension headers

With an array the walk stops at the room in the array. Without one it goes from a header to the
next by an offset of 16 bits: it ends when a header stops it, and since there are only `2 ^ 24`
pairs of an offset and a type, such a header comes early or never.
-/

namespace VoipMonitor.ExtHeaders
open VoipMonitor.Library VoipMonitor.IpDefrag

abbrev Place := Nat × Nat

section Places
variable (p : Bytes) (o : Nat)

def Place.size (s : Place) : Nat := getExtHeaderSize p (o + sizeofIp6hdr2 + s.2) s.1

def Place.next (s : Place) : Place :=
  (byteAt p (o + sizeofIp6hdr2 + s.2), (s.2 + s.size p o) % 2 ^ 16)

/-- The walk goes no further from the place. -/
def Place.Stops (s : Place) : Prop := isExtHeader s.1 = true → s.size p o = 0

def firstPlace : Place := (byteAt p (o + 6), 0)

/-- Both walks along the headers end, and at the same one. -/
structure WalksEnd : Prop where
  array : ∃ fuel w, getExtHeaders p o (some ip6ExtHeadersMax) fuel = some w
  noArray : ∃ fuel w, getExtHeaders p o none fuel = some w
  same : ∀ fuel fuel' w w', getExtHeaders p o (some ip6ExtHeadersMax) fuel = some w →
    getExtHeaders p o none fuel' = some w' → w.nxt ≠ 255 → w'.nxt ≠ 255 → w.nxt = w'.nxt

end Places

variable {p : Bytes} {o : Nat}

/-! ## One round -/

lemma walkLoop_upper {s : Place} (hext : isExtHeader s.1 = false) (max : Option Nat) (fuel : Nat)
    (types : List Nat) : walkLoop p o max (fuel + 1) s.1 s.2 types = some ⟨s.1, types⟩ := by
  rw [walkLoop, hext, if_neg Bool.false_ne_true]

lemma walkLoop_empty {s : Place} (hext : isExtHeader s.1 = true) (hsize : s.size p o = 0)
    (max : Option Nat) (fuel : Nat) (types : List Nat) :
    walkLoop p o max (fuel + 1) s.1 s.2 types = some ⟨255, types⟩ := by
  rw [walkLoop, if_pos hext]
  exact if_pos hsize

lemma walkLoop_full {s : Place} (hext : isExtHeader s.1 = true) (fuel : Nat) {types : List Nat}
    {max : Nat} (hfull : max ≤ types.length) :
    walkLoop p o (some max) (fuel + 1) s.1 s.2 types = some ⟨255, types⟩ := by
  by_cases hsize : s.size p o = 0
  · exact walkLoop_empty hext hsize (some max) fuel types
  · rw [walkLoop, if_pos hext]
    refine (if_neg hsize).trans (if_pos ?_)
    simpa using hfull

lemma walkLoop_room {s : Place} (hext : isExtHeader s.1 = true) (hsize : s.size p o ≠ 0)
    (fuel : Nat) {types : List Nat} {max : Nat} (hroom : types.length < max) :
    walkLoop p o (some max) (fuel + 1) s.1 s.2 types =
      walkLoop p o (some max) fuel (s.next p o).1 (s.next p o).2 (types ++ [s.1]) := by
  rw [walkLoop, if_pos hext]
  refine (if_neg hsize).trans (if_neg ?_)
  simpa using hroom

lemma walkLoop_noArray {s : Place} (hext : isExtHeader s.1 = true) (hsize : s.size p o ≠ 0)
    (fuel : Nat) (types : List Nat) :
    walkLoop p o none (fuel + 1) s.1 s.2 types =
      walkLoop p o none fuel (s.next p o).1 (s.next p o).2 types := by
  rw [walkLoop, if_pos hext]
  exact (if_neg hsize).trans (if_neg Bool.false_ne_true)

/-! ## Both forms -/

lemma walkLoop_array_ends {max room fuel : Nat} (hfuel : room < fuel) (s : Place)
    {types : List Nat} (hroom : types.length + room = max) :
    ∃ w, walkLoop p o (some max) fuel s.1 s.2 types = some w := by
  induction room generalizing fuel s types with
  | zero =>
    obtain ⟨fuel, rfl⟩ := Nat.exists_eq_succ_of_ne_zero (by omega : fuel ≠ 0)
    cases hext : isExtHeader s.1 with
    | false => exact ⟨_, walkLoop_upper hext _ fuel types⟩
    | true => exact ⟨_, walkLoop_full hext fuel (by omega)⟩
  | succ room ih =>
    obtain ⟨fuel, rfl⟩ := Nat.exists_eq_succ_of_ne_zero (by omega : fuel ≠ 0)
    cases hext : isExtHeader s.1 with
    | false => exact ⟨_, walkLoop_upper hext _ fuel types⟩
    | true =>
      by_cases hsize : s.size p o = 0
      · exact ⟨_, walkLoop_empty hext hsize _ fuel types⟩
      · rw [walkLoop_room hext hsize fuel (by omega)]
        exact ih (by omega) (s.next p o) (by rw [List.length_append, List.length_singleton]; omega)

lemma walkLoop_noArray_ends_iff {fuel : Nat} (s : Place) (types : List Nat) :
    (∃ w, walkLoop p o none fuel s.1 s.2 types = some w) ↔
      ∃ k < fuel, ((Place.next p o)^[k] s).Stops p o := by
  induction fuel generalizing s with
  | zero =>
    constructor
    · rintro ⟨w, hw⟩
      cases hw
    · rintro ⟨k, hk, -⟩
      omega
  | succ fuel ih =>
    by_cases hstop : s.Stops p o
    · refine iff_of_true ?_ ⟨0, by omega, hstop⟩
      cases hext : isExtHeader s.1 with
      | false => exact ⟨_, walkLoop_upper hext none fuel types⟩
      | true => exact ⟨_, walkLoop_empty hext (hstop hext) none fuel types⟩
    · obtain ⟨hext, hsize⟩ := Classical.not_imp.mp hstop
      rw [walkLoop_noArray hext hsize, ih]
      constructor
      · rintro ⟨k, hk, hstops⟩
        exact ⟨k + 1, by omega, hstops⟩
      · rintro ⟨k, hk, hstops⟩
        cases k with
        | zero => exact absurd hstops hstop
        | succ k => exact ⟨k, by omega, hstops⟩

lemma walkLoop_same {max fuel fuel' : Nat} (s : Place) {types types' : List Nat} {w w' : Walk}
    (hw : walkLoop p o (some max) fuel s.1 s.2 types = some w)
    (hw' : walkLoop p o none fuel' s.1 s.2 types' = some w') (hne : w.nxt ≠ 255) :
    w.nxt = w'.nxt := by
  induction fuel generalizing fuel' s types with
  | zero => cases hw
  | succ fuel ih =>
    cases fuel' with
    | zero => cases hw'
    | succ fuel' =>
      cases hext : isExtHeader s.1 with
      | false =>
        rw [walkLoop_upper hext] at hw hw'
        cases hw
        cases hw'
        rfl
      | true =>
        by_cases hsize : s.size p o = 0
        · rw [walkLoop_empty hext hsize] at hw
          cases hw
          exact absurd rfl hne
        · by_cases hroom : types.length < max
          · rw [walkLoop_room hext hsize fuel hroom] at hw
            rw [walkLoop_noArray hext hsize] at hw'
            exact ih (s.next p o) hw hw'
          · rw [walkLoop_full hext fuel (by omega)] at hw
            cases hw
            exact absurd rfl hne

/-! ## All places -/

def places (types offsets : Nat) : Finset Place := Finset.range types ×ˢ Finset.range offsets

lemma card_places (types offsets : Nat) : (places types offsets).card = types * offsets := by
  rw [places, Finset.card_product, Finset.card_range, Finset.card_range]

lemma mem_places {types offsets : Nat} {s : Place} :
    s ∈ places types offsets ↔ s.1 < types ∧ s.2 < offsets := by
  rw [places, Finset.mem_product, Finset.mem_range, Finset.mem_range]

attribute [irreducible] places

lemma firstPlace_mem : firstPlace p o ∈ places 256 (2 ^ 16) :=
  mem_places.mpr ⟨byteAt_lt _ _, by norm_num [firstPlace]⟩

lemma next_mem (s : Place) : s.next p o ∈ places 256 (2 ^ 16) :=
  mem_places.mpr ⟨byteAt_lt _ _, Nat.mod_lt _ (by norm_num)⟩

/-- The walk with an array always ends and does not contradict the walk without one. The walk
without an array ends when one of the first `2 ^ 24` places has no extension header or an extension
header of the size 0. -/
theorem walksEnd_iff (p : Bytes) (o : Nat) :
    WalksEnd p o ↔ ∃ k < 2 ^ 24, ((Place.next p o)^[k] (firstPlace p o)).Stops p o := by
  have hplaces := exists_iterate_iff_lt_card (f := Place.next p o)
    (P := fun s => s.Stops p o) (firstPlace_mem (p := p) (o := o)) (fun s _ => next_mem s)
  have hcard : (places 256 (2 ^ 16)).card = 2 ^ 24 := card_places 256 (2 ^ 16)
  rw [hcard] at hplaces
  rw [← hplaces]
  constructor
  · intro h
    obtain ⟨fuel, w, hw⟩ := h.noArray
    obtain ⟨k, -, hstops⟩ := (walkLoop_noArray_ends_iff (firstPlace p o) []).mp ⟨w, hw⟩
    exact ⟨k, hstops⟩
  · rintro ⟨k, hstops⟩
    refine ⟨?_, ?_, ?_⟩
    · exact ⟨11, walkLoop_array_ends (by norm_num : 10 < 11) (firstPlace p o) rfl⟩
    · exact ⟨k + 1, (walkLoop_noArray_ends_iff (firstPlace p o) []).mpr ⟨k, by omega, hstops⟩⟩
    · intro fuel fuel' w w' hw hw' hne _
      exact walkLoop_same (firstPlace p o) hw hw' hne

def fragmentRing : Bytes :=
  [0x60, 0, 0, 0, 0xFF, 0xFF, 44, 64] ++ List.replicate 32 0 ++ List.replicate 65535 44

lemma byteAt_fragmentRing {n : Nat} (hn : n < 65535) : byteAt fragmentRing (40 + n) = 44 := by
  have happend : byteAt fragmentRing (40 + n) = byteAt (List.replicate 65535 44) n :=
    byteAt_append_right ([0x60, 0, 0, 0, 0xFF, 0xFF, 44, 64] ++ List.replicate 32 0)
      (List.replicate 65535 44) n
  have hget : (List.replicate 65535 (44 : UInt8))[n]? = some 44 :=
    List.getElem?_replicate_of_lt hn
  rw [happend, byteAt, List.getD_eq_getElem?_getD, hget]
  rfl

lemma place_fragmentRing (k : Nat) :
    (Place.next fragmentRing 0)^[k] (firstPlace fragmentRing 0) = (44, 8 * k % 2 ^ 16) := by
  induction k with
  | zero => rfl
  | succ k ih =>
    have hbyte : byteAt fragmentRing (0 + sizeofIp6hdr2 + 8 * k % 2 ^ 16) = 44 := by
      rw [Nat.zero_add]
      exact byteAt_fragmentRing (by omega)
    rw [Function.iterate_succ_apply', ih, Place.next, hbyte]
    refine Prod.ext rfl ?_
    change (8 * k % 2 ^ 16 + 8) % 2 ^ 16 = 8 * (k + 1) % 2 ^ 16
    omega

/-- The walk along fragment headers comes back to the first one. -/
theorem not_walksEnd_fragmentRing : ¬WalksEnd fragmentRing 0 := by
  intro h
  obtain ⟨fuel, w, hw⟩ := h.noArray
  obtain ⟨k, -, hstops⟩ := (walkLoop_noArray_ends_iff (firstPlace fragmentRing 0) []).mp ⟨w, hw⟩
  rw [place_fragmentRing] at hstops
  have hsize : Place.size fragmentRing 0 (44, 8 * k % 2 ^ 16) = 8 := rfl
  have hzero := hstops rfl
  omega

end VoipMonitor.ExtHeaders
