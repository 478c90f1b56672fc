import VoipMonitor.Model.Rtcp

/-!
# RTCP reports and the packets they stand in

A packet is taken if it lies in the payload, but its reports are looked for up to the end of the
payload and the blocks of an XR packet without a look at their size. The reports lie in their packet
if the count in the header fits the size, or if the payload ends first.
-/

namespace VoipMonitor.Rtcp
open VoipMonitor.Library

/-- The places and sizes of the blocks that are used; one of an XR packet begins with its own
header. -/
def Content.blocks : Content → List (Nat × Nat)
  | .sr _ reports => reports.map (fun b => (b.1, reportBlockSize))
  | .rr reports => reports.map (fun b => (b.1, reportBlockSize))
  | .xr reports => reports.map (fun b => (b.1, xrGenSize + voipMetricsSize))
  | .other => []

structure Inside (datalen : Nat) (packet : RtcpPacket) (block : Nat × Nat) : Prop where
  start_le : packet.start ≤ block.1
  packet_end : block.1 + block.2 ≤ packet.start + packet.size
  payload_end : block.1 + block.2 ≤ datalen

/-- Every block that is read lies in its packet and in the payload. -/
def RespectsBoundaries (data : Bytes) (datalen : Nat) : Prop :=
  ∀ packet ∈ parseRtcp data datalen, ∀ block ∈ packet.content.blocks, Inside datalen packet block

/-- The packets of the compound, one behind the other. -/
inductive ReachesPacket (data : Bytes) (datalen : Nat) : Nat → Nat → Prop where
  | here {pkt : Nat} : packetIsOk data datalen pkt = true → ReachesPacket data datalen pkt pkt
  | next {pkt p : Nat} : packetIsOk data datalen pkt = true →
      ReachesPacket data datalen (pkt + rtcpSize data pkt) p → ReachesPacket data datalen pkt p

inductive ReachesBlock (data : Bytes) (packetEnd stop : Nat) : Nat → Nat → Prop where
  | here {pkt : Nat} : pkt + xrGenSize < packetEnd → pkt + xrGenSize ≤ stop →
      ReachesBlock data packetEnd stop pkt pkt
  | next {pkt q : Nat} : pkt + xrGenSize < packetEnd → pkt + xrGenSize ≤ stop →
      ReachesBlock data packetEnd stop (pkt + (xrGenSize + be16 data (pkt + 2) * 4)) q →
      ReachesBlock data packetEnd stop pkt q

/-- The header counts no more report blocks than fit the packet behind its first `front` bytes, or
the payload ends before the next one. -/
def CountFits (data : Bytes) (datalen p front : Nat) : Prop :=
  let fitting := (rtcpSize data p - front) / reportBlockSize
  rcSc data p ≤ fitting ∨ datalen < p + front + reportBlockSize * (fitting + 1)

/-- The blocks that a packet announces lie in it. -/
structure BlocksFit (data : Bytes) (datalen p : Nat) : Prop where
  sr : packetType data p = packetTypeSr →
    CountFits data datalen p (headerSize + senderInfoSize)
  rr : packetType data p = packetTypeRr → CountFits data datalen p (headerSize + 4)
  xr : packetType data p = packetTypeXr →
    ∀ q, ReachesBlock data (p + rtcpSize data p) (datalen - headerSize) (p + xrHeaderSize) q →
      byteAt data q = xrVoipMetrics → q + (xrGenSize + voipMetricsSize) ≤ p + rtcpSize data p

variable {data : Bytes} {datalen stop count pkt p fuel packetEnd : Nat}

/-! ## What the loops give -/

lemma mem_reportBlocks {place : Nat} :
    (∃ b, (place, b) ∈ reportBlocks data stop count pkt) ↔
      ∃ i < count, place = pkt + reportBlockSize * i ∧
        pkt + reportBlockSize * (i + 1) ≤ stop := by
  induction count generalizing pkt with
  | zero =>
    rw [reportBlocks]
    exact iff_of_false (fun ⟨_, h⟩ => List.not_mem_nil h) (fun ⟨i, h, _⟩ => Nat.not_lt_zero i h)
  | succ count ih =>
    rw [reportBlocks]
    by_cases hfits : pkt + reportBlockSize ≤ stop
    · rw [if_pos hfits]
      constructor
      · rintro ⟨b, hb⟩
        rcases List.mem_cons.mp hb with heq | hrest
        · obtain ⟨rfl, -⟩ := Prod.mk.inj heq
          exact ⟨0, Nat.succ_pos _, by omega, by omega⟩
        · obtain ⟨i, hi, rfl, hstop⟩ := ih.mp ⟨b, hrest⟩
          exact ⟨i + 1, by omega, by ring, by linarith⟩
      · rintro ⟨i, hi, rfl, hstop⟩
        cases i with
        | zero => exact ⟨_, List.mem_cons_self⟩
        | succ i =>
          obtain ⟨b, hb⟩ := ih.mpr ⟨i, by omega, (by ring :
            pkt + reportBlockSize * (i + 1) = pkt + reportBlockSize + reportBlockSize * i),
            by linarith⟩
          exact ⟨b, List.mem_cons_of_mem _ hb⟩
    · rw [if_neg hfits]
      refine iff_of_false (fun ⟨_, h⟩ => List.not_mem_nil h) ?_
      rintro ⟨i, -, -, hstop⟩
      apply hfits
      calc pkt + reportBlockSize = pkt + reportBlockSize * 1 := by ring
        _ ≤ pkt + reportBlockSize * (i + 1) := by gcongr; omega
        _ ≤ stop := hstop

lemma reachesBlock_iff {q : Nat} : ReachesBlock data packetEnd stop pkt q ↔
    (pkt + xrGenSize < packetEnd ∧ pkt + xrGenSize ≤ stop) ∧
      (q = pkt ∨
        ReachesBlock data packetEnd stop (pkt + (xrGenSize + be16 data (pkt + 2) * 4)) q) := by
  constructor
  · intro h
    cases h with
    | here hroom hstop => exact ⟨⟨hroom, hstop⟩, Or.inl rfl⟩
    | next hroom hstop hrest => exact ⟨⟨hroom, hstop⟩, Or.inr hrest⟩
  · rintro ⟨⟨hroom, hstop⟩, rfl | hrest⟩
    · exact .here hroom hstop
    · exact .next hroom hstop hrest

lemma mem_xrBlocks {q : Nat} (hfuel : packetEnd ≤ pkt + fuel) :
    (∃ v, (q, v) ∈ xrBlocks data stop fuel (packetEnd - pkt) pkt) ↔
      ReachesBlock data packetEnd stop pkt q ∧ byteAt data q = xrVoipMetrics := by
  induction fuel generalizing pkt with
  | zero =>
    rw [xrBlocks, reachesBlock_iff]
    exact iff_of_false (fun ⟨_, h⟩ => List.not_mem_nil h) (fun h => by omega)
  | succ fuel ih =>
    rw [xrBlocks, reachesBlock_iff]
    by_cases hroom : pkt + xrGenSize < packetEnd
    · rw [if_pos (by omega)]
      by_cases hstop : pkt + xrGenSize > stop
      · rw [if_pos hstop]
        exact iff_of_false (fun ⟨_, h⟩ => List.not_mem_nil h) (fun h => by omega)
      · set next := pkt + (xrGenSize + be16 data (pkt + 2) * 4) with hnext
        have hleft : ((packetEnd : Int) - pkt) - (xrGenSize + be16 data (pkt + 2) * 4 : Nat) =
            packetEnd - next := by
          rw [hnext]
          push_cast
          ring
        have hrest : (∃ v, (q, v) ∈ xrBlocks data stop fuel (packetEnd - next) next) ↔ _ :=
          ih (by unfold xrGenSize at hnext; omega)
        rw [if_neg hstop]
        dsimp only
        rw [hleft, ← hnext]
        by_cases hvoip : byteAt data pkt = xrVoipMetrics
        · rw [if_neg (not_not.mpr hvoip)]
          simp only [List.mem_cons, exists_or, hrest]
          constructor
          · rintro (⟨v, heq⟩ | ⟨hreach, htype⟩)
            · obtain ⟨rfl, -⟩ := Prod.mk.inj heq
              exact ⟨⟨⟨hroom, by omega⟩, Or.inl rfl⟩, hvoip⟩
            · exact ⟨⟨⟨hroom, by omega⟩, Or.inr hreach⟩, htype⟩
          · rintro ⟨⟨-, rfl | hreach⟩, htype⟩
            · exact Or.inl ⟨_, rfl⟩
            · exact Or.inr ⟨hreach, htype⟩
        · rw [if_pos hvoip, hrest]
          constructor
          · rintro ⟨hreach, htype⟩
            exact ⟨⟨⟨hroom, by omega⟩, Or.inr hreach⟩, htype⟩
          · rintro ⟨⟨-, rfl | hreach⟩, htype⟩
            · exact absurd htype hvoip
            · exact ⟨hreach, htype⟩
    · rw [if_neg (by omega)]
      exact iff_of_false (fun ⟨_, h⟩ => List.not_mem_nil h) (fun h => hroom h.1.1.1)

lemma mem_parseLoop {packet : RtcpPacket} (hfuel : datalen ≤ pkt + fuel) :
    packet ∈ parseLoop data datalen fuel pkt ↔ ∃ p, ReachesPacket data datalen pkt p ∧
      packet = ⟨p, rtcpSize data p, readContent data datalen p⟩ := by
  induction fuel generalizing pkt with
  | zero =>
    rw [parseLoop]
    refine iff_of_false List.not_mem_nil ?_
    rintro ⟨p, hreach, -⟩
    have hok : packetIsOk data datalen pkt = true := by
      cases hreach with
      | here hok => exact hok
      | next hok _ => exact hok
    simp only [packetIsOk, Bool.and_eq_true, decide_eq_true_iff] at hok
    omega
  | succ fuel ih =>
    rw [parseLoop]
    by_cases hok : packetIsOk data datalen pkt = true
    · have hsize : headerSize ≤ rtcpSize data pkt := Nat.le_add_left _ _
      rw [if_pos hok, List.mem_cons, ih (by unfold headerSize at hsize; omega)]
      constructor
      · rintro (rfl | ⟨p, hreach, rfl⟩)
        · exact ⟨pkt, .here hok, rfl⟩
        · exact ⟨p, .next hok hreach, rfl⟩
      · rintro ⟨p, hreach, rfl⟩
        cases hreach with
        | here _ => exact Or.inl rfl
        | next _ hrest => exact Or.inr ⟨p, hrest, rfl⟩
    · rw [if_neg hok]
      refine iff_of_false List.not_mem_nil ?_
      rintro ⟨p, hreach, -⟩
      cases hreach with
      | here hok' => exact hok hok'
      | next hok' _ => exact hok hok'

/-! ## One packet -/

lemma ReachesPacket.isOk (h : ReachesPacket data datalen pkt p) :
    packetIsOk data datalen p = true := by
  induction h with
  | here hok => exact hok
  | next _ _ ih => exact ih

lemma ReachesBlock.le {q : Nat} (h : ReachesBlock data packetEnd stop pkt q) : pkt ≤ q := by
  induction h with
  | here _ _ => exact le_rfl
  | next _ _ _ ih => omega

lemma reportBlocks_of_end (h : stop ≤ pkt) : reportBlocks data stop count pkt = [] := by
  cases count with
  | zero => rfl
  | succ count =>
    rw [reportBlocks, if_neg]
    unfold reportBlockSize
    omega

lemma dumpRtcpSr_reports : (dumpRtcpSr data pkt stop count).2 =
    reportBlocks data stop count (pkt + senderInfoSize) := by
  rw [dumpRtcpSr]
  split
  · rfl
  · exact (reportBlocks_of_end (by omega)).symm

lemma dumpRtcpRr_reports : dumpRtcpRr data pkt stop count =
    reportBlocks data stop count (pkt + 4) := by
  rw [dumpRtcpRr]
  split
  · rfl
  · exact (reportBlocks_of_end (by omega)).symm

lemma mem_map_place {α : Type} {l : List (Nat × α)} {size place size' : Nat} :
    (place, size') ∈ l.map (fun b => (b.1, size)) ↔ size' = size ∧ ∃ b, (place, b) ∈ l := by
  simp only [List.mem_map, Prod.mk.injEq, Prod.exists]
  constructor
  · rintro ⟨q, b, hb, rfl, rfl⟩
    exact ⟨rfl, b, hb⟩
  · rintro ⟨rfl, b, hb⟩
    exact ⟨place, b, hb, rfl, rfl⟩

lemma reports_inside_iff {front : Nat} (content : Content) :
    (∀ block ∈ (reportBlocks data datalen (rcSc data p) (p + front)).map
        (fun b => (b.1, reportBlockSize)),
      Inside datalen ⟨p, rtcpSize data p, content⟩ block) ↔ CountFits data datalen p front := by
  rw [CountFits]
  set fitting := (rtcpSize data p - front) / reportBlockSize with hfitting
  have hused : ∀ place size, (place, size) ∈ (reportBlocks data datalen (rcSc data p)
      (p + front)).map (fun b => (b.1, reportBlockSize)) ↔ size = reportBlockSize ∧
        ∃ i < rcSc data p, place = p + front + reportBlockSize * i ∧
          p + front + reportBlockSize * (i + 1) ≤ datalen := by
    intro place size
    rw [mem_map_place, mem_reportBlocks]
  unfold reportBlockSize at hused hfitting ⊢
  constructor
  · intro h
    by_contra hnot
    have hinside := (h (p + front + 24 * fitting, 24) ((hused _ _).mpr
      ⟨rfl, fitting, by omega, rfl, by omega⟩)).packet_end
    dsimp only at hinside
    omega
  · rintro hfits ⟨place, size⟩ hblock
    obtain ⟨rfl, i, hi, rfl, hpayload⟩ := (hused place size).mp hblock
    refine ⟨by dsimp only; omega, ?_, by dsimp only; omega⟩
    dsimp only
    omega

lemma metrics_inside_iff (content : Content) (hend : p + rtcpSize data p ≤ datalen) :
    (∀ block ∈ (dumpRtcpXr data p (datalen - (p + headerSize)) (rtcpSize data p)).map
        (fun b => (b.1, xrGenSize + voipMetricsSize)),
      Inside datalen ⟨p, rtcpSize data p, content⟩ block) ↔
      ∀ q, ReachesBlock data (p + rtcpSize data p) (datalen - headerSize) (p + xrHeaderSize) q →
        byteAt data q = xrVoipMetrics →
        q + (xrGenSize + voipMetricsSize) ≤ p + rtcpSize data p := by
  have hsize : headerSize ≤ rtcpSize data p := Nat.le_add_left _ _
  have hstop : p + (datalen - (p + headerSize)) = datalen - headerSize := by omega
  have hleft : ((rtcpSize data p : Int) - xrHeaderSize) =
      (p + rtcpSize data p : Nat) - (p + xrHeaderSize : Nat) := by
    push_cast
    ring
  have hused : ∀ q, (∃ v, (q, v) ∈ dumpRtcpXr data p (datalen - (p + headerSize))
      (rtcpSize data p)) ↔ ReachesBlock data (p + rtcpSize data p) (datalen - headerSize)
        (p + xrHeaderSize) q ∧ byteAt data q = xrVoipMetrics := by
    intro q
    rw [dumpRtcpXr, hstop, hleft]
    exact mem_xrBlocks (by omega)
  constructor
  · intro h q hreach htype
    exact (h (q, _) (mem_map_place.mpr ⟨rfl, (hused q).mpr ⟨hreach, htype⟩⟩)).packet_end
  · rintro hfits ⟨q, size⟩ hblock
    obtain ⟨rfl, hq⟩ := mem_map_place.mp hblock
    obtain ⟨hreach, htype⟩ := (hused q).mp hq
    have hle := hreach.le
    have hin := hfits q hreach htype
    refine ⟨by dsimp only; omega, hin, by dsimp only; omega⟩

lemma packet_inside_iff (hend : p + rtcpSize data p ≤ datalen) :
    (∀ block ∈ (readContent data datalen p).blocks,
      Inside datalen ⟨p, rtcpSize data p, readContent data datalen p⟩ block) ↔
      BlocksFit data datalen p := by
  have htypes : packetTypeSr ≠ packetTypeRr ∧ packetTypeSr ≠ packetTypeXr ∧
      packetTypeRr ≠ packetTypeXr := by decide
  by_cases hsr : packetType data p = packetTypeSr
  · have hblocks : (readContent data datalen p).blocks =
        (reportBlocks data datalen (rcSc data p) (p + (headerSize + senderInfoSize))).map
          (fun b => (b.1, reportBlockSize)) := by
      rw [readContent, if_pos hsr, Content.blocks, dumpRtcpSr_reports, Nat.add_assoc]
    rw [hblocks, reports_inside_iff]
    refine ⟨fun h => ⟨fun _ => h, fun hrr => ?_, fun hxr => ?_⟩, fun h => h.sr hsr⟩
    · exact absurd (hsr.symm.trans hrr) htypes.1
    · exact absurd (hsr.symm.trans hxr) htypes.2.1
  by_cases hrr : packetType data p = packetTypeRr
  · have hblocks : (readContent data datalen p).blocks =
        (reportBlocks data datalen (rcSc data p) (p + (headerSize + 4))).map
          (fun b => (b.1, reportBlockSize)) := by
      rw [readContent, if_neg hsr, if_pos hrr, Content.blocks, dumpRtcpRr_reports, Nat.add_assoc]
    rw [hblocks, reports_inside_iff]
    refine ⟨fun h => ⟨fun hsr' => absurd hsr' hsr, fun _ => h, fun hxr => ?_⟩, fun h => h.rr hrr⟩
    exact absurd (hrr.symm.trans hxr) htypes.2.2
  by_cases hxr : packetType data p = packetTypeXr
  · have hblocks : (readContent data datalen p).blocks =
        (dumpRtcpXr data p (datalen - (p + headerSize)) (rtcpSize data p)).map
          (fun b => (b.1, xrGenSize + voipMetricsSize)) := by
      rw [readContent, if_neg hsr, if_neg hrr, if_pos hxr, Content.blocks]
    rw [hblocks, metrics_inside_iff _ hend]
    exact ⟨fun h => ⟨fun hsr' => absurd hsr' hsr, fun hrr' => absurd hrr' hrr, fun _ => h⟩,
      fun h => h.xr hxr⟩
  · have hblocks : (readContent data datalen p).blocks = [] := by
      rw [readContent, if_neg hsr, if_neg hrr, if_neg hxr, Content.blocks]
    rw [hblocks]
    exact iff_of_true (fun _ h => absurd h List.not_mem_nil) ⟨fun hsr' => absurd hsr' hsr,
      fun hrr' => absurd hrr' hrr, fun hxr' => absurd hxr' hxr⟩

/-- The blocks that are used lie in their packets and in the payload exactly if they fit the packets
of the compound. -/
theorem respects_boundaries_iff (data : Bytes) (datalen : Nat) :
    RespectsBoundaries data datalen ↔
      ∀ p, ReachesPacket data datalen 0 p → BlocksFit data datalen p := by
  have hends : ∀ p, ReachesPacket data datalen 0 p → p + rtcpSize data p ≤ datalen := by
    intro p hp
    have hok := hp.isOk
    simp only [packetIsOk, Bool.and_eq_true, decide_eq_true_iff] at hok
    exact hok.2
  rw [RespectsBoundaries, parseRtcp]
  constructor
  · intro h p hp
    exact (packet_inside_iff (hends p hp)).mp
      (h _ ((mem_parseLoop (by omega)).mpr ⟨p, hp, rfl⟩))
  · intro h packet hpacket
    obtain ⟨p, hp, rfl⟩ := (mem_parseLoop (by omega)).mp hpacket
    exact (packet_inside_iff (hends p hp)).mpr (h p hp)

def shortReport : Bytes :=
  [0x81, 201, 0, 1, 0, 0, 0, 7, 0x80, 202, 0, 5, 1, 2, 3, 4, 5, 6, 7, 8, 9, 10, 11, 12, 13, 14, 15,
    16, 17, 18, 19, 20]

theorem report_of_following_packet :
    ¬∀ (data : Bytes) (datalen : Nat), RespectsBoundaries data datalen := by
  intro h
  have hmem : (⟨0, 8, .rr [(8, readReportBlock shortReport 8)]⟩ : RtcpPacket) ∈
      parseRtcp shortReport 32 := by decide +kernel
  have hinside := (h shortReport 32 _ hmem (8, 24) (by decide +kernel)).packet_end
  exact absurd hinside (by decide)

end VoipMonitor.Rtcp
