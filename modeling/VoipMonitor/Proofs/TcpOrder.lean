import VoipMonitor.Proofs.TcpStraight

/-!
# Segments in any order

The segments of a byte string may come in any order and more than once: the maps of the stream
hold each of them once, and the walk finds them in their order.
-/

namespace VoipMonitor.Tcp
open VoipMonitor.Library

/-! ## The bounds of a stream -/

lemma seqCmp_of_near {a b : Nat} (hab : a < b + 2 ^ 31) (hba : b < a + 2 ^ 31) :
    (seqCmp a b < 0 ↔ a < b) ∧ (seqCmp a b > 0 ↔ b < a) := by
  have hrot : ∀ {x y : Nat}, x < y + 2 ^ 31 → seqIsRot x y = false := by
    intro x y hxy
    rw [seqIsRot, Bool.and_eq_false_iff]
    by_cases hx : x > 0xFFFF0000
    · exact .inr (by simp only [decide_eq_false_iff_not]; omega)
    · exact .inl (by simpa using hx)
  rw [seqCmp, hrot hab, hrot hba]
  rcases lt_trichotomy a b with h | h | h
  · rw [if_neg (by omega), if_pos h]
    simp [h]
    omega
  · rw [h]
    simp
  · rw [if_pos h]
    simp [h]
    omega

def InWindow (lo hi : Nat) (p : StreamPacket) : Prop :=
  lo ≤ p.seq ∧ p.seq < p.nextSeq ∧ p.nextSeq ≤ hi

structure Bounded (pushed : List StreamPacket) (s : Stream) : Prop where
  minSeq_mem : s.minSeq ∈ pushed.map (fun p => p.seq)
  minSeq_le : ∀ p ∈ pushed, s.minSeq ≤ p.seq
  maxNextSeq_mem : s.maxNextSeq ∈ pushed.map (fun p => p.nextSeq)
  le_maxNextSeq : ∀ p ∈ pushed, p.nextSeq ≤ s.maxNextSeq

lemma Stream.push_minSeq (cfg : StreamConfig) (s : Stream) (p : StreamPacket) :
    ((s.push cfg p).moveBounds p).minSeq =
        (if s.minSeq = 0 ∨ seqCmp p.seq s.minSeq < 0 then p.seq else s.minSeq) ∧
      ((s.push cfg p).moveBounds p).maxNextSeq =
        (if s.maxNextSeq = 0 ∨ seqCmp p.nextSeq s.maxNextSeq > 0 then p.nextSeq
          else s.maxNextSeq) := by
  unfold Stream.moveBounds Stream.push
  split <;> exact ⟨rfl, rfl⟩

section Window
variable {lo hi : Nat} (hlo : 1 ≤ lo) (hhi : hi < lo + 2 ^ 31)
include hlo hhi

lemma bounded_push {pushed : List StreamPacket} {s : Stream}
    (h : (pushed = [] ∧ s.minSeq = 0 ∧ s.maxNextSeq = 0) ∨ Bounded pushed s)
    (hpushed : ∀ p ∈ pushed, InWindow lo hi p) (cfg : StreamConfig) {p : StreamPacket}
    (hp : InWindow lo hi p) : Bounded (pushed ++ [p]) ((s.push cfg p).moveBounds p) := by
  obtain ⟨hmin, hmax⟩ := Stream.push_minSeq cfg s p
  rcases h with ⟨rfl, hmin0, hmax0⟩ | h
  · rw [if_pos (.inl hmin0)] at hmin
    rw [if_pos (.inl hmax0)] at hmax
    refine ⟨by rw [hmin]; simp, ?_, by rw [hmax]; simp, ?_⟩
    · intro q hq
      rw [List.nil_append, List.mem_singleton] at hq
      rw [hmin, hq]
    · intro q hq
      rw [List.nil_append, List.mem_singleton] at hq
      rw [hmax, hq]
  · obtain ⟨q, hq, hqmin⟩ := List.mem_map.mp h.minSeq_mem
    obtain ⟨r, hr, hrmax⟩ := List.mem_map.mp h.maxNextSeq_mem
    have hqw := hpushed q hq
    have hrw := hpushed r hr
    unfold InWindow at hp hqw hrw
    have hcmp := (seqCmp_of_near (a := p.seq) (b := s.minSeq) (by omega) (by omega)).1
    have hcmp' := (seqCmp_of_near (a := p.nextSeq) (b := s.maxNextSeq) (by omega) (by omega)).2
    simp only [hcmp] at hmin
    simp only [hcmp'] at hmax
    refine ⟨?_, ?_, ?_, ?_⟩
    · rw [hmin, List.map_append, List.mem_append]
      split
      · exact .inr (by simp)
      · exact .inl h.minSeq_mem
    · intro x hx
      rw [hmin]
      rcases List.mem_append.mp hx with hx | hx
      · have := h.minSeq_le x hx
        split <;> omega
      · rw [List.mem_singleton.mp hx]
        split <;> omega
    · rw [hmax, List.map_append, List.mem_append]
      split
      · exact .inr (by simp)
      · exact .inl h.maxNextSeq_mem
    · intro x hx
      rw [hmax]
      rcases List.mem_append.mp hx with hx | hx
      · have := h.le_maxNextSeq x hx
        split <;> omega
      · rw [List.mem_singleton.mp hx]
        split <;> omega

lemma bounded_pushAll {pushed packets : List StreamPacket} {s : Stream} (h : Bounded pushed s)
    (hpushed : ∀ p ∈ pushed ++ packets, InWindow lo hi p) (cfg : StreamConfig) :
    Bounded (pushed ++ packets) (pushAll cfg s packets) := by
  induction packets generalizing pushed s with
  | nil =>
    rw [List.append_nil]
    exact h
  | cons p packets ih =>
    have hstep := bounded_push hlo hhi (.inr h)
      (fun q hq => hpushed q (List.mem_append_left _ hq)) cfg (hpushed p (by simp))
    have hrest := ih hstep (by rw [List.append_assoc]; exact hpushed)
    rw [List.append_assoc] at hrest
    exact hrest

lemma bounded_new {packets : List StreamPacket} (hne : packets ≠ [])
    (hpackets : ∀ p ∈ packets, InWindow lo hi p) (cfg : StreamConfig) (ack : Nat) (toDest : Bool) :
    Bounded packets (pushAll cfg (.new ack toDest) packets) := by
  obtain ⟨p, rest, rfl⟩ := List.exists_cons_of_ne_nil hne
  have hfirst := bounded_push hlo hhi (s := .new ack toDest) (.inl ⟨rfl, rfl, rfl⟩)
    (fun q hq => by cases hq) cfg (hpackets p List.mem_cons_self)
  exact bounded_pushAll hlo hhi hfirst hpackets cfg

end Window

/-! ## Packets of a byte string -/

structure Carries (base : Nat) (D : Bytes) (p : StreamPacket) : Prop where
  inside : Stream.Inside base D (p.seq, p.nextSeq)
  datalen : p.datalen = p.nextSeq - p.seq
  data : p.data = Stream.bytesAt base D (p.seq, p.nextSeq)

section Carried
variable {base : Nat} {D : Bytes} {pushed : List StreamPacket} {s : Stream}

lemma Queued.walkable (h : Queued pushed s) (hpushed : ∀ p ∈ pushed, Carries base D p) :
    Stream.Walkable s.queuePacketVars := by
  refine ⟨h.sorted, ?_, ?_⟩
  · intro e he
    exact (h.vars e.1 e.2 (h.sorted.get_of_mem he)).sorted
  · intro e he q hq
    have hvar := h.vars e.1 e.2 (h.sorted.get_of_mem he)
    obtain ⟨hmem, hseq, hnext⟩ := hvar.packets q.1 q.2 (hvar.sorted.get_of_mem hq)
    have hp := hpushed q.2 hmem
    have hinside := hp.inside
    have hlen := hp.datalen
    unfold Stream.Inside at hinside
    dsimp only at hinside
    exact ⟨by omega, hnext, by omega⟩

lemma Queued.getPacket_cases (h : Queued pushed s) {q : Nat × Nat} {p : StreamPacket}
    (hget : s.getPacket q.1 q.2 = some p) :
    p ∈ pushed ∧ p.seq = q.1 ∧ p.nextSeq = q.2 ∧ s.getPacketOffset q.1 = 0 := by
  obtain ⟨v, hv, hp⟩ := Option.bind_eq_some_iff.mp hget
  have hvar := h.vars q.1 v hv
  obtain ⟨hmem, hseq, hnext⟩ := hvar.packets q.2 p hp
  refine ⟨hmem, hseq, hnext, ?_⟩
  rw [Stream.getPacketOffset, hv]
  exact hvar.offset

lemma Queued.gives (h : Queued pushed s) (hpushed : ∀ p ∈ pushed, Carries base D p)
    {cfg : StreamConfig} (hzero : cfg.ignoreZeroData = false) {q : Nat × Nat}
    (hq : (s.getPacket q.1 q.2).isSome) (isFirst : Bool) :
    Stream.Inside base D q ∧ Stream.Gives cfg s isFirst q (Stream.bytesAt base D q) := by
  obtain ⟨p, hget⟩ := Option.isSome_iff_exists.mp hq
  obtain ⟨hmem, hseq, hnext, hoffset⟩ := h.getPacket_cases hget
  have hp := hpushed p hmem
  have hinside := hp.inside
  have hdata := hp.data
  rw [hseq, hnext] at hinside hdata
  have hlen : p.datalen = p.data.length := by
    rw [hdata, Stream.length_bytesAt hinside, hp.datalen, hseq, hnext]
  have hpos : 0 < p.datalen := by
    rw [hlen, hdata, Stream.length_bytesAt hinside]
    unfold Stream.Inside at hinside
    omega
  refine ⟨hinside, ⟨p, hget, by omega, by simp [hzero], ?_⟩, ?_⟩
  · rw [Stream.packetBytes, hoffset, hlen, Nat.min_self]
    simp [slice, hdata]
  · intro hnil
    rw [← hdata] at hnil
    rw [hlen, hnil] at hpos
    exact absurd hpos (by simp)

end Carried

/-! ## The segments of a byte string -/

def joined (segments : List Segment) : Bytes := (segments.map (fun g => g.data)).flatten

/-- The packets of the segments, the first one with the sequence number `base`. -/
def packetsFrom (base : Nat) : List Segment → List StreamPacket
  | [] => []
  | g :: segments =>
    .setData base g.psh g.data g.data.length g.isSip ::
      packetsFrom (base + g.data.length) segments

def rowFrom (base : Nat) : List Segment → List (Nat × Nat)
  | [] => []
  | g :: segments => (base, base + g.data.length) :: rowFrom (base + g.data.length) segments

lemma length_rowFrom (base : Nat) (segments : List Segment) :
    (rowFrom base segments).length = segments.length := by
  induction segments generalizing base with
  | nil => rfl
  | cons g segments ih => rw [rowFrom, List.length_cons, ih, List.length_cons]

lemma rowFrom_eq {base : Nat} {segments : List Segment}
    (h : base + (joined segments).length < 2 ^ 32) :
    rowFrom base segments = (packetsFrom base segments).map (fun p => (p.seq, p.nextSeq)) := by
  induction segments generalizing base with
  | nil => rfl
  | cons g segments ih =>
    rw [joined, List.map_cons, List.flatten_cons, List.length_append, ← joined] at h
    rw [rowFrom, packetsFrom, List.map_cons, ih (by omega), StreamPacket.setData,
      add32_eq (by omega)]

lemma chain_rowFrom (base : Nat) (segments : List Segment) :
    (rowFrom base segments).IsChain (fun p q => p.2 = q.1) := by
  induction segments generalizing base with
  | nil => exact List.isChain_nil
  | cons g segments ih =>
    cases segments with
    | nil => exact List.isChain_singleton _
    | cons g' segments => exact List.isChain_cons_cons.mpr ⟨rfl, ih _⟩

lemma mem_rowFrom {base : Nat} {segments : List Segment} (hne : ∀ g ∈ segments, g.data ≠ [])
    {p : Nat × Nat} (hp : p ∈ rowFrom base segments) :
    base ≤ p.1 ∧ p.1 < p.2 ∧ p.2 ≤ base + (joined segments).length := by
  induction segments generalizing base with
  | nil => cases hp
  | cons g segments ih =>
    have hpos : 0 < g.data.length := List.length_pos_iff.mpr (hne g List.mem_cons_self)
    rw [joined, List.map_cons, List.flatten_cons, List.length_append, ← joined]
    rcases List.mem_cons.mp hp with rfl | hp
    · omega
    · have := ih (fun g hg => hne g (List.mem_cons_of_mem _ hg)) hp
      omega

lemma pairwise_rowFrom {base : Nat} {segments : List Segment}
    (hne : ∀ g ∈ segments, g.data ≠ []) :
    (rowFrom base segments).Pairwise (fun p q => p.2 ≤ q.1) := by
  induction segments generalizing base with
  | nil => exact List.Pairwise.nil
  | cons g segments ih =>
    have hrest := fun g hg => hne g (List.mem_cons_of_mem _ hg)
    refine List.pairwise_cons.mpr ⟨?_, ih hrest⟩
    intro q hq
    exact (mem_rowFrom hrest hq).1

lemma sorted_rowFrom {base : Nat} {segments : List Segment} (hne : ∀ g ∈ segments, g.data ≠ []) :
    SortedMap.Sorted seqLt (rowFrom base segments) := by
  refine (pairwise_rowFrom hne).imp_of_mem ?_
  intro p q hp _ hpq
  have := (mem_rowFrom hne hp).2.1
  rw [seqLt, decide_eq_true_eq]
  omega

lemma getLast_rowFrom {base : Nat} {segments : List Segment} (hne : segments ≠ []) :
    ∃ p, (rowFrom base segments).getLast? = some p ∧
      p.2 = base + (joined segments).length := by
  induction segments generalizing base with
  | nil => exact absurd rfl hne
  | cons g segments ih =>
    rw [joined, List.map_cons, List.flatten_cons, List.length_append, ← joined]
    cases segments with
    | nil => exact ⟨(base, base + g.data.length), rfl, by simp [joined]⟩
    | cons g' segments =>
      obtain ⟨p, hp, hlast⟩ := @ih (base + g.data.length) (by simp)
      refine ⟨p, ?_, by omega⟩
      rw [rowFrom, rowFrom, List.getLast?_cons_cons]
      exact hp

lemma rowBytes_rowFrom {base : Nat} {segments : List Segment} (hsegments : segments ≠ [])
    (hne : ∀ g ∈ segments, g.data ≠ []) :
    Stream.rowBytes (Stream.bytesAt base (joined segments)) (rowFrom base segments) =
      joined segments := by
  have hinside : ∀ r ∈ rowFrom base segments, Stream.Inside base (joined segments) r :=
    fun r hr => mem_rowFrom hne hr
  have hfollows : (rowFrom base segments).IsChain Stream.Follows :=
    (chain_rowFrom base segments).imp (fun _ _ h => .inl h.symm)
  obtain ⟨q, hqlast, hqend⟩ := @getLast_rowFrom base segments hsegments
  cases segments with
  | nil => exact absurd rfl hsegments
  | cons g segments =>
    have hdata := (Stream.rowBytes_of_follows hinside hfollows q hqlast).2
    rw [rowFrom, hdata, hqend]
    simp [part, slice]

lemma carries_packetsFrom {base : Nat} {segments : List Segment} (before : Bytes)
    (hne : ∀ g ∈ segments, g.data ≠ [])
    (h : base + before.length + (joined segments).length < 2 ^ 32) {p : StreamPacket}
    (hp : p ∈ packetsFrom (base + before.length) segments) :
    Carries base (before ++ joined segments) p := by
  induction segments generalizing before with
  | nil => cases hp
  | cons g segments ih =>
    have hpos : 0 < g.data.length := List.length_pos_iff.mpr (hne g List.mem_cons_self)
    have hjoined : joined (g :: segments) = g.data ++ joined segments := by
      rw [joined, List.map_cons, List.flatten_cons, ← joined]
    rw [hjoined, List.length_append] at h
    rw [hjoined]
    rcases List.mem_cons.mp hp with rfl | hp
    · refine ⟨?_, ?_, ?_⟩
      · unfold Stream.Inside StreamPacket.setData
        dsimp only
        rw [add32_eq (by omega), List.length_append, List.length_append]
        omega
      · rw [StreamPacket.setData]
        dsimp only
        rw [add32_eq (by omega)]
        omega
      · rw [StreamPacket.setData, Stream.bytesAt]
        rw [add32_eq (by omega), part,
          show base + before.length - base = before.length + 0 by omega,
          show base + before.length + g.data.length - base - (before.length + 0) =
            g.data.length by omega, slice_append_right, slice]
        simp
    · have hrest := ih (before ++ g.data) (fun g hg => hne g (List.mem_cons_of_mem _ hg))
        (by rw [List.length_append]; omega)
        (by rw [List.length_append, ← Nat.add_assoc]; exact hp)
      rw [List.append_assoc] at hrest
      exact hrest

section Arrivals
variable {base : Nat} {segments : List Segment} (hne : ∀ g ∈ segments, g.data ≠ [])
  (hwrap : base + (joined segments).length < 2 ^ 32) {arrivals : List StreamPacket}
  (harrivals : ∀ p, p ∈ arrivals ↔ p ∈ packetsFrom base segments)
include hne hwrap harrivals

lemma carries_arrivals {p : StreamPacket} (hp : p ∈ arrivals) :
    Carries base (joined segments) p := by
  have h := @carries_packetsFrom base segments [] hne (by simpa using hwrap) p
    ((harrivals p).mp hp)
  exact h

omit hne in
lemma mem_row_of_arrival {p : StreamPacket} (hp : p ∈ arrivals) :
    (p.seq, p.nextSeq) ∈ rowFrom base segments := by
  rw [rowFrom_eq hwrap]
  exact List.mem_map.mpr ⟨p, (harrivals p).mp hp, rfl⟩

lemma layout_arrivals {s : Stream} (h : Queued arrivals s) :
    Stream.layout s.queuePacketVars = Stream.straight (rowFrom base segments) := by
  have hrow := @sorted_rowFrom base segments hne
  have hends : ∀ e ∈ s.queuePacketVars, ∃ n, (e.1, n) ∈ rowFrom base segments ∧
      e.2.queuePackets.map (fun q => q.1) = [n] := by
    intro e he
    have hvar := h.vars e.1 e.2 (h.sorted.get_of_mem he)
    -- all ends at one begin are the end of the one segment there
    have hend : ∀ q ∈ e.2.queuePackets, (e.1, q.1) ∈ rowFrom base segments := by
      intro q hq
      obtain ⟨hmem, hseq, hnext⟩ := hvar.packets q.1 q.2 (hvar.sorted.get_of_mem hq)
      rw [← hseq, ← hnext]
      exact mem_row_of_arrival hwrap harrivals hmem
    have hsorted := hvar.sorted
    obtain ⟨q, rest, hq⟩ := List.exists_cons_of_ne_nil hvar.ne_nil
    rw [hq] at hend hsorted
    refine ⟨q.1, hend q List.mem_cons_self, ?_⟩
    cases rest with
    | nil => rw [hq]; rfl
    | cons r rest =>
      have hlt := (List.pairwise_cons.mp hsorted).1 r List.mem_cons_self
      have hget := hrow.get_of_mem (hend q List.mem_cons_self)
      rw [hrow.get_of_mem (hend r (by simp))] at hget
      rw [Option.some.inj hget, seqLt, decide_eq_true_eq] at hlt
      exact absurd hlt (lt_irrefl _)
  have hstraight : SortedMap.Sorted seqLt (Stream.straight (rowFrom base segments)) :=
    hrow.map _ (fun _ => rfl)
  have hlayout : SortedMap.Sorted seqLt (Stream.layout s.queuePacketVars) :=
    h.sorted.map _ (fun _ => rfl)
  refine hlayout.ext hstraight ?_
  intro x
  constructor
  · intro hx
    obtain ⟨e, he, rfl⟩ := List.mem_map.mp hx
    obtain ⟨n, hn, heq⟩ := hends e he
    rw [heq]
    exact List.mem_map.mpr ⟨_, hn, rfl⟩
  · intro hx
    obtain ⟨q, hq, rfl⟩ := List.mem_map.mp hx
    have hmem := hq
    rw [rowFrom_eq hwrap] at hmem
    obtain ⟨p, hp, rfl⟩ := List.mem_map.mp hmem
    obtain ⟨packet, hpacket⟩ := Option.isSome_iff_exists.mp (h.present p ((harrivals p).mpr hp))
    obtain ⟨v, hv, -⟩ := Option.bind_eq_some_iff.mp hpacket
    obtain ⟨n, hn, heq⟩ := hends (p.seq, v) (SortedMap.mem_of_get hv)
    refine List.mem_map.mpr ⟨(p.seq, v), SortedMap.mem_of_get hv, ?_⟩
    have hget := hrow.get_of_mem hn
    rw [hrow.get_of_mem hq] at hget
    rw [heq, Option.some.inj hget]

lemma bounds_arrivals {s : Stream} (h : Bounded arrivals s) (hsegments : segments ≠ []) :
    s.minSeq = base ∧ s.maxNextSeq = base + (joined segments).length := by
  have hmem : ∀ q ∈ rowFrom base segments, s.minSeq ≤ q.1 ∧ q.2 ≤ s.maxNextSeq := by
    intro q hq
    rw [rowFrom_eq hwrap] at hq
    obtain ⟨p, hp, rfl⟩ := List.mem_map.mp hq
    have hp := (harrivals p).mpr hp
    exact ⟨h.minSeq_le p hp, h.le_maxNextSeq p hp⟩
  obtain ⟨p, hp, hmin⟩ := List.mem_map.mp h.minSeq_mem
  obtain ⟨q, hq, hmax⟩ := List.mem_map.mp h.maxNextSeq_mem
  have hp' := mem_rowFrom hne (mem_row_of_arrival hwrap harrivals hp)
  have hq' := mem_rowFrom hne (mem_row_of_arrival hwrap harrivals hq)
  obtain ⟨last, hlast, hend⟩ := @getLast_rowFrom base segments hsegments
  have hlast' := hmem last (List.mem_of_getLast? hlast)
  obtain ⟨g, rest, rfl⟩ := List.exists_cons_of_ne_nil hsegments
  have hfirst := hmem (base, base + g.data.length) List.mem_cons_self
  dsimp only at hp' hq' hfirst
  omega

end Arrivals

lemma reachesEnd_eq {s : Stream} (hlast : s.lastSeq = 0) (n : Nat) :
    s.reachesEnd s.maxNextSeq n = decide (n = s.maxNextSeq) := by
  rw [Stream.reachesEnd, hlast]
  by_cases h : n = s.maxNextSeq
  · simp [h]
  · simp [h]

section Ok
variable {cfg : StreamConfig} (hzero : cfg.ignoreZeroData = false)
  (hattempts : 0 ≤ cfg.maxReassemblyAttempts) {base : Nat} {segments : List Segment}
  (hsegments : segments ≠ []) (hne : ∀ g ∈ segments, g.data ≠ [])
  (hcount : segments.length ≤ 500) (hbase : 1 ≤ base) (hlen : (joined segments).length < 2 ^ 31)
  (hwrap : base + (joined segments).length < 2 ^ 32) {arrivals : List StreamPacket}
  (harrivals : ∀ p, p ∈ arrivals ↔ p ∈ packetsFrom base segments) {fuel : Nat}
  (hfuel : segments.length ≤ fuel)
include hsegments harrivals

omit hsegments in
lemma arrivals_ne_nil (hsegments : segments ≠ []) : arrivals ≠ [] := by
  obtain ⟨g, rest, rfl⟩ := List.exists_cons_of_ne_nil hsegments
  exact List.ne_nil_of_mem ((harrivals _).mpr List.mem_cons_self)

include hzero hattempts hne hcount hbase hlen hwrap hfuel

lemma ok_arrivals (toDest : Bool) (ack : Nat) {s : Stream}
    (hs : s = pushAll cfg (.new ack toDest) arrivals) :
    ∃ s' seq, s.ok cfg fuel s.maxNextSeq s.minSeq true = some (true, s') ∧
      s'.completeData = some ⟨joined segments, seq⟩ := by
  have hcarries : ∀ p ∈ arrivals, Carries base (joined segments) p :=
    fun p hp => carries_arrivals hne hwrap harrivals hp
  have harr := arrivals_ne_nil harrivals hsegments
  have hqueued : Queued arrivals s := by
    rw [hs]
    exact (queued_new ack toDest).pushAll cfg arrivals
  have hunchecked : Unchecked s := by
    rw [hs]
    exact unchecked_pushAll ⟨rfl, rfl, rfl, rfl, rfl⟩ cfg arrivals
  have hbounded : Bounded arrivals s := by
    rw [hs]
    exact @bounded_new base (base + (joined segments).length) hbase (by omega) arrivals harr
      (fun p hp => (hcarries p hp).inside) cfg ack toDest
  obtain ⟨hmin, hmax⟩ := bounds_arrivals hne hwrap harrivals hbounded hsegments
  have hwalk := hqueued.walkable hcarries
  have hlayout := layout_arrivals hne hwrap harrivals hqueued
  obtain ⟨q, hqlast, hqend⟩ := @getLast_rowFrom base segments hsegments
  obtain ⟨pre, hrow⟩ : ∃ pre, rowFrom base segments = pre ++ [q] :=
    ⟨_, (List.dropLast_append_getLast? q hqlast).symm⟩
  have hprelen : pre.length + 1 = segments.length := by
    rw [← length_rowFrom base segments, hrow, List.length_append, List.length_singleton]
  have hpresent : ∀ r ∈ rowFrom base segments, (s.getPacket r.1 r.2).isSome := by
    intro r hr
    rw [rowFrom_eq hwrap] at hr
    obtain ⟨p, hp, rfl⟩ := List.mem_map.mp hr
    exact hqueued.present p ((harrivals p).mpr hp)
  have hpre : ∀ r ∈ pre, s.reachesEnd s.maxNextSeq r.2 = false := by
    intro r hr
    have hpair := @pairwise_rowFrom base segments hne
    rw [hrow] at hpair
    have hle := (List.pairwise_append.mp hpair).2.2 r hr q (by simp)
    have hq := mem_rowFrom hne (List.mem_of_getLast? hqlast)
    rw [reachesEnd_eq hunchecked.lastSeq, decide_eq_false_iff_not]
    omega
  have hgives : ∀ r ∈ pre ++ [q], ∀ isFirst,
      Stream.Gives cfg s isFirst r (Stream.bytesAt base (joined segments) r) := by
    intro r hr isFirst
    exact (hqueued.gives hcarries hzero (hpresent r (by rw [hrow]; exact hr)) isFirst).2
  obtain ⟨g, rest, hg⟩ := List.exists_cons_of_ne_nil hsegments
  have hhead : (pre ++ [q]).head? = some (base, base + g.data.length) := by
    rw [← hrow, hg]
    rfl
  obtain ⟨vars, seq, -, hok⟩ := @Stream.ok_straight cfg fuel s.maxNextSeq s.minSeq s
    (Stream.bytesAt base (joined segments)) pre [] q hunchecked.isOk
    (by rw [hunchecked.counterTryOk]; exact hattempts) hunchecked.completeData hwalk
    (by rw [hlayout, hrow]) hunchecked.firstSeq
    (by
      intro r hr
      rw [hhead, Option.mem_some_iff] at hr
      rw [← hr, hmin, if_pos (by omega)])
    (by rw [← hrow]; exact chain_rowFrom base segments) hpre
    (by rw [reachesEnd_eq hunchecked.lastSeq, hqend, hmax, decide_eq_true rfl])
    (fun r hr => hgives r (List.mem_of_mem_head? hr) true)
    (fun r hr => hgives r (List.mem_of_mem_tail hr) false) (by omega) (by omega)
  refine ⟨_, seq, hok, ?_⟩
  rw [← hrow, rowBytes_rowFrom hsegments hne]

end Ok

/-- Segments of a byte string that come in any order and any number of times are put together. -/
theorem ok_segments_any_order (cfg : StreamConfig) (hzero : cfg.ignoreZeroData = false)
    (hattempts : 0 ≤ cfg.maxReassemblyAttempts) (toDest : Bool) (ack base : Nat)
    (segments : List Segment) (hsegments : segments ≠ []) (hne : ∀ g ∈ segments, g.data ≠ [])
    (hcount : segments.length ≤ 500) (hbase : 1 ≤ base) (hlen : (joined segments).length < 2 ^ 31)
    (hwrap : base + (joined segments).length < 2 ^ 32) (arrivals : List StreamPacket)
    (harrivals : ∀ p, p ∈ arrivals ↔ p ∈ packetsFrom base segments) (fuel : Nat)
    (hfuel : segments.length ≤ fuel) :
    ∃ l s s', Link.pushpackets cfg toDest ack arrivals .new = some l ∧
      SortedMap.get ack l.queueByAck = some 0 ∧ l.stream 0 = some s ∧
      s.ok cfg fuel s.maxNextSeq s.minSeq true = some (true, s') ∧
      s'.getData = joined segments := by
  have harr := arrivals_ne_nil harrivals hsegments
  obtain ⟨s', seq, hok, hdata⟩ := ok_arrivals hzero hattempts hsegments hne hcount hbase hlen hwrap
    harrivals hfuel toDest ack rfl
  refine ⟨_, _, s', Link.pushpackets_new cfg toDest ack harr, ?_, rfl, hok, ?_⟩
  · simp [Link.single, SortedMap.get]
  · rw [Stream.getData, hdata]
    rfl

theorem ok_segments_any_order_example :
    ∃ l s s', Link.pushpackets ⟨1, true, false, 50, 0⟩ true 7
        [.setData 3 true [84] 1 false, .setData 1 false [71, 69] 2 false,
          .setData 3 true [84] 1 false] .new = some l ∧
      SortedMap.get 7 l.queueByAck = some 0 ∧ l.stream 0 = some s ∧
      s.ok ⟨1, true, false, 50, 0⟩ 2 s.maxNextSeq s.minSeq true = some (true, s') ∧
      s'.getData = joined [⟨[71, 69], false, false⟩, ⟨[84], true, false⟩] := by
  refine ok_segments_any_order ⟨1, true, false, 50, 0⟩ rfl (by decide) true 7 1
    [⟨[71, 69], false, false⟩, ⟨[84], true, false⟩] (by simp) ?_ (by decide) (by decide)
    (by decide) (by decide) _ ?_ 2 (by decide)
  · intro g hg
    fin_cases hg <;> simp
  · intro p
    simp only [packetsFrom, List.mem_cons, List.not_mem_nil, or_false, List.length_cons,
      List.length_nil]
    constructor
    · rintro (h | h | h)
      · exact .inr h
      · exact .inl h
      · exact .inr h
    · rintro (h | h)
      · exact .inr (.inl h)
      · exact .inl h

end VoipMonitor.Tcp
