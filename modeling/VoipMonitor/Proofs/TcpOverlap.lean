import VoipMonitor.Proofs.TcpSearch

/-!
# Segments that overlap

Segments of one byte string may be cut in several ways. The data of the row that `ok` finds are
bytes of the string without a gap exactly when no packet of the row ends within the one before it,
and none begins behind the end of that one.
-/

namespace VoipMonitor.Tcp
open VoipMonitor.Library

namespace Stream

/-! ## Rows that do not follow -/

section Mismatch
variable {base : Nat} {D : Bytes}

lemma head_rowBytes {p : Nat × Nat} {row : List (Nat × Nat)}
    (hinside : ∀ q ∈ p :: row, Inside base D q)
    (hrow : (p :: row).IsChain (fun p q => p.1 < q.1)) :
    (rowBytes (bytesAt base D) (p :: row)).head? = D[p.1 - base]? := by
  have hp := hinside p List.mem_cons_self
  have hlen := length_bytesAt hp
  unfold Inside at hp
  have hhead : (bytesAt base D p).head? = D[p.1 - base]? := by
    rw [bytesAt, part, slice, List.head?_take, if_neg (by omega), List.head?_drop]
  cases row with
  | nil => exact hhead
  | cons q row =>
    have hpq := (List.isChain_cons_cons.mp hrow).1
    have hov : overlap p q < p.2 - p.1 := by
      rw [overlap]
      split <;> omega
    rw [rowBytes, List.head?_append, List.head?_take, if_neg (by omega), hhead,
      List.getElem?_eq_getElem (by omega)]
    rfl

lemma rowBytes_of_not_follows (total : Nat) {p : Nat × Nat} {row : List (Nat × Nat)}
    (hinside : ∀ q ∈ p :: row, base ≤ q.1 ∧ q.1 < q.2 ∧ q.2 ≤ base + total)
    (hrow : (p :: row).IsChain (fun p q => p.1 < q.1)) (hnot : ¬(p :: row).IsChain Follows) :
    ∃ x y, x ≠ y ∧ y < total ∧ p.1 - base ≤ x ∧ x ≤ total ∧ ∀ D : Bytes, D.length = total →
      ∃ rest, rowBytes (bytesAt base D) (p :: row) = part D (p.1 - base) x ++ rest ∧
        rest.head? = D[y]? := by
  induction row generalizing p with
  | nil => exact absurd (List.isChain_singleton p) hnot
  | cons q row ih =>
    obtain ⟨hpq, hchain⟩ := List.isChain_cons_cons.mp hrow
    have hp := hinside p List.mem_cons_self
    have hq := hinside q (by simp)
    have hrest : ∀ r ∈ q :: row, base ≤ r.1 ∧ r.1 < r.2 ∧ r.2 ≤ base + total :=
      fun r hr => hinside r (List.mem_cons_of_mem _ hr)
    by_cases hfollows : Follows p q
    · have hnot' : ¬(q :: row).IsChain Follows :=
        fun h => hnot (List.isChain_cons_cons.mpr ⟨hfollows, h⟩)
      obtain ⟨x, y, hxy, hy, hx, hxt, hall⟩ := ih hrest hchain hnot'
      refine ⟨x, y, hxy, hy, by omega, hxt, ?_⟩
      intro D hD
      obtain ⟨rest, hdata, hhead⟩ := hall D hD
      refine ⟨rest, ?_, hhead⟩
      have hpin : Inside base D p := by
        unfold Inside
        omega
      rw [rowBytes, take_bytesAt hpin hfollows, hdata, ← List.append_assoc,
        part_append (by omega) hx]
    · have hov : overlap p q = 0 := by
        rw [overlap, if_neg]
        intro h
        exact hfollows (.inr ⟨hpq.le, h⟩)
      have hne : q.1 ≠ p.2 := fun h => hfollows (.inl h)
      refine ⟨p.2 - base, q.1 - base, by omega, by omega, by omega, by omega, ?_⟩
      intro D hD
      refine ⟨rowBytes (bytesAt base D) (q :: row), ?_, ?_⟩
      · rw [rowBytes, hov, Nat.sub_zero, List.take_length]
        rfl
      · refine head_rowBytes ?_ hchain
        intro r hr
        unfold Inside
        rw [hD]
        exact hrest r hr

def marked (total y : Nat) : Bytes := (List.range total).map (fun i => if i = y then 1 else 0)

lemma getElem_marked {total y i : Nat} (hi : i < total) :
    (marked total y)[i]? = some (if i = y then 1 else 0) := by
  rw [marked, List.getElem?_map, List.getElem?_range hi]
  rfl

lemma exists_rowBytes_ne (total : Nat) {p : Nat × Nat} {row : List (Nat × Nat)}
    (hinside : ∀ q ∈ p :: row, base ≤ q.1 ∧ q.1 < q.2 ∧ q.2 ≤ base + total)
    (hrow : (p :: row).IsChain (fun p q => p.1 < q.1)) (hnot : ¬(p :: row).IsChain Follows)
    {z : Nat} (hz : z ≤ total) :
    ∃ D : Bytes, D.length = total ∧
      rowBytes (bytesAt base D) (p :: row) ≠ part D (p.1 - base) z := by
  obtain ⟨x, y, hxy, hy, hx, hxt, hall⟩ := rowBytes_of_not_follows total hinside hrow hnot
  have hlen : (marked total y).length = total := by simp [marked]
  refine ⟨marked total y, hlen, ?_⟩
  intro heq
  obtain ⟨rest, hdata, hhead⟩ := hall _ hlen
  rw [getElem_marked hy, if_pos rfl] at hhead
  rw [hdata] at heq
  rcases Nat.lt_or_ge x z with hxz | hzx
  · rw [← part_append hx hxz.le, List.append_cancel_left_eq] at heq
    rw [heq, part, slice, List.head?_take, if_neg (by omega), List.head?_drop,
      getElem_marked (by omega), if_neg hxy] at hhead
    cases hhead
  · have hlens := congrArg List.length heq
    have hpos : 0 < rest.length := by
      cases rest with
      | nil => cases hhead
      | cons b rest => exact Nat.succ_pos _
    rw [List.length_append, length_part hx (by omega)] at hlens
    have hle : (part (marked total y) (p.1 - base) z).length ≤ z - (p.1 - base) := by
      rw [part, slice]
      exact List.length_take_le _ _
    omega

end Mismatch

end Stream

/-! ## The shape of a stream -/

def insertEnd (n : Nat) (ends : List Nat) : List Nat :=
  if n ∈ ends then ends else ends.orderedInsert (· < ·) n

/-- What a packet at this place does to the shape of a stream. -/
def Shape.push (sh : Shape) (p : Nat × Nat) : Shape where
  layout := SortedMap.set seqLt p.1 (insertEnd p.2 ((SortedMap.get p.1 sh.layout).getD [])) sh.layout
  minSeq := if sh.minSeq = 0 ∨ seqCmp p.1 sh.minSeq < 0 then p.1 else sh.minSeq
  maxNextSeq := if sh.maxNextSeq = 0 ∨ seqCmp p.2 sh.maxNextSeq > 0 then p.2 else sh.maxNextSeq

def shapeOf (places : List (Nat × Nat)) : Shape := places.foldl Shape.push ⟨[], 0, 0⟩

lemma keys_set {n : Nat} {p : StreamPacket} {m : List (Nat × StreamPacket)}
    (h : SortedMap.Sorted seqLt m) :
    (SortedMap.set seqLt n p m).map (fun q => q.1) = insertEnd n (m.map (fun q => q.1)) := by
  induction m with
  | nil => rfl
  | cons e m ih =>
    obtain ⟨hhead, hrest⟩ := List.pairwise_cons.mp h
    have ih := ih hrest
    rw [SortedMap.set]
    by_cases he : e.1 = n
    · rw [if_pos he, insertEnd, if_pos (by rw [List.map_cons, he]; exact List.mem_cons_self),
        List.map_cons, List.map_cons, he]
    · rw [if_neg he]
      by_cases hlt : n < e.1
      · -- the end would come behind a greater one
        have hnot : n ∉ m.map (fun q => q.1) := by
          intro hmem
          obtain ⟨q, hq, hqn⟩ := List.mem_map.mp hmem
          have hlt' := hhead q hq
          rw [seqLt, decide_eq_true_eq] at hlt'
          omega
        have hset : seqLt n e.1 = true := decide_eq_true hlt
        rw [if_pos hset, insertEnd, if_neg, List.map_cons, List.map_cons,
          List.orderedInsert_cons, if_pos hlt]
        rw [List.map_cons, List.mem_cons]
        rintro (h | h)
        · exact he h.symm
        · exact hnot h
      · rw [if_neg (by rw [seqLt]; simpa using hlt), List.map_cons, ih, List.map_cons, insertEnd,
          insertEnd, List.orderedInsert_cons, if_neg hlt]
        by_cases hmem : n ∈ m.map (fun q => q.1)
        · rw [if_pos hmem, if_pos (List.mem_cons_of_mem _ hmem)]
        · rw [if_neg hmem, if_neg]
          intro h
          rcases List.mem_cons.mp h with h | h
          · exact he h.symm
          · exact hmem h

lemma keys_push {v : PacketVar} (p : StreamPacket)
    (h : SortedMap.Sorted seqLt v.queuePackets) :
    (v.push p).queuePackets.map (fun q => q.1) =
      insertEnd p.nextSeq (v.queuePackets.map (fun q => q.1)) := by
  rcases v.push_cases p with hpush | ⟨hpush, hsome⟩
  · rw [hpush]
    exact keys_set h
  · obtain ⟨q, hq⟩ := Option.isSome_iff_exists.mp hsome
    rw [hpush, insertEnd, if_pos (List.mem_map.mpr ⟨_, SortedMap.mem_of_get hq, rfl⟩)]

lemma shape_push {pushed : List StreamPacket} {s : Stream} (h : Queued pushed s)
    (cfg : StreamConfig) (p : StreamPacket) :
    ((s.push cfg p).moveBounds p).shape = s.shape.push (p.seq, p.nextSeq) := by
  obtain ⟨hmin, hmax⟩ := Stream.push_minSeq cfg s p
  have hlayout : Stream.layout ((s.push cfg p).moveBounds p).queuePacketVars =
      (s.shape.push (p.seq, p.nextSeq)).layout := by
    rw [Stream.push_vars, Stream.layout,
      SortedMap.map_set seqLt (fun v : PacketVar => v.queuePackets.map (fun q => q.1)),
      ← Stream.layout, Shape.push, Stream.shape]
    rw [Stream.get_layout]
    congr 1
    cases hget : SortedMap.get p.seq s.queuePacketVars with
    | none => exact keys_push p List.Pairwise.nil
    | some v => exact keys_push p (h.vars p.seq v hget).sorted
  rw [Stream.shape, hlayout, hmin, hmax]
  rfl

lemma shape_pushAll {pushed packets : List StreamPacket} {s : Stream} (h : Queued pushed s)
    (cfg : StreamConfig) :
    (pushAll cfg s packets).shape =
      (packets.map (fun p => (p.seq, p.nextSeq))).foldl Shape.push s.shape := by
  induction packets generalizing pushed s with
  | nil => rfl
  | cons p packets ih =>
    rw [List.map_cons, List.foldl_cons, ← shape_push h cfg p]
    exact ih (h.push cfg p)

/-! ## Pieces of a byte string -/

/-- A segment that carries the bytes from `seq` to `nextSeq`. -/
structure Piece where
  seq : Nat
  nextSeq : Nat
  psh : Bool
  isSip : Bool

def Piece.packet (base : Nat) (D : Bytes) (c : Piece) : StreamPacket :=
  .setData c.seq c.psh (Stream.bytesAt base D (c.seq, c.nextSeq)) (c.nextSeq - c.seq) c.isSip

/-- The pieces lie within a byte string of this length. -/
def Piece.Within (base total : Nat) (c : Piece) : Prop :=
  base ≤ c.seq ∧ c.seq < c.nextSeq ∧ c.nextSeq ≤ base + total

/-- `ok` of the stream after the pieces were pushed to a new link. -/
def okPieces (cfg : StreamConfig) (fuel : Nat) (toDest : Bool) (ack base : Nat)
    (pieces : List Piece) (D : Bytes) : Option (Bool × Stream) :=
  (Link.pushpackets cfg toDest ack (pieces.map (Piece.packet base D)) .new).bind (fun l =>
    (l.stream 0).bind (fun s => s.ok cfg fuel s.maxNextSeq s.minSeq true))

lemma okPieces_eq (cfg : StreamConfig) (fuel : Nat) (toDest : Bool) (ack base : Nat)
    {pieces : List Piece} (hne : pieces ≠ []) (D : Bytes) {s : Stream}
    (hs : s = pushAll cfg (.new ack toDest) (pieces.map (Piece.packet base D))) :
    okPieces cfg fuel toDest ack base pieces D = s.ok cfg fuel s.maxNextSeq s.minSeq true := by
  have hpackets : pieces.map (Piece.packet base D) ≠ [] := by simpa using hne
  have hstream : (Link.single ack s).stream 0 = some s := rfl
  rw [okPieces, Link.pushpackets_new cfg toDest ack hpackets, Option.bind_some, ← hs, hstream,
    Option.bind_some]

section Pieces
variable {base total : Nat} {D : Bytes} {pieces : List Piece}
  (hwrap : base + total < 2 ^ 32) (hD : D.length = total)
  (hpieces : ∀ c ∈ pieces, c.Within base total)
include hwrap hD hpieces

lemma carries_pieces {p : StreamPacket} (hp : p ∈ pieces.map (Piece.packet base D)) :
    Carries base D p := by
  obtain ⟨c, hc, rfl⟩ := List.mem_map.mp hp
  have hwithin := hpieces c hc
  unfold Piece.Within at hwithin
  have hnext : (c.packet base D).nextSeq = c.nextSeq := by
    rw [Piece.packet, StreamPacket.setData, add32_eq (by omega)]
    dsimp only
    omega
  refine ⟨?_, ?_, ?_⟩
  · rw [hnext]
    unfold Stream.Inside
    rw [hD]
    exact hwithin
  · rw [hnext]
    rfl
  · rw [hnext]
    rfl

lemma places_pieces : (pieces.map (Piece.packet base D)).map (fun p => (p.seq, p.nextSeq)) =
    pieces.map (fun c => (c.seq, c.nextSeq)) := by
  rw [List.map_map]
  refine List.map_congr_left ?_
  intro c hc
  have hwithin := hpieces c hc
  unfold Piece.Within at hwithin
  have hnext : (c.packet base D).nextSeq = c.nextSeq := by
    rw [Piece.packet, StreamPacket.setData, add32_eq (by omega)]
    dsimp only
    omega
  exact Prod.ext rfl hnext

lemma okPieces_data {cfg : StreamConfig} (hzero : cfg.ignoreZeroData = false) {fuel ack : Nat}
    {toDest : Bool} {s' : Stream} {d : CompleteData} (hne : pieces ≠ [])
    (hok : okPieces cfg fuel toDest ack base pieces D = some (true, s'))
    (hdata : s'.completeData = some d) :
    ∃ p row sh, sh = shapeOf (pieces.map (fun c => (c.seq, c.nextSeq))) ∧
      sh.Begins cfg.completeMod cfg.mapEnd sh.minSeq [] p ∧
      sh.Route cfg.completeMod p (p :: row) ∧ s'.okPackets = p :: row ∧
      (∀ q ∈ p :: row, Stream.Inside base D q) ∧
      (p :: row).IsChain (fun p q => p.1 < q.1) ∧
      d.data = Stream.rowBytes (Stream.bytesAt base D) (p :: row) := by
  have hcarries : ∀ p ∈ pieces.map (Piece.packet base D), Carries base D p :=
    fun p hp => carries_pieces hwrap hD hpieces hp
  have hqueued := (queued_new ack toDest).pushAll cfg (pieces.map (Piece.packet base D))
  have hunchecked : Unchecked (pushAll cfg (.new ack toDest) (pieces.map (Piece.packet base D))) :=
    unchecked_pushAll ⟨rfl, rfl, rfl, rfl, rfl⟩ cfg _
  have hshape := @shape_pushAll [] (pieces.map (Piece.packet base D)) _ (queued_new ack toDest) cfg
  rw [places_pieces hwrap hD hpieces] at hshape
  rw [List.nil_append] at hqueued
  rw [okPieces_eq cfg fuel toDest ack base hne D rfl] at hok
  generalize pushAll cfg (.new ack toDest) (pieces.map (Piece.packet base D)) = s
    at hqueued hunchecked hshape hok
  have hwalk := hqueued.walkable hcarries
  have hfound := Stream.ok_found hunchecked hwalk hok (by rw [hdata]; simp)
  generalize hs₀ : ({ s with
    counterTryOk := s.counterTryOk + 1
    queuePacketVars := Stream.cleared s.queuePacketVars
    okPackets := [] } : Stream) = s₀ at hfound
  have hshape₀ : s₀.shape = shapeOf (pieces.map (fun c => (c.seq, c.nextSeq))) := by
    rw [shapeOf, ← hs₀]
    refine Eq.trans ?_ hshape
    rw [Stream.shape, Stream.shape]
    rw [Stream.layout_cleared]
  obtain ⟨s'', p, ⟨vars, row, rfl, hvars⟩, hhead, hroute, hbegins, hpresent, hsave⟩ := hfound
  have hcleared : Stream.cleared vars = Stream.cleared s.queuePacketVars := by
    rw [hvars, ← hs₀]
    exact Stream.cleared_cleared _
  have hgives : ∀ q ∈ row, ∀ isFirst, Stream.Inside base D q ∧
      Stream.Gives cfg s isFirst q (Stream.bytesAt base D q) := by
    intro q hq isFirst
    refine hqueued.gives hcarries hzero ?_ isFirst
    have hsome := hpresent q hq
    rw [← Option.isSome_map, ← Stream.packetAt_cleared, hcleared, Stream.packetAt_cleared,
      Option.isSome_map] at hsome
    exact hsome
  obtain ⟨rest, rfl⟩ : ∃ rest, row = p :: rest := List.head?_eq_some_iff.mp hhead
  have hinside : ∀ q ∈ p :: rest, Stream.Inside base D q := fun q hq => (hgives q hq true).1
  have hlt : (p :: rest).IsChain (fun p q => p.1 < q.1) := by
    refine List.IsChain.imp_of_mem_imp ?_ (FirstPath.Route.isChain hroute).2
    intro q r hq _ hr
    exact Stream.fst_lt_of_mem_candidates (hinside q hq).2.1 hr
  have hover : (p :: rest).IsChain
      (fun p q => Stream.overlap p q ≤ (Stream.bytesAt base D p).length) := by
    refine List.IsChain.imp_of_mem_imp ?_ hlt
    intro q r hq _ hqr
    rw [Stream.length_bytesAt (hinside q hq), Stream.overlap]
    split <;> omega
  obtain ⟨seq, index, hsave', -⟩ := @Stream.saveCompleteData_row cfg
    { s₀ with queuePacketVars := vars, okPackets := p :: rest, isOk := true }
    (Stream.bytesAt base D) p rest rfl (by rw [← hs₀]; exact hunchecked.completeData) rfl
    ((hgives p List.mem_cons_self true).2.of_cleared hcleared)
    (fun q hq => (hgives q (List.mem_cons_of_mem _ hq) false).2.of_cleared hcleared) hover
  rw [hsave'] at hsave
  obtain rfl := Option.some.inj hsave
  refine ⟨p, rest, s₀.shape, hshape₀, hbegins, hroute, rfl, hinside, hlt, ?_⟩
  exact congrArg CompleteData.data (Option.some.inj hdata).symm

end Pieces

/-- `ok` returns 1 with data for the pieces of `D`. -/
def ReturnsData (cfg : StreamConfig) (fuel : Nat) (toDest : Bool) (ack base : Nat)
    (pieces : List Piece) (D : Bytes) : Prop :=
  ∃ s' d, okPieces cfg fuel toDest ack base pieces D = some (true, s') ∧ s'.completeData = some d

/-- The data are those of `D` from the begin of the first packet of the row to the end of the last
one. -/
def DataAreSound (cfg : StreamConfig) (fuel : Nat) (toDest : Bool) (ack base : Nat)
    (pieces : List Piece) (D : Bytes) : Prop :=
  ∀ s' d, okPieces cfg fuel toDest ack base pieces D = some (true, s') →
    s'.completeData = some d → ∃ first last, s'.okPackets.head? = some first ∧
      s'.okPackets.getLast? = some last ∧ d.data = part D (first.1 - base) (last.2 - base)

/-- The packets of the first row each begin at the end of the one before, or within it and end
behind it. -/
def FirstRowFollows (completeMod mapEnd : Nat) (places : List (Nat × Nat)) : Prop :=
  ∀ p row, (shapeOf places).Begins completeMod mapEnd (shapeOf places).minSeq [] p →
    (shapeOf places).Route completeMod p row → row.IsChain Stream.Follows

/-- For pieces at given places the data are sound, whatever the bytes are, exactly when the packets
of the first row follow one another. -/
theorem okPieces_sound_iff (cfg : StreamConfig) (hzero : cfg.ignoreZeroData = false) (fuel : Nat)
    (toDest : Bool) (ack base total : Nat) (hwrap : base + total < 2 ^ 32) (pieces : List Piece)
    (hpieces : ∀ c ∈ pieces, c.Within base total)
    (hreturns : ∀ D : Bytes, D.length = total → ReturnsData cfg fuel toDest ack base pieces D) :
    (∀ D : Bytes, D.length = total → DataAreSound cfg fuel toDest ack base pieces D) ↔
      FirstRowFollows cfg.completeMod cfg.mapEnd (pieces.map (fun c => (c.seq, c.nextSeq))) := by
  have hne : pieces ≠ [] := by
    rintro rfl
    obtain ⟨s', d, hok, -⟩ := hreturns (List.replicate total 0) (List.length_replicate)
    cases hok
  constructor
  · intro hsound p row hbegins hroute
    by_contra hnot
    have hplaces : ∀ D : Bytes, D.length = total → ∃ s' d rest, row = p :: rest ∧
        okPieces cfg fuel toDest ack base pieces D = some (true, s') ∧ s'.completeData = some d ∧
        s'.okPackets = row ∧ (∀ q ∈ row, Stream.Inside base D q) ∧
        row.IsChain (fun p q => p.1 < q.1) ∧
        d.data = Stream.rowBytes (Stream.bytesAt base D) row := by
      intro D hD
      obtain ⟨s', d, hok, hdata⟩ := hreturns D hD
      obtain ⟨p', rest, sh, rfl, hbegins', hroute', hrow, hinside, hlt, hd⟩ :=
        okPieces_data hwrap hD hpieces hzero hne hok hdata
      obtain rfl := hbegins.unique hbegins'
      obtain rfl := FirstPath.Route.unique hroute hroute'
      exact ⟨s', d, rest, rfl, hok, hdata, hrow, hinside, hlt, hd⟩
    -- some bytes show that a packet of the row does not follow the one before
    obtain ⟨-, -, rest, rfl, -, -, -, hinside, hlt, -⟩ :=
      hplaces (List.replicate total 0) (List.length_replicate)
    simp only [Stream.Inside, List.length_replicate] at hinside
    obtain ⟨last, hlast⟩ : ∃ last, (p :: rest).getLast? = some last :=
      ⟨_, List.getLast?_eq_getLast_of_ne_nil (List.cons_ne_nil p rest)⟩
    have hlast' := hinside last (List.mem_of_getLast? hlast)
    obtain ⟨D, hD, hdiff⟩ := @Stream.exists_rowBytes_ne base total p rest hinside hlt hnot
      (last.2 - base) (by omega)
    obtain ⟨s', d, -, -, hok, hdata, hrow, -, -, hd⟩ := hplaces D hD
    obtain ⟨first, last', hfirst, hlast'', heq⟩ := hsound D hD s' d hok hdata
    rw [hrow] at hfirst hlast''
    obtain rfl := Option.some.inj hfirst
    obtain rfl := Option.some.inj (hlast.symm.trans hlast'')
    exact hdiff (hd.symm.trans heq)
  · intro hfollows D hD s' d hok hdata
    obtain ⟨p, rest, sh, rfl, hbegins, hroute, hrow, hinside, -, hd⟩ :=
      okPieces_data hwrap hD hpieces hzero hne hok hdata
    obtain ⟨last, hlast⟩ : ∃ last, (p :: rest).getLast? = some last :=
      ⟨_, List.getLast?_eq_getLast_of_ne_nil (List.cons_ne_nil p rest)⟩
    refine ⟨p, last, by rw [hrow]; rfl, by rw [hrow]; exact hlast, ?_⟩
    rw [hd]
    exact (Stream.rowBytes_of_follows hinside (hfollows p _ hbegins hroute) last hlast).2

theorem okPieces_sound_iff_example :
    (∀ D : Bytes, D.length = 3 → ReturnsData ⟨0, true, false, 50, 0⟩ 5 true 7 1
      [⟨3, 4, true, false⟩, ⟨1, 3, false, false⟩] D) ∧
    ((∀ D : Bytes, D.length = 3 → DataAreSound ⟨0, true, false, 50, 0⟩ 5 true 7 1
      [⟨3, 4, true, false⟩, ⟨1, 3, false, false⟩] D) ↔ FirstRowFollows 0 0 [(3, 4), (1, 3)]) := by
  have hreturns : ∀ D : Bytes, D.length = 3 → ReturnsData ⟨0, true, false, 50, 0⟩ 5 true 7 1
      [⟨3, 4, true, false⟩, ⟨1, 3, false, false⟩] D := by
    intro D hD
    obtain ⟨a, b, c, rfl⟩ := List.length_eq_three.mp hD
    obtain ⟨s', seq, hok, hdata⟩ := @ok_arrivals ⟨0, true, false, 50, 0⟩ rfl (by decide) 1
      [⟨[a, b], false, false⟩, ⟨[c], true, false⟩] (by simp)
      (by intro g hg; fin_cases hg <;> simp) (by simp) (by decide) (by simp [joined])
      (by simp [joined])
      ([(⟨3, 4, true, false⟩ : Piece), ⟨1, 3, false, false⟩].map (Piece.packet 1 [a, b, c]))
      (by
        intro p
        simp only [List.map_cons, List.map_nil, List.mem_cons, List.not_mem_nil, or_false,
          packetsFrom]
        exact or_comm) 5 (by simp) true 7 _ rfl
    refine ⟨s', _, ?_, hdata⟩
    rw [okPieces_eq _ _ _ _ _ (by simp) _ rfl]
    exact hok
  refine ⟨hreturns, okPieces_sound_iff ⟨0, true, false, 50, 0⟩ rfl 5 true 7 1 3 (by decide)
    [⟨3, 4, true, false⟩, ⟨1, 3, false, false⟩] ?_ hreturns⟩
  intro c hc
  fin_cases hc <;> simp [Piece.Within]

/-- The second segment lies within the first one and the third begins at its end: the bytes of the
first one behind its begin are returned twice. -/
theorem okPieces_repeats_bytes :
    (∀ c ∈ [(⟨1, 5, false, false⟩ : Piece), ⟨2, 3, false, false⟩, ⟨3, 7, true, false⟩],
      c.Within 1 6) ∧
    ¬DataAreSound ⟨0, true, false, 50, 0⟩ 5 true 7 1
      [⟨1, 5, false, false⟩, ⟨2, 3, false, false⟩, ⟨3, 7, true, false⟩] [1, 2, 3, 4, 5, 6] := by
  refine ⟨?_, ?_⟩
  · intro c hc
    fin_cases hc <;> simp [Piece.Within]
  · intro hsound
    obtain ⟨s', d, hok, hdata, hd⟩ : ∃ s' d, okPieces ⟨0, true, false, 50, 0⟩ 5 true 7 1
        [⟨1, 5, false, false⟩, ⟨2, 3, false, false⟩, ⟨3, 7, true, false⟩] [1, 2, 3, 4, 5, 6] =
          some (true, s') ∧ s'.completeData = some d ∧ d.data = [1, 2, 3, 4, 2, 3, 4, 5, 6] :=
      ⟨_, _, rfl, rfl, rfl⟩
    obtain ⟨first, last, -, -, heq⟩ := hsound s' d hok hdata
    have hlen := congrArg List.length heq
    rw [hd, part, slice, List.length_take, List.length_drop] at hlen
    simp only [List.length_cons, List.length_nil] at hlen
    omega

end VoipMonitor.Tcp
