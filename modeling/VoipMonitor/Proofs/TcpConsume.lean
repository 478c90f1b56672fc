import VoipMonitor.Proofs.TcpOrder

/-!
# Confirmed bytes

Segments that come in their order are queued without gaps. The first of them may have an offset, up
to which its bytes were delivered. A check that confirms bytes behind the first segment, or bytes of
a first segment without an offset, moves the offset to the right place.
-/

namespace VoipMonitor.Tcp
open VoipMonitor.Library

/-! ## The queue -/

def queueVars (pos : Nat) : List (Segment × Nat) → PacketVars
  | [] => []
  | (g, offset) :: queue =>
    (pos, ⟨[(pos + g.data.length, .setData pos g.psh g.data g.data.length g.isSip)], offset⟩) ::
      queueVars (pos + g.data.length) queue

def unread (segments : List Segment) : List (Segment × Nat) := segments.map (fun g => (g, 0))

lemma joined_cons (g : Segment) (segments : List Segment) :
    joined (g :: segments) = g.data ++ joined segments := by
  rw [joined, List.map_cons, List.flatten_cons, ← joined]

lemma joined_append (a b : List Segment) : joined (a ++ b) = joined a ++ joined b := by
  rw [joined, List.map_append, List.flatten_append, ← joined, ← joined]

lemma queueVars_append (pos : Nat) (a b : List (Segment × Nat)) :
    queueVars pos (a ++ b) =
      queueVars pos a ++ queueVars (pos + (joined (a.map (fun x => x.1))).length) b := by
  induction a generalizing pos with
  | nil => rfl
  | cons x a ih =>
    rw [List.cons_append, queueVars, ih, List.map_cons, joined_cons, List.length_append,
      ← Nat.add_assoc]
    rfl

lemma layout_queueVars (pos : Nat) (queue : List (Segment × Nat)) :
    Stream.layout (queueVars pos queue) =
      Stream.straight (rowFrom pos (queue.map (fun x => x.1))) := by
  induction queue generalizing pos with
  | nil => rfl
  | cons x queue ih =>
    rw [queueVars, Stream.layout, List.map_cons, ← Stream.layout, ih]
    rfl

lemma cleared_queueVars (pos : Nat) (queue : List (Segment × Nat)) :
    Stream.cleared (queueVars pos queue) = queueVars pos queue := by
  induction queue generalizing pos with
  | nil => rfl
  | cons x queue ih =>
    rw [queueVars, Stream.cleared, List.map_cons, ← Stream.cleared, ih]
    rfl

lemma mem_queueVars {pos : Nat} {queue : List (Segment × Nat)} {e : Nat × PacketVar}
    (he : e ∈ queueVars pos queue) :
    ∃ x ∈ queue, pos ≤ e.1 ∧
      e.1 + x.1.data.length ≤ pos + (joined (queue.map (fun x => x.1))).length ∧
      e.2 = ⟨[(e.1 + x.1.data.length,
        .setData e.1 x.1.psh x.1.data x.1.data.length x.1.isSip)], x.2⟩ := by
  induction queue generalizing pos with
  | nil => cases he
  | cons x queue ih =>
    rw [List.map_cons, joined_cons, List.length_append]
    rcases List.mem_cons.mp he with rfl | he
    · exact ⟨x, List.mem_cons_self, le_rfl, by dsimp only; omega, rfl⟩
    · obtain ⟨y, hy, hle, hend, heq⟩ := ih he
      exact ⟨y, List.mem_cons_of_mem _ hy, by omega, by omega, heq⟩

section Queue
variable {pos : Nat} {queue : List (Segment × Nat)} (hne : ∀ x ∈ queue, x.1.data ≠ [])
include hne

lemma sorted_queueVars : SortedMap.Sorted seqLt (queueVars pos queue) := by
  induction queue generalizing pos with
  | nil => exact List.Pairwise.nil
  | cons x queue ih =>
    have hpos : 0 < x.1.data.length := List.length_pos_iff.mpr (hne x List.mem_cons_self)
    refine List.pairwise_cons.mpr ⟨?_, ih (fun y hy => hne y (List.mem_cons_of_mem _ hy))⟩
    intro e he
    obtain ⟨-, -, hle, -⟩ := mem_queueVars he
    rw [seqLt, decide_eq_true_eq]
    omega

lemma walkable_queueVars (hwrap : pos + (joined (queue.map (fun x => x.1))).length < 2 ^ 32) :
    Stream.Walkable (queueVars pos queue) := by
  refine ⟨sorted_queueVars hne, ?_, ?_⟩
  · intro e he
    obtain ⟨x, -, -, -, heq⟩ := mem_queueVars he
    rw [heq]
    exact List.pairwise_singleton _ _
  · intro e he q hq
    obtain ⟨x, hx, -, hend, heq⟩ := mem_queueVars he
    have hpos : 0 < x.1.data.length := List.length_pos_iff.mpr (hne x hx)
    rw [heq, List.mem_singleton] at hq
    rw [hq]
    refine ⟨by simp only [StreamPacket.setData]; omega, ?_, by dsimp only; omega⟩
    exact add32_eq (by omega)

end Queue

lemma walkable_of_cleared {vars : PacketVars} (h : Stream.Walkable (Stream.cleared vars)) :
    Stream.Walkable vars := by
  have hmem : ∀ e ∈ vars, (e.1, e.2.cleanState) ∈ Stream.cleared vars :=
    fun e he => List.mem_map.mpr ⟨e, he, rfl⟩
  refine ⟨List.pairwise_map.mp h.sorted, ?_, ?_⟩
  · intro e he
    exact List.pairwise_map.mp (h.varSorted _ (hmem e he))
  · intro e he q hq
    exact h.packet _ (hmem e he) (q.1, { q.2 with state := .na })
      (List.mem_map.mpr ⟨q, hq, rfl⟩)

lemma get_cleared (vars : PacketVars) (k : Nat) :
    SortedMap.get k (Stream.cleared vars) = (SortedMap.get k vars).map PacketVar.cleanState :=
  SortedMap.get_map (fun _ v => PacketVar.cleanState v) k vars

/-! ## A packet is pushed -/

section Push
variable {cfg : StreamConfig} {s : Stream} {pos : Nat} {queue : List (Segment × Nat)}
  (hvars : Stream.cleared s.queuePacketVars = queueVars pos queue)
include hvars

lemma push_next {g : Segment} {seq : Nat}
    (hne : ∀ x ∈ queue, x.1.data ≠ [])
    (hseq : seq = pos + (joined (queue.map (fun x => x.1))).length)
    (hwrap : seq + g.data.length < 2 ^ 32) :
    Stream.cleared ((s.push cfg (.setData seq g.psh g.data g.data.length g.isSip)).moveBounds
      (.setData seq g.psh g.data g.data.length g.isSip)).queuePacketVars =
        queueVars pos (queue ++ [(g, 0)]) := by
  have hlt : ∀ e ∈ queueVars pos queue, seqLt e.1 seq = true := by
    intro e he
    obtain ⟨x, hx, -, hend, -⟩ := mem_queueVars he
    have hpos : 0 < x.1.data.length := List.length_pos_iff.mpr (hne x hx)
    rw [seqLt, decide_eq_true_eq]
    omega
  have hnone : SortedMap.get seq s.queuePacketVars = none := by
    cases hget : SortedMap.get seq s.queuePacketVars with
    | none => rfl
    | some v =>
      have hget' : SortedMap.get seq (queueVars pos queue) = some v.cleanState := by
        rw [← hvars, get_cleared, hget]
        rfl
      have hself := hlt _ (SortedMap.mem_of_get hget')
      rw [seqLt, decide_eq_true_eq] at hself
      exact absurd hself (lt_irrefl _)
  rw [Stream.push_vars]
  have hseq' : (StreamPacket.setData seq g.psh g.data g.data.length g.isSip).seq = seq := rfl
  rw [hseq', hnone, Option.getD_none, Stream.cleared, SortedMap.map_set, ← Stream.cleared, hvars,
    SortedMap.set_of_lt hlt, queueVars_append, ← hseq, queueVars, queueVars]
  have hnext : (StreamPacket.setData seq g.psh g.data g.data.length g.isSip).nextSeq =
      seq + g.data.length := add32_eq hwrap
  have hpush : PacketVar.empty.push (.setData seq g.psh g.data g.data.length g.isSip) =
      ⟨[(seq + g.data.length, .setData seq g.psh g.data g.data.length g.isSip)], 0⟩ := by
    rw [← hnext]
    rfl
  rw [hpush]
  rfl

lemma push_queued {seq : Nat} {psh isSip : Bool} {v : PacketVar} {q : Nat × StreamPacket}
    (hne : ∀ x ∈ queue, x.1.data ≠ [])
    (hwrap : pos + (joined (queue.map (fun x => x.1))).length < 2 ^ 32)
    (hget : SortedMap.get seq s.queuePacketVars = some v) (hq : v.queuePackets.head? = some q) :
    ((s.push cfg (.setData seq psh q.2.data q.2.datalen isSip)).moveBounds
      (.setData seq psh q.2.data q.2.datalen isSip)).queuePacketVars = s.queuePacketVars := by
  have hget' : SortedMap.get seq (queueVars pos queue) = some v.cleanState := by
    rw [← hvars, get_cleared, hget]
    rfl
  obtain ⟨x, -, hle, hend, heq⟩ := mem_queueVars (SortedMap.mem_of_get hget')
  dsimp only at hle hend heq
  have hpackets := congrArg PacketVar.queuePackets heq
  rw [PacketVar.cleanState] at hpackets
  dsimp only at hpackets
  obtain ⟨l, hl⟩ := List.head?_eq_some_iff.mp hq
  rw [hl, List.map_cons, List.cons.injEq, List.map_eq_nil_iff] at hpackets
  obtain ⟨hhead, rfl⟩ := hpackets
  obtain ⟨hkey, hpacket⟩ := Prod.mk.inj hhead
  have hlen : q.2.datalen = x.1.data.length := (StreamPacket.mk.inj hpacket).2.2.2.2.1
  have hnext : (StreamPacket.setData seq psh q.2.data q.2.datalen isSip).nextSeq = q.1 := by
    rw [StreamPacket.setData, hlen, hkey]
    exact add32_eq (by omega)
  have hsame : v.push (.setData seq psh q.2.data q.2.datalen isSip) = v := by
    rw [PacketVar.push, hnext, hl, SortedMap.get, if_pos rfl]
    rw [if_neg]
    simp only [StreamPacket.setData, Bool.and_eq_true, decide_eq_true_eq]
    rintro ⟨⟨⟨-, hzero⟩, -⟩, hnot⟩
    exact of_decide_eq_true hnot hzero
  have hsorted : SortedMap.Sorted seqLt s.queuePacketVars := by
    have hs := @sorted_queueVars pos queue hne
    rw [← hvars] at hs
    exact List.pairwise_map.mp hs
  rw [Stream.push_vars]
  have hseq' : (StreamPacket.setData seq psh q.2.data q.2.datalen isSip).seq = seq := rfl
  rw [hseq', hget, Option.getD_some, hsame]
  exact hsorted.set_of_get hget

end Push

/-! ## The check -/

structure QueueOk (s : Stream) (pos : Nat) (g : Segment) (offset : Nat) (queue : List Segment) :
    Prop where
  vars : Stream.cleared s.queuePacketVars = queueVars pos ((g, offset) :: unread queue)
  minSeq : s.minSeq = pos
  firstSeq : s.firstSeq = 0
  lastSeq : s.lastSeq = 0
  offset_lt : offset < g.data.length
  ne_nil : ∀ x ∈ g :: queue, x.data ≠ []
  wrap : pos + (joined (g :: queue)).length < 2 ^ 32

lemma map_unread (queue : List Segment) : (unread queue).map (fun x => x.1) = queue := by
  rw [unread, List.map_map]
  exact List.map_id queue

def queueBytes (pos : Nat) (g : Segment) (offset : Nat) (queue : List Segment) (p : Nat × Nat) :
    Bytes :=
  if p.1 = pos then g.data.drop offset
  else Stream.bytesAt (pos + g.data.length) (joined queue) p

lemma entry_of_mem_rowFrom {pos : Nat} {segments : List Segment} {r : Nat × Nat}
    (hr : r ∈ rowFrom pos segments) :
    ∃ x ∈ segments, r.2 = r.1 + x.data.length ∧ x.data = Stream.bytesAt pos (joined segments) r ∧
      (r.1, ⟨[(r.2, .setData r.1 x.psh x.data x.data.length x.isSip)], 0⟩) ∈
        queueVars pos (unread segments) := by
  induction segments generalizing pos with
  | nil => cases hr
  | cons g segments ih =>
    rw [joined_cons]
    rcases List.mem_cons.mp hr with rfl | hr
    · refine ⟨g, List.mem_cons_self, rfl, ?_, List.mem_cons_self⟩
      rw [Stream.bytesAt, part]
      rw [Nat.sub_self, Nat.add_sub_cancel_left, Nat.sub_zero, slice_append_left (by omega), slice,
        List.drop_zero, List.take_length]
    · obtain ⟨x, hx, hend, hdata, hmem⟩ := ih hr
      refine ⟨x, List.mem_cons_of_mem _ hx, hend, ?_, List.mem_cons_of_mem _ hmem⟩
      obtain ⟨-, -, hle, -⟩ := mem_queueVars hmem
      rw [hdata, Stream.bytesAt, Stream.bytesAt, part, part,
        show r.1 - pos = g.data.length + (r.1 - (pos + g.data.length)) by omega, slice_append_right]
      congr 1
      omega

lemma packetBytes_first {s : Stream} {p : Nat × Nat} {packet : StreamPacket}
    (hlen : packet.datalen = packet.data.length)
    (hoffset : s.getPacketOffset p.1 < packet.data.length) :
    Stream.packetBytes s true p packet = packet.data.drop (s.getPacketOffset p.1) := by
  rw [Stream.packetBytes, hlen, Nat.min_self]
  generalize s.getPacketOffset p.1 = offset at hoffset
  have hcond : (if true = true ∧ 0 < offset ∧ offset < packet.data.length then offset else 0) =
      offset := by
    by_cases hpos : 0 < offset
    · rw [if_pos ⟨rfl, hpos, hoffset⟩]
    · rw [if_neg (fun h => hpos h.2.1)]
      omega
  rw [hcond, Nat.sub_self, List.replicate_zero, List.append_nil, slice]
  exact List.take_of_length_le (by rw [List.length_drop])

section Check
variable {cfg : StreamConfig} {s : Stream} {pos offset : Nat} {g : Segment} {queue : List Segment}
  (h : QueueOk s pos g offset queue)
include h

lemma QueueOk.ne_nil' : ∀ x ∈ (g, offset) :: unread queue, x.1.data ≠ [] := by
  intro x hx
  rcases List.mem_cons.mp hx with rfl | hx
  · exact h.ne_nil g List.mem_cons_self
  · obtain ⟨y, hy, rfl⟩ := List.mem_map.mp hx
    exact h.ne_nil y (List.mem_cons_of_mem _ hy)

lemma QueueOk.walkable : Stream.Walkable s.queuePacketVars := by
  refine walkable_of_cleared ?_
  rw [h.vars]
  refine walkable_queueVars h.ne_nil' ?_
  rw [List.map_cons, map_unread]
  exact h.wrap

lemma QueueOk.layout :
    Stream.layout s.queuePacketVars = Stream.straight (rowFrom pos (g :: queue)) := by
  rw [← Stream.layout_cleared, h.vars, layout_queueVars, List.map_cons, map_unread]

lemma QueueOk.gives_first (hzero : cfg.ignoreZeroData = false) :
    Stream.Gives cfg s true (pos, pos + g.data.length)
      (queueBytes pos g offset queue (pos, pos + g.data.length)) := by
  have hgives : Stream.Gives cfg
      { s with queuePacketVars := queueVars pos ((g, offset) :: unread queue) } true
      (pos, pos + g.data.length) (g.data.drop offset) := by
    have hlt := h.offset_lt
    refine ⟨⟨.setData pos g.psh g.data g.data.length g.isSip, ?_, ?_, by simp [hzero], ?_⟩, ?_⟩
    · simp [Stream.getPacket, queueVars, SortedMap.get]
    · simp only [StreamPacket.setData]
      omega
    · have hoffset : ({ s with queuePacketVars := queueVars pos ((g, offset) :: unread queue) } :
          Stream).getPacketOffset pos = offset := by
        simp [Stream.getPacketOffset, queueVars, SortedMap.get]
      rw [packetBytes_first rfl (by rw [hoffset]; exact hlt), hoffset]
      rfl
    · rw [ne_eq, List.drop_eq_nil_iff]
      omega
  rw [queueBytes, if_pos rfl]
  refine hgives.of_cleared ?_
  rw [h.vars, cleared_queueVars]

lemma QueueOk.gives_rest (hzero : cfg.ignoreZeroData = false) {r : Nat × Nat}
    (hr : r ∈ rowFrom (pos + g.data.length) queue) :
    Stream.Gives cfg s false r (queueBytes pos g offset queue r) := by
  obtain ⟨x, hx, hend, hdata, hmem⟩ := entry_of_mem_rowFrom hr
  have hpos : 0 < x.data.length :=
    List.length_pos_iff.mpr (h.ne_nil x (List.mem_cons_of_mem _ hx))
  have hlt := h.offset_lt
  have hne : r.1 ≠ pos := by
    obtain ⟨-, -, hle, -⟩ := mem_queueVars hmem
    dsimp only at hle
    omega
  have hget : SortedMap.get r.1 (queueVars pos ((g, offset) :: unread queue)) =
      some ⟨[(r.2, .setData r.1 x.psh x.data x.data.length x.isSip)], 0⟩ :=
    (sorted_queueVars h.ne_nil').get_of_mem (List.mem_cons_of_mem _ hmem)
  have hgives : Stream.Gives cfg
      { s with queuePacketVars := queueVars pos ((g, offset) :: unread queue) } false r x.data := by
    refine ⟨⟨.setData r.1 x.psh x.data x.data.length x.isSip, ?_, ?_, by simp [hzero], ?_⟩, ?_⟩
    · rw [Stream.getPacket, hget]
      simp [SortedMap.get]
    · simp only [StreamPacket.setData]
      omega
    · rw [Stream.packetBytes]
      simp [StreamPacket.setData, slice]
    · exact List.length_pos_iff.mp hpos
  rw [queueBytes, if_neg hne, ← hdata]
  refine hgives.of_cleared ?_
  rw [h.vars, cleared_queueVars]

end Check

lemma rowFrom_take (pos : Nat) (segments : List Segment) (k : Nat) :
    (rowFrom pos segments).take k = rowFrom pos (segments.take k) := by
  induction segments generalizing pos k with
  | nil => rw [rowFrom, List.take_nil, List.take_nil, rowFrom]
  | cons g segments ih =>
    cases k with
    | zero => rfl
    | succ k => rw [rowFrom, List.take_succ_cons, ih, List.take_succ_cons, rowFrom]

lemma rowBytes_congr {f f' : Nat × Nat → Bytes} {row : List (Nat × Nat)}
    (h : ∀ p ∈ row, f p = f' p) : Stream.rowBytes f row = Stream.rowBytes f' row := by
  induction row with
  | nil => rfl
  | cons p row ih =>
    have ih := ih (fun q hq => h q (List.mem_cons_of_mem _ hq))
    cases row with
    | nil => exact h p List.mem_cons_self
    | cons q row => rw [Stream.rowBytes, Stream.rowBytes, ih, h p List.mem_cons_self]

lemma rowBytes_queue {pos offset : Nat} {g : Segment} {a b : List Segment}
    (hlt : offset < g.data.length) (hne : ∀ x ∈ a, x.data ≠ []) :
    Stream.rowBytes (queueBytes pos g offset (a ++ b)) (rowFrom pos (g :: a)) =
      (joined (g :: a)).drop offset := by
  have hfirst : queueBytes pos g offset (a ++ b) (pos, pos + g.data.length) = g.data.drop offset :=
    if_pos rfl
  rw [joined_cons, List.drop_append_of_le_length hlt.le]
  cases a with
  | nil =>
    rw [rowFrom, rowFrom, Stream.rowBytes, hfirst]
    exact (List.append_nil _).symm
  | cons x a =>
    have hrest : ∀ p ∈ rowFrom (pos + g.data.length) (x :: a),
        queueBytes pos g offset (x :: a ++ b) p =
          Stream.bytesAt (pos + g.data.length) (joined (x :: a)) p := by
      intro p hp
      have hin := mem_rowFrom hne hp
      rw [queueBytes, if_neg (by omega), Stream.bytesAt, Stream.bytesAt, joined_append, part, part,
        slice_append_left (by omega)]
    have hdata := @rowBytes_rowFrom (pos + g.data.length) (x :: a) (List.cons_ne_nil x a) hne
    rw [← rowBytes_congr hrest] at hdata
    rw [rowFrom] at hdata
    rw [rowFrom, rowFrom, Stream.rowBytes, hdata, hfirst, Stream.overlap_of_touch rfl, Nat.sub_zero,
      List.take_length]

section Check
variable {cfg : StreamConfig} {s : Stream} {pos offset : Nat} {g : Segment} {queue : List Segment}

lemma QueueOk.of_cleared (h : QueueOk s pos g offset queue) {s' : Stream}
    (hvars : Stream.cleared s'.queuePacketVars = Stream.cleared s.queuePacketVars)
    (hmin : s'.minSeq = s.minSeq) (hfirst : s'.firstSeq = s.firstSeq)
    (hlast : s'.lastSeq = s.lastSeq) : QueueOk s' pos g offset queue where
  vars := hvars.trans h.vars
  minSeq := hmin.trans h.minSeq
  firstSeq := hfirst.trans h.firstSeq
  lastSeq := hlast.trans h.lastSeq
  offset_lt := h.offset_lt
  ne_nil := h.ne_nil
  wrap := h.wrap

lemma QueueOk.ok_cases (h : QueueOk s pos g offset queue) (hisOk : s.isOk = false)
    (hnone : s.completeData = none) (hzero : cfg.ignoreZeroData = false) {fuel maxNextSeq : Nat}
    {result : Bool} {s' : Stream}
    (hok : s.ok cfg fuel maxNextSeq s.minSeq true = some (result, s')) :
    QueueOk s' pos g offset queue ∧
      (s'.isOk = false ∧ s'.completeData = none ∨
        result = true ∧ ∃ a b seq, queue = a ++ b ∧ s'.okPackets = rowFrom pos (g :: a) ∧
          s'.completeData = some ⟨(joined (g :: a)).drop offset, seq⟩ ∧
          s'.completeDataIndex =
            (rowFrom pos (g :: a)).map (Stream.indexItem (queueBytes pos g offset queue))) := by
  by_cases hcount : s.counterTryOk > cfg.maxReassemblyAttempts
  · rw [Stream.ok, if_neg (by rw [hisOk]; simp), if_pos hcount] at hok
    obtain ⟨-, rfl⟩ := Prod.mk.inj (Option.some.inj hok)
    exact ⟨h, .inl ⟨hisOk, hnone⟩⟩
  by_cases hend : ∃ r ∈ rowFrom pos (g :: queue), s.reachesEnd maxNextSeq r.2 = true
  · obtain ⟨q, hq⟩ := Option.isSome_iff_exists.mp (List.find?_isSome.mpr hend)
    obtain ⟨hqend, pre, post, hrow, hpre⟩ := List.find?_eq_some_iff_append.mp hq
    -- the segments up to the end
    have htake : pre ++ [q] = rowFrom pos ((g :: queue).take (pre.length + 1)) := by
      have hlen : (pre ++ [q]).length = pre.length + 1 := by simp
      rw [← rowFrom_take, hrow, List.append_cons pre q post, List.take_left' hlen]
    rw [List.take_succ_cons] at htake
    have hqueue : queue = queue.take pre.length ++ queue.drop pre.length :=
      (List.take_append_drop _ _).symm
    have hin : ∀ r ∈ (pre ++ [q]).tail, r ∈ rowFrom (pos + g.data.length) queue := by
      intro r hr
      rw [htake, rowFrom, List.tail_cons, ← rowFrom_take] at hr
      exact List.mem_of_mem_take hr
    have hhead : (pre ++ [q]).head? = some (pos, pos + g.data.length) := by
      rw [htake]
      rfl
    have hchain : (pre ++ [q]).IsChain (fun p q => p.2 = q.1) := by
      rw [htake]
      exact chain_rowFrom _ _
    have hwanted : ∀ r ∈ (pre ++ [q]).head?,
        (if s.minSeq ≠ 0 then s.minSeq else s.minSeq) = r.1 := by
      intro r hr
      rw [hhead, Option.mem_some_iff] at hr
      rw [← hr, ite_self]
      exact h.minSeq
    have hgives : ∀ r ∈ (pre ++ [q]).head?,
        Stream.Gives cfg s true r (queueBytes pos g offset queue r) := by
      intro r hr
      rw [hhead, Option.mem_some_iff] at hr
      rw [← hr]
      exact h.gives_first hzero
    obtain ⟨vars, seq, hvars, hcases⟩ := @Stream.ok_straight_cases cfg fuel maxNextSeq s.minSeq s
      (queueBytes pos g offset queue) pre post q hisOk (by omega) hnone h.walkable
      (by rw [h.layout, hrow]) h.firstSeq hwanted hchain (fun r hr => by simpa using hpre r hr) hqend
      hgives (fun r hr => h.gives_rest hzero (hin r hr))
    rcases hcases with hok' | ⟨-, hok'⟩ | ⟨-, row, hok'⟩
    · rw [hok] at hok'
      obtain ⟨rfl, rfl⟩ := Prod.mk.inj (Option.some.inj hok')
      refine ⟨h.of_cleared hvars rfl rfl rfl, .inr ⟨rfl, queue.take pre.length, queue.drop pre.length, seq,
        hqueue, htake, ?_, by rw [← htake]⟩⟩
      rw [htake]
      have hbytes := @rowBytes_queue pos offset g (queue.take pre.length) (queue.drop pre.length)
        h.offset_lt (fun x hx => h.ne_nil x (List.mem_cons_of_mem _ (List.mem_of_mem_take hx)))
      rw [← hqueue] at hbytes
      rw [hbytes]
    · rw [hok] at hok'
      cases hok'
    · rw [hok] at hok'
      obtain ⟨-, rfl⟩ := Prod.mk.inj (Option.some.inj hok')
      exact ⟨h.of_cleared hvars rfl rfl rfl, .inl ⟨hisOk, hnone⟩⟩
  · have hne : s.queuePacketVars ≠ [] := by
      intro hnil
      have hl := h.layout
      rw [hnil] at hl
      cases hl
    have hvars : ∀ e ∈ s.queuePacketVars, e.2.queuePackets ≠ [] := by
      intro e he hnil
      have hmem : (e.1, e.2.queuePackets.map (fun q => q.1)) ∈ Stream.layout s.queuePacketVars :=
        List.mem_map.mpr ⟨e, he, rfl⟩
      rw [h.layout, hnil] at hmem
      obtain ⟨r, -, hr⟩ := List.mem_map.mp hmem
      cases (Prod.mk.inj hr).2
    rw [Stream.ok_eq_okLoop hisOk (by omega) h.walkable hne hvars] at hok
    obtain ⟨vars, row, rfl, hcleared⟩ := Stream.okLoop_unended h.walkable.cleared rfl (by
      intro e he q hq
      rw [Stream.layout_cleared, h.layout] at he
      obtain ⟨r, hr, rfl⟩ := List.mem_map.mp he
      obtain ⟨n, hn, rfl⟩ := List.mem_map.mp hq
      rw [List.mem_singleton] at hn
      rw [hn, ← Bool.not_eq_true]
      exact fun hreach => hend ⟨r, hr, hreach⟩) hok
    rw [Stream.cleared_cleared] at hcleared
    exact ⟨h.of_cleared hcleared rfl rfl rfl, .inl ⟨hisOk, hnone⟩⟩

end Check

end VoipMonitor.Tcp
