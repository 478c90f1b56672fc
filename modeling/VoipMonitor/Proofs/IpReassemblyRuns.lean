import VoipMonitor.Proofs.IpReassembly

/-!
# Runs of `defrag`

Every arrival order of the fragments of one datagram, and interleavings of two datagrams. A
call touches one queue only, the one selected by the data thread, the source address and the
identification, so a run is the product of its runs on the separate queues.
-/

namespace VoipMonitor.IpFrag
open VoipMonitor.Library

def queueOf (split : Nat) (c : DefragCall) : Nat × Nat × Nat :=
  (fdataIndex { fdataThreadsSplit := split } c.pkt.packet c.headerIpOffset c.fdataThreadIndex,
    getSaddr c.pkt.packet c.headerIpOffset, getFragId c.pkt.packet c.headerIpOffset)

def CIpFrag.slot (s : CIpFrag) (k : Nat × Nat × Nat) : Option SFrags := s.fdata k.1 k.2

lemma runDefrag_append (path : PacketPath) (s : CIpFrag) (cs ds : List DefragCall) :
    runDefrag path s (cs ++ ds) =
      ((runDefrag path s cs).1 ++ (runDefrag path (runDefrag path s cs).2 ds).1,
        (runDefrag path (runDefrag path s cs).2 ds).2) := by
  induction cs generalizing s with
  | nil => rfl
  | cons c cs ih => simp [runDefrag, ih]

lemma length_runDefrag (path : PacketPath) (s : CIpFrag) (cs : List DefragCall) :
    (runDefrag path s cs).1.length = cs.length := by
  induction cs generalizing s with
  | nil => rfl
  | cons c cs ih => simp [runDefrag, ih]

lemma defrag_result (path : PacketPath) (s : CIpFrag) (c : DefragCall) :
    let r := add path ((s.slot (queueOf s.fdataThreadsSplit c)).getD {}) c.pkt c.headerIpOffset
      (getTotLen c.pkt.packet c.headerIpOffset)
    (defrag path s c.pkt c.headerIpOffset c.fdataThreadIndex).1 = r.1 ∧
    (defrag path s c.pkt c.headerIpOffset c.fdataThreadIndex).2.slot
      (queueOf s.fdataThreadsSplit c) = if r.1.res > 0 then none else some r.2 := by
  refine ⟨rfl, ?_⟩
  unfold CIpFrag.slot
  exact if_pos ⟨rfl, rfl⟩

lemma defrag_other (path : PacketPath) (s : CIpFrag) (c : DefragCall) {k : Nat × Nat × Nat}
    (hk : queueOf s.fdataThreadsSplit c ≠ k) :
    (defrag path s c.pkt c.headerIpOffset c.fdataThreadIndex).2.slot k = s.slot k := by
  unfold CIpFrag.slot
  refine if_neg ?_
  rintro ⟨h1, h2⟩
  exact hk (Prod.ext h1.symm h2.symm)

@[simp] lemma defrag_split (path : PacketPath) (s : CIpFrag) (c : DefragCall) :
    (defrag path s c.pkt c.headerIpOffset c.fdataThreadIndex).2.fdataThreadsSplit =
      s.fdataThreadsSplit := rfl

theorem runDefrag_queue (path : PacketPath) (k : Nat × Nat × Nat) (s s' : CIpFrag)
    (hsplit : s.fdataThreadsSplit = s'.fdataThreadsSplit) (hslot : s.slot k = s'.slot k)
    (cs : List DefragCall) :
    ((cs.zip (runDefrag path s cs).1).filter
        (fun p => decide (queueOf s.fdataThreadsSplit p.1 = k))).map Prod.snd =
      (runDefrag path s'
        (cs.filter (fun c => decide (queueOf s.fdataThreadsSplit c = k)))).1 := by
  induction cs generalizing s s' with
  | nil => rfl
  | cons c cs ih =>
    rw [runDefrag]
    by_cases hc : queueOf s.fdataThreadsSplit c = k
    · have hc' : queueOf s'.fdataThreadsSplit c = k := by rw [← hsplit, hc]
      obtain ⟨hres, hnext⟩ := defrag_result path s c
      obtain ⟨hres', hnext'⟩ := defrag_result path s' c
      rw [hc, hslot] at hres hnext
      rw [hc'] at hres' hnext'
      have hrest := ih _ (defrag path s' c.pkt c.headerIpOffset c.fdataThreadIndex).2
        (by simpa using hsplit) (hnext.trans hnext'.symm)
      rw [defrag_split] at hrest
      simp only [List.zip_cons_cons, List.filter_cons, hc, decide_true, if_true, List.map_cons,
        runDefrag, hrest, hres, hres']
    · have hrest := ih _ s' (by simpa using hsplit) ((defrag_other path s c hc).trans hslot)
      rw [defrag_split] at hrest
      simp only [List.zip_cons_cons, List.filter_cons, hc, decide_false, Bool.false_eq_true,
        if_false, hrest]

/-- An order in which the pieces of a datagram arrive: every piece arrives, pieces may be
repeated, and the last call brings the last piece that was missing. -/
def ArrivalOrder (n : Nat) (order : List Nat) : Prop :=
  ∃ init last, order = init ++ [last] ∧ last ∉ init ∧ (∀ i ∈ order, i < n) ∧
    ∀ i, i < n → i ∈ order

namespace Fragmentation

def queue (F : Fragmentation) (split : Nat) : Nat × Nat × Nat :=
  (if F.fdataThreadIndex < 0 then if split > 1 then F.saddr % split else 0
    else F.fdataThreadIndex.toNat, F.saddr, F.id)

variable {F : Fragmentation}

lemma queueOf_frame {i : Nat} (hi : i < F.count) (split : Nat) :
    queueOf split (F.frame i) = F.queue split := by
  have hf := F.isFragment i hi
  simp only [queueOf, queue, fdataIndex, F.thread_eq i hi, hf.saddr_eq, hf.id_eq]

lemma run_incomplete (path : PacketPath) {last : Nat} (hlast : last < F.count) (init : List Nat)
    (hinit : ∀ i ∈ init, i < F.count) {seen : List Nat} (hseen : ∀ i ∈ seen, i < F.count)
    (hmiss : last ∉ seen ++ init) {s : CIpFrag}
    (hq : F.Queued seen ((s.slot (F.queue s.fdataThreadsSplit)).getD {})) :
    (∀ r ∈ (runDefrag path s (init.map F.frame)).1, r.res = 0 ∨ r.res = -1) ∧
      (runDefrag path s (init.map F.frame)).1.length = init.length ∧
      (runDefrag path s (init.map F.frame)).2.fdataThreadsSplit = s.fdataThreadsSplit ∧
      F.Queued (seen ++ init) (((runDefrag path s (init.map F.frame)).2.slot
        (F.queue s.fdataThreadsSplit)).getD {}) := by
  induction init generalizing seen s with
  | nil => simpa [runDefrag] using hq
  | cons i init ih =>
    have hi : i < F.count := hinit i List.mem_cons_self
    obtain ⟨q', hq', hadd⟩ := hq.add_eq hseen hi path
    obtain ⟨hres, hnext⟩ := defrag_result path s (F.frame i)
    rw [queueOf_frame hi, hadd] at hres hnext
    have hnotall : ¬∀ j, j < F.count → j ∈ seen ++ [i] := by
      intro h
      apply hmiss
      rcases List.mem_append.mp (h last hlast) with hlast | hlast
      · exact List.mem_append_left _ hlast
      · rw [List.mem_singleton.mp hlast]
        exact List.mem_append_right _ List.mem_cons_self
    rw [if_neg hnotall] at hres hnext
    have hseen' : ∀ j ∈ seen ++ [i], j < F.count := by
      intro j hj
      rcases List.mem_append.mp hj with hj | hj
      · exact hseen j hj
      · rwa [List.mem_singleton.mp hj]
    have hmiss' : last ∉ (seen ++ [i]) ++ init := by
      simpa [List.append_assoc] using hmiss
    set s1 := (defrag path s (F.frame i).pkt (F.frame i).headerIpOffset
      (F.frame i).fdataThreadIndex).2 with hs1
    have hsplit : s1.fdataThreadsSplit = s.fdataThreadsSplit := rfl
    have hstep : ((defrag path s (F.frame i).pkt (F.frame i).headerIpOffset
          (F.frame i).fdataThreadIndex).1.res = 0 ∨
        (defrag path s (F.frame i).pkt (F.frame i).headerIpOffset
          (F.frame i).fdataThreadIndex).1.res = -1) ∧
        s1.slot (F.queue s.fdataThreadsSplit) = some q' := by
      rw [hres]
      by_cases hmem : i ∈ seen
      · rw [if_pos hmem] at hnext
        simpa [hmem] using hnext
      · rw [if_neg hmem] at hnext
        simpa [hmem] using hnext
    have hih := ih (fun j hj => hinit j (List.mem_cons_of_mem _ hj)) hseen' hmiss'
      (s := s1) (by rw [hsplit, hstep.2]; exact hq')
    rw [hsplit, List.append_assoc] at hih
    obtain ⟨hall, hlength, hspl, hqueue⟩ := hih
    rw [List.map_cons, runDefrag]
    refine ⟨?_, by simpa using hlength, hspl, hqueue⟩
    intro r hr
    rcases List.mem_cons.mp hr with rfl | hr
    · exact hstep.1
    · exact hall r hr

end Fragmentation

lemma run_arrivalOrder (path : PacketPath) (F : Fragmentation) (s : CIpFrag)
    (hs : s.slot (F.queue s.fdataThreadsSplit) = none) (order : List Nat)
    (ho : ArrivalOrder F.count order) :
    ∃ rs p, (runDefrag path s (order.map F.frame)).1 = rs ++ [⟨1, some p⟩] ∧
      (∀ r ∈ rs, r.res = 0 ∨ r.res = -1) ∧
      p.packet = reassembledPacket (F.frame 0) F.payload ∧
      p.caplen = p.packet.length ∧ p.len = p.packet.length ∧
      (runDefrag path s (order.map F.frame)).2.slot (F.queue s.fdataThreadsSplit) = none := by
  obtain ⟨init, last, rfl, hfresh, hbound, hcover⟩ := ho
  have hinit : ∀ i ∈ init, i < F.count := fun i hi => hbound i (List.mem_append_left _ hi)
  have hlast : last < F.count := hbound last (by simp)
  have hq : F.Queued [] ((s.slot (F.queue s.fdataThreadsSplit)).getD {}) := by
    rw [hs]
    exact F.queued_nil
  obtain ⟨hrs, -, hsplit, hqueue⟩ := F.run_incomplete path hlast init hinit
    (by simp) (by simpa using hfresh) hq
  rw [List.nil_append] at hqueue
  set s1 := (runDefrag path s (init.map F.frame)).2 with hs1
  obtain ⟨q', hq', hadd⟩ := hqueue.add_eq hinit hlast path
  obtain ⟨hres, hnext⟩ := defrag_result path s1 (F.frame last)
  rw [F.queueOf_frame hlast, hsplit, hadd, if_neg hfresh, if_pos hcover] at hres hnext
  obtain ⟨hpacket, hcaplen, hlen⟩ := F.dequeue_eq hq' hbound hcover path
  have htotal : F.total = (reassembledPacket (F.frame 0) F.payload).length := by
    have hf := F.isFragment 0 F.count_pos
    have hcap := hf.captured
    have hcl := hf.caplen_eq
    have hh : (slice (F.frame 0).pkt.packet (F.frame 0).headerIpOffset 20).length = 20 :=
      length_slice (by omega)
    rw [reassembledPacket, List.length_append, List.length_append, length_slice (by omega),
      length_reassembledHeader hh]
    rfl
  refine ⟨(runDefrag path s (init.map F.frame)).1, dequeue path q', ?_, hrs, hpacket, ?_, ?_, ?_⟩
  · rw [List.map_append, runDefrag_append]
    simp [runDefrag, ← hs1, hres]
  · rw [hcaplen, hpacket, htotal]
  · rw [hlen, hpacket, htotal]
  · rw [List.map_append, runDefrag_append]
    exact hnext

/-- Every arrival order of the fragments of a datagram, with repeated fragments before the end,
produces the datagram on the call that brings the last missing fragment, and on no other. -/
theorem defrag_every_order (path : PacketPath) (F : Fragmentation) (s : CIpFrag)
    (hs : s.slot (F.queue s.fdataThreadsSplit) = none) (order : List Nat)
    (ho : ArrivalOrder F.count order) :
    let rs := (runDefrag path s (order.map F.frame)).1
    rs.length = order.length ∧ (∀ r ∈ rs.dropLast, r.res = 0 ∨ r.res = -1) ∧
      ∃ p, rs.getLast? = some ⟨1, some p⟩ ∧
        p.packet = reassembledPacket (F.frame 0) F.payload ∧
        p.caplen = p.packet.length ∧ p.len = p.packet.length := by
  obtain ⟨rs, p, hrun, hres, hp, hcaplen, hlen, -⟩ := run_arrivalOrder path F s hs order ho
  refine ⟨by rw [length_runDefrag, List.length_map], ?_, p, ?_, hp, hcaplen, hlen⟩
  · rw [hrun, List.dropLast_concat]
    exact hres
  · rw [hrun, List.getLast?_concat]

def exampleFrame (saddr daddr flags off totLen : UInt8) (data : Bytes) : DefragCall where
  pkt :=
    { caplen := 21 + data.length
      len := 21 + data.length
      packet := 0xEE :: ([0x45, 0, 0, totLen, 0, 7, flags, off, 64, 17, 0xAB, 0xCD,
        10, 0, 0, saddr, 10, 0, 0, daddr] ++ data) }
  headerIpOffset := 1

/-- A UDP datagram of 9 payload bytes from 10.0.0.`saddr` to 10.0.0.`daddr` in two fragments. -/
def exampleFragmentation (saddr daddr a : UInt8) : Fragmentation where
  saddr := be32 [10, 0, 0, saddr] 0
  daddr := be32 [10, 0, 0, daddr] 0
  protocol := 17
  id := 7
  fdataThreadIndex := -1
  payload := List.replicate 9 a
  pieces := [List.replicate 8 a, [a]]
  frame := fun
    | 0 => exampleFrame saddr daddr 0x20 0 28 (List.replicate 8 a)
    | _ => exampleFrame saddr daddr 0 1 21 [a]
  not_esp := by decide
  fits := by simp
  two_le := le_rfl
  flatten_eq := rfl
  piece_ne := by simp
  aligned := by simp
  thread_eq := by
    intro i hi
    split <;> rfl
  isFragment := by
    intro i hi
    match i, hi with
    | 0, _ => constructor <;> simp [exampleFrame, version, getIhl, getSaddr, getDaddr, getProtocol,
        getFragId, getTotLen, getFragOffset, getFragData, isMoreFrag, slice, be32, be16, byteAt]
    | 1, _ => constructor <;> simp [exampleFrame, version, getIhl, getSaddr, getDaddr, getProtocol,
        getFragId, getTotLen, getFragOffset, getFragData, isMoreFrag, slice, be32, be16, byteAt]

theorem defrag_every_order_example :
    ∃ p, (runDefrag .headerPacketPQout {}
        ([1, 1, 0].map (exampleFragmentation 1 2 0x41).frame)).1.getLast? = some ⟨1, some p⟩ ∧
      p.packet = reassembledPacket ((exampleFragmentation 1 2 0x41).frame 0)
        (List.replicate 9 0x41) := by
  obtain ⟨-, -, p, hlast, hp, -⟩ := defrag_every_order .headerPacketPQout
    (exampleFragmentation 1 2 0x41) {} rfl [1, 1, 0]
    ⟨[1, 1], 0, rfl, by decide, by decide, by decide⟩
  exact ⟨p, hlast, hp⟩

/-- An interleaving of the fragments of two datagrams: an entry is the piece of the first
(`true`) or of the second datagram. -/
structure Interleaving (F G : Fragmentation) (calls : List (Bool × Nat)) : Prop where
  first : ArrivalOrder F.count ((calls.filter (·.1)).map Prod.snd)
  second : ArrivalOrder G.count ((calls.filter (!·.1)).map Prod.snd)

def interleavedCall (F G : Fragmentation) : Bool × Nat → DefragCall
  | (true, i) => F.frame i
  | (false, i) => G.frame i

def produced (rs : List DefragResult) : List Bytes :=
  rs.filterMap (fun r => if r.res > 0 then r.out.map (·.packet) else none)

/-- The run produces the two datagrams and nothing else. -/
def ReassembledApart (path : PacketPath) (s : CIpFrag) (F G : Fragmentation)
    (calls : List (Bool × Nat)) : Prop :=
  (produced (runDefrag path s (calls.map (interleavedCall F G))).1).Perm
    [reassembledPacket (F.frame 0) F.payload, reassembledPacket (G.frame 0) G.payload]

lemma produced_complete {rs : List DefragResult} (hrs : ∀ r ∈ rs, r.res = 0 ∨ r.res = -1)
    (p : Packet) : produced (rs ++ [⟨1, some p⟩]) = [p.packet] := by
  have hnone : produced rs = [] := by
    apply List.filterMap_eq_nil_iff.mpr
    intro r hr
    rcases hrs r hr with h | h <;> simp [h]
  rw [produced, List.filterMap_append]
  change produced rs ++ _ = _
  simp [hnone]

lemma produced_split (q : DefragCall → Bool) {cs : List DefragCall} {rs : List DefragResult}
    (h : rs.length = cs.length) :
    (produced rs).Perm
      (produced (((cs.zip rs).filter (fun p => q p.1)).map Prod.snd) ++
        produced (((cs.zip rs).filter (fun p => !q p.1)).map Prod.snd)) := by
  have hzip : rs = (cs.zip rs).map Prod.snd := by
    rw [List.map_snd_zip (by omega)]
  have hperm := (List.filter_append_perm (fun p : DefragCall × DefragResult => q p.1)
    (cs.zip rs)).symm.map Prod.snd
  rw [← hzip, List.map_append] at hperm
  unfold produced
  rw [← List.filterMap_append]
  exact hperm.filterMap _

lemma ArrivalOrder.bound {n : Nat} {order : List Nat} (h : ArrivalOrder n order) :
    ∀ i ∈ order, i < n := by
  obtain ⟨-, -, -, -, hb, -⟩ := h
  exact hb

namespace Interleaving
variable {F G : Fragmentation} {calls : List (Bool × Nat)} (hc : Interleaving F G calls)
include hc

lemma queueOf_call (split : Nat) {e : Bool × Nat} (he : e ∈ calls) :
    queueOf split (interleavedCall F G e) = if e.1 then F.queue split else G.queue split := by
  obtain ⟨b, i⟩ := e
  cases b with
  | true =>
    have hi : i < F.count := hc.first.bound i
      (List.mem_map.mpr ⟨(true, i), List.mem_filter.mpr ⟨he, rfl⟩, rfl⟩)
    exact F.queueOf_frame hi split
  | false =>
    have hi : i < G.count := hc.second.bound i
      (List.mem_map.mpr ⟨(false, i), List.mem_filter.mpr ⟨he, rfl⟩, rfl⟩)
    exact G.queueOf_frame hi split

lemma filter_queue {split : Nat} (first : Bool) (keep : Bool × Nat → Bool)
    (hkeep : ∀ e, keep e = decide (e.1 = first)) (hne : F.queue split ≠ G.queue split) :
    (calls.map (interleavedCall F G)).filter
      (fun c => decide (queueOf split c = (if first then F else G).queue split)) =
      ((calls.filter keep).map Prod.snd).map (if first then F else G).frame := by
  rw [List.filter_map, List.map_map]
  have hfilter : calls.filter ((fun c => decide (queueOf split c =
      (if first then F else G).queue split)) ∘ interleavedCall F G) = calls.filter keep := by
    apply List.filter_congr
    intro e he
    rw [Function.comp, hc.queueOf_call split he, hkeep]
    cases e.1 <;> cases first <;> simp [hne, hne.symm]
  rw [hfilter]
  apply List.map_congr_left
  rintro ⟨b, i⟩ he
  have hb := (List.mem_filter.mp he).2
  rw [hkeep] at hb
  obtain rfl : b = first := of_decide_eq_true hb
  cases b <;> rfl

end Interleaving

/-- Fragments of datagrams that differ in the source address or in the identification are
never mixed. -/
theorem defrag_interleaved (path : PacketPath) (F G : Fragmentation) (s : CIpFrag)
    (hF : s.slot (F.queue s.fdataThreadsSplit) = none)
    (hG : s.slot (G.queue s.fdataThreadsSplit) = none)
    (hne : F.saddr ≠ G.saddr ∨ F.id ≠ G.id) (calls : List (Bool × Nat))
    (hc : Interleaving F G calls) : ReassembledApart path s F G calls := by
  have hqueue : F.queue s.fdataThreadsSplit ≠ G.queue s.fdataThreadsSplit := by
    intro h
    have h1 := congrArg (fun k : Nat × Nat × Nat => k.2.1) h
    have h2 := congrArg (fun k : Nat × Nat × Nat => k.2.2) h
    rcases hne with h | h
    · exact h h1
    · exact h h2
  set cs := calls.map (interleavedCall F G) with hcs
  set rs := (runDefrag path s cs).1 with hrs
  have hsecond : (cs.zip rs).filter
        (fun p => !decide (queueOf s.fdataThreadsSplit p.1 = F.queue s.fdataThreadsSplit)) =
      (cs.zip rs).filter
        (fun p => decide (queueOf s.fdataThreadsSplit p.1 = G.queue s.fdataThreadsSplit)) := by
    apply List.filter_congr
    rintro ⟨c, r⟩ hp
    obtain ⟨e, he, rfl⟩ := List.mem_map.mp (List.of_mem_zip hp).1
    rw [hc.queueOf_call s.fdataThreadsSplit he]
    cases e.1 <;> simp [hqueue, hqueue.symm]
  have hsplit := produced_split
    (fun c => decide (queueOf s.fdataThreadsSplit c = F.queue s.fdataThreadsSplit))
    (length_runDefrag path s cs)
  rw [← hrs, hsecond, hrs, runDefrag_queue path _ s s rfl rfl, runDefrag_queue path _ s s rfl rfl,
    hcs] at hsplit
  have hfirst := hc.filter_queue true (fun e => e.1) (by simp) hqueue
  have hsnd := hc.filter_queue false (fun e => !e.1) (by simp) hqueue
  rw [if_pos rfl] at hfirst
  rw [if_neg Bool.false_ne_true] at hsnd
  rw [hfirst, hsnd] at hsplit
  obtain ⟨rsF, pF, hrunF, hresF, hpF, -⟩ := run_arrivalOrder path F s hF _ hc.first
  obtain ⟨rsG, pG, hrunG, hresG, hpG, -⟩ := run_arrivalOrder path G s hG _ hc.second
  rw [hrunF, hrunG, produced_complete hresF, produced_complete hresG, hpF, hpG] at hsplit
  exact hsplit

theorem defrag_interleaved_example :
    ReassembledApart .headerPacketPQout {} (exampleFragmentation 1 2 0x41)
      (exampleFragmentation 9 2 0x42) [(true, 1), (false, 0), (true, 1), (false, 1), (true, 0)] :=
  defrag_interleaved .headerPacketPQout (exampleFragmentation 1 2 0x41)
    (exampleFragmentation 9 2 0x42) {} rfl rfl (by decide) _
    ⟨⟨[1, 1], 0, rfl, by decide, by decide, by decide⟩,
      ⟨[0], 1, rfl, by decide, by decide, by decide⟩⟩

/-- Datagrams that differ only in the destination address share a queue: the second fragment
of one completes the first fragment of the other. -/
theorem defrag_mixes_destinations :
    ∃ (F G : Fragmentation) (calls : List (Bool × Nat)), F.daddr ≠ G.daddr ∧
      Interleaving F G calls ∧ ¬ReassembledApart .headerPacket {} F G calls := by
  refine ⟨exampleFragmentation 1 2 0x41, exampleFragmentation 1 3 0x42,
    [(true, 0), (false, 0), (false, 1), (true, 1)], by decide,
    ⟨⟨[0], 1, rfl, by decide, by decide, by decide⟩,
      ⟨[0], 1, rfl, by decide, by decide, by decide⟩⟩, ?_⟩
  intro h
  have hlen := h.length_eq
  revert hlen
  decide

end VoipMonitor.IpFrag
