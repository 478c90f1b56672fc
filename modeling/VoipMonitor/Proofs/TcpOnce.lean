import VoipMonitor.Proofs.TcpConfirm

/-!
# Bytes are delivered once

A run pushes the segments in their order, with retransmissions of those that are queued, and a check
behind each packet confirms some bytes. In a run whose steps all find the offset of the first packet
passed, what was delivered is the beginning of the byte string.
-/

namespace VoipMonitor.Tcp
open VoipMonitor.Library

/-! ## Steps and runs -/

def Stream.KeepsMin (s : Stream) (p : StreamPacket) : Prop :=
  p.seq = s.minSeq ∨ s.minSeq ≠ 0 ∧ ¬seqCmp p.seq s.minSeq < 0

def Stream.PassesOffset (s : Stream) (confirmed : Nat) : Prop :=
  ∀ e ∈ s.queuePacketVars.head?, ∀ q ∈ e.2.queuePackets.head?,
    0 < e.2.offset → 0 < confirmed → q.2.datalen < e.2.offset + confirmed

instance (s : Stream) (p : StreamPacket) : Decidable (s.KeepsMin p) :=
  inferInstanceAs (Decidable (_ ∨ _))

instance (s : Stream) (confirmed : Nat) : Decidable (s.PassesOffset confirmed) :=
  inferInstanceAs (Decidable (∀ e ∈ s.queuePacketVars.head?, ∀ q ∈ e.2.queuePackets.head?,
    0 < e.2.offset → 0 < confirmed → q.2.datalen < e.2.offset + confirmed))

namespace Consumer

def StepOk (c : Consumer) (a : Arrival) : Prop :=
  ∀ s ∈ c.stream, (∀ r ∈ c.arrive a, s.KeepsMin r.1) ∧ s.PassesOffset a.confirmed

instance (c : Consumer) (a : Arrival) : Decidable (c.StepOk a) :=
  inferInstanceAs (Decidable (∀ s ∈ c.stream,
    (∀ r ∈ c.arrive a, s.KeepsMin r.1) ∧ s.PassesOffset a.confirmed))

section Run
variable (cfg : StreamConfig) (fuel : Nat) (toDest : Bool) (ack : Nat)

def RunOk : Consumer → List Arrival → Prop
  | _, [] => True
  | c, a :: arrivals => c.StepOk a ∧ ∀ c' ∈ c.step cfg fuel toDest ack a, RunOk c' arrivals

instance decidableRunOk : ∀ (c : Consumer) (arrivals : List Arrival),
    Decidable (RunOk cfg fuel toDest ack c arrivals)
  | _, [] => inferInstanceAs (Decidable True)
  | c, a :: arrivals =>
    have : ∀ c', Decidable (RunOk cfg fuel toDest ack c' arrivals) :=
      fun c' => decidableRunOk c' arrivals
    inferInstanceAs (Decidable (c.StepOk a ∧ ∀ c' ∈ c.step cfg fuel toDest ack a,
      RunOk cfg fuel toDest ack c' arrivals))

lemma run_none (arrivals : List Arrival) :
    arrivals.foldl (fun (c : Option Consumer) a => c.bind (fun c => c.step cfg fuel toDest ack a))
      none = none := by
  induction arrivals with
  | nil => rfl
  | cons a arrivals ih => exact ih

lemma run_cons {c c' : Consumer} {a : Arrival} {arrivals : List Arrival}
    (h : c.run cfg fuel toDest ack (a :: arrivals) = some c') :
    ∃ c₁, c.step cfg fuel toDest ack a = some c₁ ∧
      c₁.run cfg fuel toDest ack arrivals = some c' := by
  rw [run, List.foldl_cons, Option.bind_some] at h
  cases hstep : c.step cfg fuel toDest ack a with
  | none =>
    rw [hstep, run_none] at h
    cases h
  | some c₁ =>
    rw [hstep] at h
    exact ⟨c₁, rfl, h⟩

end Run

end Consumer

/-! ## A packet is pushed -/

lemma Stream.push_kept (cfg : StreamConfig) {s : Stream} {p : StreamPacket} (hkeep : s.KeepsMin p) :
    ((s.push cfg p).moveBounds p).minSeq = s.minSeq := by
  rw [(Stream.push_minSeq cfg s p).1]
  split
  · rename_i hmove
    rcases hkeep with h | ⟨h, h'⟩
    · exact h
    · exact absurd hmove (by tauto)
  · rfl

lemma Stream.push_bounds (cfg : StreamConfig) (s : Stream) (p : StreamPacket) :
    ((s.push cfg p).moveBounds p).firstSeq = s.firstSeq ∧
      ((s.push cfg p).moveBounds p).lastSeq = s.lastSeq := by
  unfold Stream.moveBounds Stream.push
  split <;> exact ⟨rfl, rfl⟩

lemma Fresh.push {cfg : StreamConfig} {s : Stream} (h : Fresh cfg s) (p : StreamPacket) :
    ((s.push cfg p).moveBounds p).isOk = false ∧
      ((s.push cfg p).moveBounds p).completeData = none := by
  unfold Stream.moveBounds Stream.push
  split
  · exact ⟨rfl, rfl⟩
  · rename_i hsmart
    exact h.resolve_left hsmart

section Push
variable {cfg : StreamConfig} {s : Stream} {pos offset : Nat} {g : Segment} {queue : List Segment}
  (h : QueueOk s pos g offset queue)
include h

lemma QueueOk.push_next {x : Segment} {seq : Nat} (hseq : seq = pos + (joined (g :: queue)).length)
    (hx : x.data ≠ []) (hwrap : seq + x.data.length < 2 ^ 32)
    (hkeep : s.KeepsMin (.setData seq x.psh x.data x.data.length x.isSip)) :
    QueueOk ((s.push cfg (.setData seq x.psh x.data x.data.length x.isSip)).moveBounds
      (.setData seq x.psh x.data x.data.length x.isSip)) pos g offset (queue ++ [x]) := by
  have hbounds := Stream.push_bounds cfg s (.setData seq x.psh x.data x.data.length x.isSip)
  refine ⟨?_, (Stream.push_kept cfg hkeep).trans h.minSeq, hbounds.1.trans h.firstSeq,
    hbounds.2.trans h.lastSeq, h.offset_lt, ?_, ?_⟩
  · rw [Tcp.push_next h.vars h.ne_nil' (by rw [List.map_cons, map_unread]; exact hseq) hwrap, unread,
      unread, List.map_append, List.cons_append]
    rfl
  · intro y hy
    rcases List.mem_append.mp (by rw [List.cons_append]; exact hy : y ∈ (g :: queue) ++ [x]) with
      hy | hy
    · exact h.ne_nil y hy
    · rw [List.mem_singleton.mp hy]
      exact hx
  · have hlen : (joined [x]).length = x.data.length := by simp [joined]
    rw [← List.cons_append, joined_append, List.length_append, hlen]
    omega

lemma QueueOk.push_queued {seq : Nat} {psh isSip : Bool} {v : PacketVar} {q : Nat × StreamPacket}
    (hget : SortedMap.get seq s.queuePacketVars = some v) (hq : v.queuePackets.head? = some q)
    (hkeep : s.KeepsMin (.setData seq psh q.2.data q.2.datalen isSip)) :
    QueueOk ((s.push cfg (.setData seq psh q.2.data q.2.datalen isSip)).moveBounds
      (.setData seq psh q.2.data q.2.datalen isSip)) pos g offset queue := by
  have hbounds := Stream.push_bounds cfg s (.setData seq psh q.2.data q.2.datalen isSip)
  refine h.of_cleared ?_ (Stream.push_kept cfg hkeep) hbounds.1 hbounds.2
  rw [Tcp.push_queued h.vars h.ne_nil' (by rw [List.map_cons, map_unread]; exact h.wrap) hget hq]

lemma QueueOk.passes {confirmed : Nat} (hpass : s.PassesOffset confirmed) (hoffset : 0 < offset)
    (hconfirmed : 0 < confirmed) : g.data.length - offset < confirmed := by
  have hvars := h.vars
  rw [queueVars, Stream.cleared, List.map_eq_cons_iff] at hvars
  obtain ⟨e, vars, hs, he, -⟩ := hvars
  have hvar := (Prod.mk.inj he).2
  rw [PacketVar.cleanState, PacketVar.mk.injEq, List.map_eq_cons_iff] at hvar
  obtain ⟨⟨q, packets, hpackets, hq, -⟩, heoffset⟩ := hvar
  have hlen : q.2.datalen = g.data.length :=
    congrArg StreamPacket.datalen (Prod.mk.inj hq).2
  have := hpass e (by rw [hs]; rfl) q (by rw [hpackets]; rfl) (by omega) hconfirmed
  omega

end Push

lemma queueOk_new (cfg : StreamConfig) (ack : Nat) (toDest : Bool) {x : Segment} {seq : Nat}
    (hx : x.data ≠ []) (hwrap : seq + x.data.length < 2 ^ 32) :
    QueueOk (((Stream.new ack toDest).push cfg
      (.setData seq x.psh x.data x.data.length x.isSip)).moveBounds
      (.setData seq x.psh x.data x.data.length x.isSip)) seq x 0 [] := by
  have hbounds := Stream.push_bounds cfg (.new ack toDest)
    (.setData seq x.psh x.data x.data.length x.isSip)
  have hlen : (joined [x]).length = x.data.length := by simp [joined]
  refine ⟨?_, ?_, hbounds.1, hbounds.2, List.length_pos_iff.mpr hx, ?_, by omega⟩
  · have hnil : Stream.cleared (Stream.new ack toDest).queuePacketVars = queueVars seq [] := rfl
    have hseq : seq = seq + (joined (([] : List (Segment × Nat)).map (fun x => x.1))).length := rfl
    rw [Tcp.push_next hnil (fun y hy => by cases hy) hseq hwrap]
    rfl
  · rw [(Stream.push_minSeq cfg _ _).1, if_pos (.inl rfl)]
    rfl
  · intro y hy
    rw [List.mem_singleton.mp hy]
    exact hx

/-! ## Runs -/

def Consuming (cfg : StreamConfig) (base : Nat) (segments : List Segment) (c : Consumer) : Prop :=
  ∃ seen n, segments = seen ++ c.rest ∧ c.nextSeq = base + (joined seen).length ∧
    c.delivered = (joined seen).take n ∧ Left cfg base n seen c.stream

section Run
variable {cfg : StreamConfig} {fuel : Nat} {toDest : Bool} {ack base : Nat}
  {segments : List Segment} (hne : ∀ x ∈ segments, x.data ≠ [])
  (hwrap : base + (joined segments).length < 2 ^ 32)
include hne hwrap

lemma Consuming.arrive {c : Consumer} {a : Arrival} (h : Consuming cfg base segments c)
    (hok : c.StepOk a) {p : StreamPacket} {rest : List Segment} {nextSeq : Nat}
    (harrive : c.arrive a = some (p, rest, nextSeq)) {s : Stream}
    (hs : s = ((c.stream.getD (.new ack toDest)).push cfg p).moveBounds p) :
    s.isOk = false ∧ s.completeData = none ∧ ∃ before g offset queue,
      segments = (before ++ g :: queue) ++ rest ∧
      nextSeq = base + (joined (before ++ g :: queue)).length ∧
      c.delivered = (joined (before ++ g :: queue)).take ((joined before).length + offset) ∧
      QueueOk s (base + (joined before).length) g offset queue ∧
      (0 < offset → 0 < a.confirmed → g.data.length - offset < a.confirmed) := by
  obtain ⟨seen, n, hsegments, hnext, hdelivered, hleft⟩ := h
  have hkeep : ∀ s₀ ∈ c.stream, s₀.KeepsMin p := fun s₀ hs₀ => (hok s₀ hs₀).1 _ harrive
  rw [Consumer.arrive] at harrive
  cases hagain : a.again with
  | none =>
    rw [hagain] at harrive
    cases hrest : c.rest with
    | nil =>
      rw [hrest] at harrive
      cases harrive
    | cons x rest' =>
      rw [hrest] at harrive hsegments
      obtain ⟨rfl, rfl, rfl⟩ : _ = p ∧ rest' = rest ∧ _ = nextSeq := by
        simpa only [Option.some.injEq, Prod.mk.injEq] using harrive
      have hx : x.data ≠ [] := hne x (by rw [hsegments]; simp)
      have hxwrap : c.nextSeq + x.data.length < 2 ^ 32 := by
        rw [hsegments, joined_append, joined_cons, List.length_append, List.length_append] at hwrap
        omega
      cases hstream : c.stream with
      | none =>
        rw [hstream] at hs hleft
        rw [Left] at hleft
        rw [hs]
        refine ⟨(Fresh.push (.inr ⟨rfl, rfl⟩) _).1, (Fresh.push (.inr ⟨rfl, rfl⟩) _).2,
          seen, x, 0, [], ?_, ?_, ?_, ?_, fun h0 => absurd h0 (lt_irrefl 0)⟩
        · rw [hsegments, List.append_assoc, List.singleton_append]
        · rw [joined_append, List.length_append, hnext]
          simp [joined, Nat.add_assoc]
        · rw [hdelivered, hleft, joined_append, Nat.add_zero, List.take_left, List.take_length]
        · rw [← hnext]
          exact queueOk_new cfg ack toDest hx hxwrap
      | some s₀ =>
        rw [hstream] at hs hleft
        obtain ⟨hfresh, before, g, offset, queue, rfl, rfl, hqueue⟩ := hleft
        rw [hs]
        have hseq : c.nextSeq = base + (joined before).length + (joined (g :: queue)).length := by
          rw [hnext, joined_append, List.length_append, Nat.add_assoc]
        have hoffset := hqueue.offset_lt
        have hlen : (joined before).length + offset ≤ (joined (before ++ g :: queue)).length := by
          rw [joined_append, joined_cons, List.length_append, List.length_append]
          omega
        refine ⟨(hfresh.push _).1, (hfresh.push _).2, before, g, offset, queue ++ [x], ?_, ?_, ?_,
          hqueue.push_next hseq hx hxwrap (hkeep s₀ hstream), hqueue.passes (hok s₀ hstream).2⟩
        · rw [hsegments]
          simp
        · rw [hnext, ← List.cons_append, ← List.append_assoc, joined_append _ [x], List.length_append]
          simp [joined, Nat.add_assoc]
        · rw [hdelivered, ← List.cons_append, ← List.append_assoc, joined_append _ [x],
            List.take_append_of_le_length hlen]
  | some again =>
    rw [hagain] at harrive
    obtain ⟨v, hv, harrive⟩ := Option.bind_eq_some_iff.mp harrive
    obtain ⟨s₀, hstream, hget⟩ := Option.bind_eq_some_iff.mp hv
    obtain ⟨q, hq, harrive⟩ := Option.map_eq_some_iff.mp harrive
    obtain ⟨rfl, rfl, rfl⟩ : _ = p ∧ c.rest = rest ∧ _ = nextSeq := by
      simpa only [Prod.mk.injEq] using harrive
    rw [hstream] at hs hleft
    obtain ⟨hfresh, before, g, offset, queue, rfl, rfl, hqueue⟩ := hleft
    rw [hs]
    exact ⟨(hfresh.push _).1, (hfresh.push _).2, before, g, offset, queue, hsegments, hnext,
      hdelivered, hqueue.push_queued hget hq (hkeep s₀ hstream), hqueue.passes (hok s₀ hstream).2⟩

variable (hzero : cfg.ignoreZeroData = false)
include hzero

lemma Consuming.step {c c' : Consumer} {a : Arrival} (h : Consuming cfg base segments c)
    (hok : c.StepOk a) (hstep : c.step cfg fuel toDest ack a = some c') :
    Consuming cfg base segments c' := by
  rw [Consumer.step] at hstep
  obtain ⟨⟨p, rest, nextSeq⟩, harrive, hstep⟩ := Option.bind_eq_some_iff.mp hstep
  obtain ⟨⟨result, s'⟩, hcheck, hstep⟩ := Option.bind_eq_some_iff.mp hstep
  dsimp only at hstep hcheck
  obtain ⟨hisOk, hnone, before, g, offset, queue, hsegments, hnext, hdelivered, hqueue, hpass⟩ :=
    h.arrive hne hwrap hok harrive rfl
  obtain ⟨hqueue', hcases⟩ := hqueue.ok_cases hisOk hnone hzero hcheck
  -- the bytes stay where they are
  have hstay : ∀ s'' : Stream, Fresh cfg s'' →
      QueueOk s'' (base + (joined before).length) g offset queue →
      Consuming cfg base segments ⟨some s'', rest, nextSeq, c.delivered ++ []⟩ := by
    intro s'' hfresh hs''
    refine ⟨before ++ g :: queue, (joined before).length + offset, hsegments, hnext, ?_, hfresh,
      before, g, offset, queue, rfl, rfl, hs''⟩
    rw [List.append_nil]
    exact hdelivered
  cases result with
  | false =>
    obtain ⟨-, hstep⟩ := Option.ite_none_right_eq_some.mp hstep
    rw [← Option.some.inj hstep]
    exact hstay s' (.inr (hcases.resolve_right (fun hright => by cases hright.1))) hqueue'
  | true =>
    obtain ⟨hle, hstep⟩ := Option.ite_none_right_eq_some.mp hstep
    rw [if_pos rfl] at hle
    rw [← Option.some.inj hstep, if_pos rfl]
    by_cases hconfirmed : a.confirmed = 0
    · rw [hconfirmed, Stream.confirm, if_neg (fun h0 => h0 rfl)]
      split
      · rename_i hsmart
        exact hstay s' (.inl hsmart) hqueue'
      · exact hstay _ (.inr ⟨rfl, rfl⟩) (hqueue'.of_cleared rfl rfl rfl rfl)
    · rcases hcases with ⟨-, hnone'⟩ | ⟨-, front, back, seq, hsplit, hrow, hdata, hindex⟩
      · rw [Stream.getDatalen, hnone'] at hle
        exact absurd (Nat.le_zero.mp hle) hconfirmed
      have hlen : s'.getDatalen = ((joined (g :: front)).drop offset).length := by
        rw [Stream.getDatalen, hdata]
        rfl
      obtain ⟨hbytes, hleft⟩ := hqueue'.confirm hsplit (fun h0 => hpass h0 (by omega)) (by omega)
        hrow hdata hindex cfg hle
      have hoffset : offset ≤ (joined (g :: front)).length := by
        have hlt := hqueue.offset_lt
        rw [joined_cons, List.length_append]
        omega
      have hdrop : (joined before ++ joined (g :: queue)).drop ((joined before).length + offset) =
          (joined (g :: front)).drop offset ++ joined back := by
        rw [List.drop_length_add_append, hsplit, ← List.cons_append, joined_append,
          List.drop_append_of_le_length hoffset]
      have htake : ((joined (g :: front)).drop offset ++ joined back).take a.confirmed =
          ((joined (g :: front)).drop offset).take a.confirmed :=
        List.take_append_of_le_length (by omega)
      refine ⟨before ++ g :: queue, _, hsegments, hnext, ?_, hleft.behind⟩
      rw [hbytes, hdelivered, joined_append, ← Nat.add_assoc, List.take_add (j := a.confirmed), hdrop,
        htake]

lemma Consuming.run {c c' : Consumer} {arrivals : List Arrival}
    (h : Consuming cfg base segments c) (hok : c.RunOk cfg fuel toDest ack arrivals)
    (hrun : c.run cfg fuel toDest ack arrivals = some c') : Consuming cfg base segments c' := by
  induction arrivals generalizing c with
  | nil =>
    rw [← Option.some.inj hrun]
    exact h
  | cons a arrivals ih =>
    obtain ⟨c₁, hstep, hrest⟩ := Consumer.run_cons cfg fuel toDest ack hrun
    exact ih (h.step hne hwrap hzero hok.1 hstep) (hok.2 c₁ hstep) hrest

end Run

/-- When at every step the confirmed bytes pass an offset of the first packet, and no packet moves
the lower bound of a stream, a run delivers the beginning of the byte string: no byte twice, and
none is skipped. -/
theorem run_delivered_isPrefix (cfg : StreamConfig) (fuel : Nat) (toDest : Bool) (ack base : Nat)
    (segments : List Segment) (arrivals : List Arrival) (c : Consumer)
    (hne : ∀ x ∈ segments, x.data ≠ []) (hwrap : base + (joined segments).length < 2 ^ 32)
    (hzero : cfg.ignoreZeroData = false)
    (hok : (Consumer.new base segments).RunOk cfg fuel toDest ack arrivals)
    (hrun : (Consumer.new base segments).run cfg fuel toDest ack arrivals = some c) :
    c.delivered <+: joined segments := by
  have hnew : Consuming cfg base segments (.new base segments) := ⟨[], 0, rfl, rfl, rfl, rfl⟩
  obtain ⟨seen, n, hsegments, -, hdelivered, -⟩ := hnew.run hne hwrap hzero hok hrun
  rw [hdelivered, hsegments, joined_append]
  exact (List.take_prefix n _).trans (List.prefix_append _ _)

theorem run_delivered_isPrefix_example :
    ∃ c, (Consumer.new 1 [⟨[1, 2, 3], true, true⟩, ⟨[4, 5, 6], true, true⟩]).run
        ⟨1, true, false, 50, 0⟩ 10 true 9 [⟨none, 4, 2⟩, ⟨none, 7, 4⟩] = some c ∧
      c.delivered.length = 6 ∧
      c.delivered <+: joined [⟨[1, 2, 3], true, true⟩, ⟨[4, 5, 6], true, true⟩] := by
  have hrun : ∃ c, (Consumer.new 1 [⟨[1, 2, 3], true, true⟩, ⟨[4, 5, 6], true, true⟩]).run
      ⟨1, true, false, 50, 0⟩ 10 true 9 [⟨none, 4, 2⟩, ⟨none, 7, 4⟩] = some c ∧
      c.delivered.length = 6 :=
    ⟨⟨none, [], 7, [1, 2, 3, 4, 5, 6]⟩, by decide +kernel, rfl⟩
  obtain ⟨c, hrun, hlen⟩ := hrun
  exact ⟨c, hrun, hlen, run_delivered_isPrefix ⟨1, true, false, 50, 0⟩ 10 true 9 1 _ _ c
    (by decide) (by decide) rfl (by decide +kernel) hrun⟩

/-- Two bytes of one segment are confirmed, then two bytes of what is left, then the rest: the
second offset is taken from the bytes behind the first one, and bytes are delivered twice. -/
theorem run_delivers_twice :
    ¬∀ (cfg : StreamConfig) (fuel : Nat) (toDest : Bool) (ack base : Nat)
      (segments : List Segment) (arrivals : List Arrival) (c : Consumer),
      (∀ x ∈ segments, x.data ≠ []) → base + (joined segments).length < 2 ^ 32 →
      cfg.completeMod = 1 → cfg.ignoreZeroData = false →
      (Consumer.new base segments).run cfg fuel toDest ack arrivals = some c →
      c.delivered <+: joined segments := by
  intro h
  have hrun : ∃ c, (Consumer.new 1 [⟨[1, 2, 3, 4, 5, 6], true, true⟩]).run
      ⟨1, true, false, 50, 0⟩ 10 true 9
      [⟨none, 7, 2⟩, ⟨some (1, true, true), 7, 2⟩, ⟨some (1, true, true), 7, 4⟩] = some c ∧
      c.delivered = [1, 2, 3, 4, 3, 4, 5, 6] :=
    ⟨_, rfl, by decide +kernel⟩
  obtain ⟨c, hrun, hdelivered⟩ := hrun
  have hprefix := h _ _ _ _ _ _ _ c (by decide) (by decide) rfl rfl hrun
  rw [hdelivered] at hprefix
  exact absurd hprefix (by decide)

end VoipMonitor.Tcp
