import VoipMonitor.Model.TcpStream

/-!
# Packets in a stream

After packets of one acknowledge number were pushed to a new link, the link has one stream. Its
maps hold packets that were pushed, for each sequence number and each end one.
-/

namespace VoipMonitor.Tcp
open VoipMonitor.Library

instance : IsStrictTotalOrder Nat (fun a b => seqLt a b = true) :=
  SortedMap.isStrictTotalOrder_of_key id Function.injective_id (fun a b => by simp [seqLt])

structure VarOk (pushed : List StreamPacket) (seq : Nat) (v : PacketVar) : Prop where
  offset : v.offset = 0
  sorted : SortedMap.Sorted seqLt v.queuePackets
  ne_nil : v.queuePackets ≠ []
  packets : ∀ n p, SortedMap.get n v.queuePackets = some p →
    p ∈ pushed ∧ p.seq = seq ∧ p.nextSeq = n

structure Queued (pushed : List StreamPacket) (s : Stream) : Prop where
  sorted : SortedMap.Sorted seqLt s.queuePacketVars
  vars : ∀ k v, SortedMap.get k s.queuePacketVars = some v → VarOk pushed k v
  present : ∀ p ∈ pushed, (s.getPacket p.seq p.nextSeq).isSome

lemma VarOk.mono {pushed pushed' : List StreamPacket} {seq : Nat} {v : PacketVar}
    (h : VarOk pushed seq v) (hsub : ∀ p ∈ pushed, p ∈ pushed') : VarOk pushed' seq v where
  offset := h.offset
  sorted := h.sorted
  ne_nil := h.ne_nil
  packets n p hp := ⟨hsub p (h.packets n p hp).1, (h.packets n p hp).2⟩

lemma PacketVar.push_cases (v : PacketVar) (p : StreamPacket) :
    (v.push p = { v with queuePackets := SortedMap.set seqLt p.nextSeq p v.queuePackets }) ∨
      (v.push p = v ∧ (SortedMap.get p.nextSeq v.queuePackets).isSome) := by
  unfold PacketVar.push
  cases hget : SortedMap.get p.nextSeq v.queuePackets with
  | none => exact .inl rfl
  | some old =>
    dsimp only
    split
    · exact .inl rfl
    · exact .inr ⟨rfl, rfl⟩

lemma get_push (v : PacketVar) (p : StreamPacket) (n : Nat) :
    SortedMap.get n (v.push p).queuePackets = SortedMap.get n v.queuePackets ∨
      (n = p.nextSeq ∧ SortedMap.get n (v.push p).queuePackets = some p) := by
  rcases v.push_cases p with h | ⟨h, -⟩
  · rw [h, SortedMap.get_set]
    split
    · rename_i hn
      exact .inr ⟨hn.symm, rfl⟩
    · exact .inl rfl
  · rw [h]
    exact .inl rfl

lemma get_push_self (v : PacketVar) (p : StreamPacket) :
    (SortedMap.get p.nextSeq (v.push p).queuePackets).isSome := by
  rcases v.push_cases p with h | ⟨h, hsome⟩
  · rw [h, SortedMap.get_set, if_pos rfl]
    rfl
  · rw [h]
    exact hsome

lemma ne_nil_of_get {n : Nat} {m : List (Nat × StreamPacket)}
    (h : (SortedMap.get n m).isSome) : m ≠ [] := by
  rintro rfl
  exact absurd h (by simp [SortedMap.get])

lemma varOk_push {pushed : List StreamPacket} {p : StreamPacket} {v : PacketVar}
    (h : v = .empty ∨ VarOk pushed p.seq v) : VarOk (pushed ++ [p]) p.seq (v.push p) := by
  have hv : v.offset = 0 ∧ SortedMap.Sorted seqLt v.queuePackets ∧
      ∀ n q, SortedMap.get n v.queuePackets = some q → q ∈ pushed ∧ q.seq = p.seq ∧ q.nextSeq = n := by
    rcases h with rfl | h
    · exact ⟨rfl, List.Pairwise.nil, fun n q hq => by cases hq⟩
    · exact ⟨h.offset, h.sorted, h.packets⟩
  refine ⟨?_, ?_, ne_nil_of_get (get_push_self v p), ?_⟩
  · rcases v.push_cases p with hpush | ⟨hpush, -⟩
    · rw [hpush]
      exact hv.1
    · rw [hpush]
      exact hv.1
  · rcases v.push_cases p with hpush | ⟨hpush, -⟩
    · rw [hpush]
      exact hv.2.1.set _ _
    · rw [hpush]
      exact hv.2.1
  · intro n q hq
    rcases get_push v p n with heq | ⟨hn, heq⟩
    · rw [heq] at hq
      obtain ⟨hmem, hseq⟩ := hv.2.2 n q hq
      exact ⟨List.mem_append_left _ hmem, hseq⟩
    · rw [heq] at hq
      obtain rfl := Option.some.inj hq
      exact ⟨by simp, rfl, hn.symm⟩

lemma Stream.push_vars (cfg : StreamConfig) (s : Stream) (p : StreamPacket) :
    ((s.push cfg p).moveBounds p).queuePacketVars = SortedMap.set seqLt p.seq
      (((SortedMap.get p.seq s.queuePacketVars).getD .empty).push p) s.queuePacketVars := by
  unfold Stream.moveBounds Stream.push
  split <;> rfl

lemma Queued.push {pushed : List StreamPacket} {s : Stream} (h : Queued pushed s)
    (cfg : StreamConfig) (p : StreamPacket) :
    Queued (pushed ++ [p]) ((s.push cfg p).moveBounds p) := by
  have hvar : VarOk (pushed ++ [p]) p.seq
      (((SortedMap.get p.seq s.queuePacketVars).getD .empty).push p) := by
    refine varOk_push ?_
    cases hget : SortedMap.get p.seq s.queuePacketVars with
    | none => exact .inl rfl
    | some v => exact .inr (h.vars p.seq v hget)
  refine ⟨?_, ?_, ?_⟩
  · rw [Stream.push_vars]
    exact h.sorted.set _ _
  · intro k v hv
    rw [Stream.push_vars, SortedMap.get_set] at hv
    split at hv
    · rename_i hk
      rw [← Option.some.inj hv, ← hk]
      exact hvar
    · exact (h.vars k v hv).mono (fun q hq => List.mem_append_left _ hq)
  · intro q hq
    rw [Stream.getPacket, Stream.push_vars, SortedMap.get_set]
    split
    · rename_i hk
      rw [Option.bind_some]
      rcases List.mem_append.mp hq with hq | hq
      · have hold := h.present q hq
        rw [Stream.getPacket, ← hk] at hold
        cases hget : SortedMap.get p.seq s.queuePacketVars with
        | none =>
          rw [hget] at hold
          cases hold
        | some v =>
          rw [hget, Option.bind_some] at hold
          rw [Option.getD_some]
          rcases get_push v p q.nextSeq with heq | ⟨hn, -⟩
          · rw [heq]
            exact hold
          · rw [hn]
            exact get_push_self v p
      · rw [List.mem_singleton.mp hq]
        exact get_push_self _ p
    · rename_i hk
      rcases List.mem_append.mp hq with hq | hq
      · exact h.present q hq
      · rw [List.mem_singleton.mp hq] at hk
        exact absurd rfl hk

def pushAll (cfg : StreamConfig) (s : Stream) (packets : List StreamPacket) : Stream :=
  packets.foldl (fun s p => (s.push cfg p).moveBounds p) s

lemma queued_new (ack : Nat) (toDest : Bool) : Queued [] (.new ack toDest) where
  sorted := List.Pairwise.nil
  vars _ _ h := by cases h
  present _ h := by cases h

lemma Queued.pushAll {pushed : List StreamPacket} {s : Stream} (h : Queued pushed s)
    (cfg : StreamConfig) (packets : List StreamPacket) :
    Queued (pushed ++ packets) (pushAll cfg s packets) := by
  induction packets generalizing pushed s with
  | nil =>
    rw [List.append_nil]
    exact h
  | cons p packets ih =>
    have hrest := ih (h.push cfg p)
    rw [List.append_assoc] at hrest
    exact hrest

structure Unchecked (s : Stream) : Prop where
  firstSeq : s.firstSeq = 0
  lastSeq : s.lastSeq = 0
  isOk : s.isOk = false
  completeData : s.completeData = none
  counterTryOk : s.counterTryOk = 0

lemma Unchecked.push {s : Stream} (h : Unchecked s) (cfg : StreamConfig) (p : StreamPacket) :
    Unchecked ((s.push cfg p).moveBounds p) := by
  unfold Stream.moveBounds Stream.push
  split
  · exact ⟨h.firstSeq, h.lastSeq, rfl, rfl, h.counterTryOk⟩
  · exact ⟨h.firstSeq, h.lastSeq, h.isOk, h.completeData, h.counterTryOk⟩

lemma unchecked_pushAll {s : Stream} (h : Unchecked s) (cfg : StreamConfig)
    (packets : List StreamPacket) : Unchecked (pushAll cfg s packets) := by
  induction packets generalizing s with
  | nil => exact h
  | cons p packets ih => exact ih (h.push cfg p)

namespace Link

def single (ack : Nat) (s : Stream) : Link := ⟨[(0, s)], 1, [0], [(ack, 0)]⟩

lemma pushpacket_new (cfg : StreamConfig) (toDest : Bool) (ack : Nat) (p : StreamPacket) :
    pushpacket cfg toDest ack p new =
      some (single ack (((Stream.new ack toDest).push cfg p).moveBounds p)) := by
  rfl

lemma pushpacket_single (cfg : StreamConfig) (toDest : Bool) (ack : Nat) (p : StreamPacket)
    (s : Stream) : pushpacket cfg toDest ack p (single ack s) =
      some (single ack ((s.push cfg p).moveBounds p)) := by
  have hfind : findOrCreate ack toDest (single ack s) = (0, single ack s) := by
    simp [findOrCreate, single, SortedMap.get]
  rw [pushpacket, hfind]
  rfl

/-- Packets that are pushed one after the other. -/
def pushpackets (cfg : StreamConfig) (toDest : Bool) (ack : Nat) (packets : List StreamPacket)
    (l : Link) : Option Link :=
  packets.foldl (fun l p => l.bind (pushpacket cfg toDest ack p)) (some l)

lemma pushpackets_single (cfg : StreamConfig) (toDest : Bool) (ack : Nat)
    (packets : List StreamPacket) (s : Stream) :
    pushpackets cfg toDest ack packets (single ack s) =
      some (single ack (pushAll cfg s packets)) := by
  induction packets generalizing s with
  | nil => rfl
  | cons p packets ih =>
    rw [pushpackets, List.foldl_cons, Option.bind_some, pushpacket_single, ← pushpackets, ih]
    rfl

lemma pushpackets_new (cfg : StreamConfig) (toDest : Bool) (ack : Nat)
    {packets : List StreamPacket} (hne : packets ≠ []) :
    pushpackets cfg toDest ack packets new =
      some (single ack (pushAll cfg (.new ack toDest) packets)) := by
  cases packets with
  | nil => exact absurd rfl hne
  | cons p packets =>
    rw [pushpackets, List.foldl_cons, Option.bind_some, pushpacket_new, ← pushpackets,
      pushpackets_single]
    rfl

end Link

end VoipMonitor.Tcp
