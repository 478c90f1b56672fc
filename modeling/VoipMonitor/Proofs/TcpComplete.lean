import VoipMonitor.Library.Cuts
import VoipMonitor.Model.TcpStream

/-!
# The data of a row of packets

`complete` adds the bytes of the packets one after the other. Of a packet that reaches into the
next one, but not behind it, the end is cut off; no other bytes are ever cut.
-/

namespace VoipMonitor.Tcp.Stream
open VoipMonitor.Library

def overlap (p q : Nat × Nat) : Nat := if q.1 < p.2 ∧ p.2 < q.2 then p.2 - q.1 else 0

def rowBytes (bytes : Nat × Nat → Bytes) : List (Nat × Nat) → Bytes
  | [] => []
  | [p] => bytes p
  | p :: q :: row => (bytes p).take ((bytes p).length - overlap p q) ++ rowBytes bytes (q :: row)

def BuffOk (c : Completing) : Prop :=
  (c.buffLen = 0 ∧ c.data = []) ∨ c.data.length + 1 ≤ c.buffLen

lemma buffOk_cutOverlap {c : Completing} (h : BuffOk c) (p : Nat × Nat) :
    BuffOk (cutOverlap c p) := by
  unfold cutOverlap
  split
  · rcases h with ⟨hbuff, hdata⟩ | hlen
    · exact .inl ⟨hbuff, by rw [hdata]; exact List.take_nil⟩
    · refine .inr ?_
      dsimp only
      rw [List.length_take]
      omega
  · exact h

lemma addBytes_some {c : Completing} (h : BuffOk c) (p : Nat × Nat) (bytes : Bytes) :
    ∃ c', addBytes c p bytes = some c' ∧ c'.data = c.data ++ bytes ∧ BuffOk c' ∧
      c'.buffLen ≠ 0 ∧ c'.index = c.index ++ [⟨p.1, p.2, bytes.length⟩] := by
  unfold addBytes
  have hlen : c.buffLen = 0 → c.data.length = 0 := by
    intro hzero
    rcases h with ⟨-, hdata⟩ | hlen
    · rw [hdata]
      rfl
    · omega
  rw [if_pos]
  · refine ⟨_, rfl, rfl, .inr ?_, ?_, rfl⟩
    · dsimp only
      rw [List.length_append]
      split_ifs with hzero hless
      · have := hlen hzero
        omega
      · rcases h with ⟨hzero', -⟩ | hlen'
        · exact absurd hzero' hzero
        · omega
      · omega
    · dsimp only
      split_ifs <;> omega
  · split_ifs with hzero hless
    · have := hlen hzero
      omega
    · rcases h with ⟨hzero', -⟩ | hlen'
      · exact absurd hzero' hzero
      · omega
    · omega

section Row
variable {cfg : StreamConfig} {s : Stream} {bytes : Nat × Nat → Bytes}

structure Gives (cfg : StreamConfig) (s : Stream) (isFirst : Bool) (p : Nat × Nat)
    (bytes : Bytes) : Prop where
  packet : ∃ packet, s.getPacket p.1 p.2 = some packet ∧ packet.datalen ≠ 0 ∧
    ¬(cfg.ignoreZeroData ∧ packet.data.head? = some 0) ∧ packetBytes s isFirst p packet = bytes
  ne_nil : bytes ≠ []

lemma completeStep_some {c : Completing} (h : BuffOk c) {isFirst : Bool} {p : Nat × Nat}
    {b : Bytes} (hp : Gives cfg s isFirst p b) :
    ∃ c', completeStep cfg s isFirst c p = some c' ∧ c'.data = (cutOverlap c p).data ++ b ∧
      BuffOk c' ∧ c'.buffLen ≠ 0 ∧ c'.lastNextSeq = p.2 ∧
      c'.index = (cutOverlap c p).index ++ [⟨p.1, p.2, b.length⟩] := by
  obtain ⟨packet, hget, hlen, hzero, hbytes⟩ := hp.packet
  rw [completeStep, hget]
  dsimp only
  rw [if_pos ⟨hlen, hzero⟩, hbytes, if_pos (List.length_pos_iff.mpr hp.ne_nil)]
  have hbuff : BuffOk { c with seq := if c.seq = 0 then packet.seq else c.seq } := h
  obtain ⟨c', hadd, hdata, hok, hne, hindex⟩ := addBytes_some (buffOk_cutOverlap hbuff p) p _
  rw [hadd]
  have hcut : ∀ seq, (cutOverlap { c with seq := seq } p).data = (cutOverlap c p).data ∧
      (cutOverlap { c with seq := seq } p).index = (cutOverlap c p).index := by
    intro seq
    unfold cutOverlap
    split <;> exact ⟨rfl, rfl⟩
  refine ⟨{ c' with lastNextSeq := p.2 }, rfl, ?_, hok, hne, rfl, ?_⟩
  · rw [← (hcut _).1]
    exact hdata
  · rw [← (hcut _).2]
    exact hindex

def indexItem (bytes : Nat × Nat → Bytes) (p : Nat × Nat) : IndexItem :=
  ⟨p.1, p.2, (bytes p).length⟩

lemma completeLoop_rest {row : List (Nat × Nat)} {p : Nat × Nat} {pre b : Bytes} {c : Completing}
    (hbuff : BuffOk c) (hc : c.buffLen ≠ 0) (hdata : c.data = pre ++ b)
    (hlast : c.lastNextSeq = p.2) (hb : bytes p = b)
    (hrow : ∀ q ∈ row, Gives cfg s false q (bytes q))
    (hover : (p :: row).IsChain (fun p q => overlap p q ≤ (bytes p).length)) :
    ∃ c', completeLoop cfg s false row c = some c' ∧ c'.data = pre ++ rowBytes bytes (p :: row) ∧
      c'.buffLen ≠ 0 ∧ ((p :: row).IsChain (fun p q => overlap p q = 0) →
        c'.index = c.index ++ row.map (indexItem bytes)) := by
  induction row generalizing p pre b c with
  | nil => exact ⟨c, rfl, by rw [rowBytes, hdata, hb], hc, fun _ => by rw [List.map_nil, List.append_nil]⟩
  | cons q row ih =>
    obtain ⟨hle, hchain⟩ := List.isChain_cons_cons.mp hover
    have hcut : (cutOverlap c q).data = pre ++ b.take (b.length - overlap p q) := by
      unfold cutOverlap overlap
      rw [hlast]
      by_cases hov : q.1 < p.2 ∧ p.2 < q.2
      · have hlen : p.2 - q.1 ≤ b.length := by
          rw [overlap, if_pos hov, hb] at hle
          exact hle
        rw [if_pos ⟨hov.1, hov.2, by rw [hdata, List.length_append]; omega⟩, if_pos hov]
        dsimp only
        rw [hdata, List.length_append, List.take_append]
        have h1 : pre.length ≤ pre.length + b.length - (p.2 - q.1) := by omega
        rw [List.take_of_length_le h1]
        congr 2
        omega
      · rw [if_neg (fun h => hov ⟨h.1, h.2.1⟩), if_neg hov, Nat.sub_zero, List.take_length, hdata]
    have hindexcut : overlap p q = 0 → (cutOverlap c q).index = c.index := by
      unfold cutOverlap overlap
      rw [hlast]
      intro hov
      rw [if_neg]
      rintro ⟨h1, h2, -⟩
      rw [if_pos ⟨h1, h2⟩] at hov
      omega
    obtain ⟨c', hstep, hdata', hbuff', hne', hlast', hindex'⟩ :=
      completeStep_some hbuff (hrow q List.mem_cons_self)
    rw [hcut] at hdata'
    obtain ⟨c'', hloop, hdata'', hne'', hindex''⟩ := ih hbuff' hne' hdata' hlast' rfl
      (fun r hr => hrow r (List.mem_cons_of_mem _ hr)) hchain
    refine ⟨c'', ?_, ?_, hne'', ?_⟩
    · rw [completeLoop, hstep]
      exact hloop
    · rw [hdata'', rowBytes, hb, List.append_assoc]
    · intro hzero
      obtain ⟨hpq, hrest⟩ := List.isChain_cons_cons.mp hzero
      rw [hindex'' hrest, hindex', hindexcut hpq, List.append_assoc, List.map_cons]
      rfl

theorem complete_row {p : Nat × Nat} {row : List (Nat × Nat)} (hok : s.okPackets = p :: row)
    (hp : Gives cfg s true p (bytes p)) (hrow : ∀ q ∈ row, Gives cfg s false q (bytes q))
    (hover : (p :: row).IsChain (fun p q => overlap p q ≤ (bytes p).length)) :
    ∃ c, complete cfg s = some c ∧ c.data = rowBytes bytes (p :: row) ∧ c.buffLen ≠ 0 ∧
      ((p :: row).IsChain (fun p q => overlap p q = 0) →
        c.index = (p :: row).map (indexItem bytes)) := by
  have hbuff : BuffOk ⟨[], 0, 0, [], 0⟩ := .inl ⟨rfl, rfl⟩
  obtain ⟨c, hstep, hdata, hbuff', hne, hlast, hindex⟩ := completeStep_some hbuff hp
  have hcut : cutOverlap ⟨[], 0, 0, [], 0⟩ p = ⟨[], 0, 0, [], 0⟩ := by
    rw [cutOverlap, if_neg]
    intro h
    exact absurd h.1 (Nat.not_lt_zero _)
  rw [hcut] at hdata hindex
  obtain ⟨c', hloop, hdata', hne', hindex'⟩ :=
    completeLoop_rest hbuff' hne hdata hlast rfl hrow hover
  refine ⟨c', ?_, hdata', hne', ?_⟩
  · rw [complete, hok, completeLoop, hstep]
    exact hloop
  · intro hzero
    rw [hindex' hzero, hindex]
    rfl

theorem saveCompleteData_row {p : Nat × Nat} {row : List (Nat × Nat)} (hisOk : s.isOk = true)
    (hnone : s.completeData = none) (hok : s.okPackets = p :: row)
    (hp : Gives cfg s true p (bytes p)) (hrow : ∀ q ∈ row, Gives cfg s false q (bytes q))
    (hover : (p :: row).IsChain (fun p q => overlap p q ≤ (bytes p).length)) :
    ∃ seq index, saveCompleteData cfg s =
      some { s with completeData := some ⟨rowBytes bytes (p :: row), seq⟩
                    completeDataIndex := index } ∧
      ((p :: row).IsChain (fun p q => overlap p q = 0) →
        index = (p :: row).map (indexItem bytes)) := by
  obtain ⟨c, hcomplete, hdata, hbuff, hindex⟩ := complete_row hok hp hrow hover
  refine ⟨c.seq, c.index, ?_, hindex⟩
  rw [saveCompleteData, if_pos ⟨hisOk, by rw [hnone]; rfl⟩, hcomplete, Option.map_some, if_pos hbuff,
    hdata]

end Row

/-- `q` begins at the end of `p`, or it begins within `p` and ends behind it. -/
def Follows (p q : Nat × Nat) : Prop := q.1 = p.2 ∨ (p.1 ≤ q.1 ∧ q.1 < p.2 ∧ p.2 < q.2)

/-- The bytes of `D` at the place of a packet, when `D` begins at `base`. -/
def bytesAt (base : Nat) (D : Bytes) (p : Nat × Nat) : Bytes := part D (p.1 - base) (p.2 - base)

def Inside (base : Nat) (D : Bytes) (p : Nat × Nat) : Prop :=
  base ≤ p.1 ∧ p.1 < p.2 ∧ p.2 ≤ base + D.length

lemma take_part {s : Bytes} {a b c : Nat} (hab : a ≤ b) (hbc : b ≤ c) (hc : c ≤ s.length) :
    (part s a c).take (b - a) = part s a b := by
  rw [← part_append hab hbc]
  exact List.take_left' (length_part hab (hbc.trans hc))

section Row
variable {base : Nat} {D : Bytes}

lemma length_bytesAt {p : Nat × Nat} (h : Inside base D p) :
    (bytesAt base D p).length = p.2 - p.1 := by
  unfold Inside at h
  rw [bytesAt, length_part (by omega) (by omega)]
  omega

lemma take_bytesAt {p q : Nat × Nat} (hp : Inside base D p) (h : Follows p q) :
    (bytesAt base D p).take ((bytesAt base D p).length - overlap p q) =
      part D (p.1 - base) (q.1 - base) := by
  rw [length_bytesAt hp, overlap, bytesAt]
  unfold Inside at hp
  rcases h with h | h
  · rw [if_neg (by omega), h, Nat.sub_zero]
    refine List.take_of_length_le ?_
    rw [length_part (by omega) (by omega)]
    omega
  · rw [if_pos h.2, show p.2 - p.1 - (p.2 - q.1) = q.1 - base - (p.1 - base) by omega]
    exact take_part (by omega) (by omega) (by omega)

lemma rowBytes_of_follows {p : Nat × Nat} {row : List (Nat × Nat)}
    (hinside : ∀ q ∈ p :: row, Inside base D q) (hrow : (p :: row).IsChain Follows) :
    ∀ last ∈ (p :: row).getLast?, p.1 ≤ last.2 ∧
      rowBytes (bytesAt base D) (p :: row) = part D (p.1 - base) (last.2 - base) := by
  induction row generalizing p with
  | nil =>
    intro last hlast
    rw [List.getLast?_singleton, Option.mem_some_iff] at hlast
    rw [← hlast]
    exact ⟨(hinside p (by simp)).2.1.le, rfl⟩
  | cons q row ih =>
    obtain ⟨hpq, hchain⟩ := List.isChain_cons_cons.mp hrow
    intro last hlast
    rw [List.getLast?_cons_cons] at hlast
    obtain ⟨hle, hih⟩ := ih (fun r hr => hinside r (List.mem_cons_of_mem _ hr)) hchain last hlast
    have hp := hinside p List.mem_cons_self
    have hpq1 : p.1 ≤ q.1 := by
      rcases hpq with h | h
      · exact hp.2.1.le.trans h.ge
      · exact h.1
    refine ⟨hpq1.trans hle, ?_⟩
    rw [rowBytes, take_bytesAt hp hpq, hih]
    exact part_append (by omega) (by omega)

end Row

end VoipMonitor.Tcp.Stream
