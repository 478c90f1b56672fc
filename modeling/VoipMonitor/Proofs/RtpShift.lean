import VoipMonitor.Model.RtpSeq

/-!
# The validation of a source under a shift of its numbers

Up to the validation only one test decides: the number is the one behind the last, in an `int`, and
no new begin is taken. Of two runs with shifted numbers only one wraps round at a time, and only one
may take a new begin.
-/

namespace VoipMonitor.Rtp

def Packet.shift (c : Nat) (p : Packet) : Packet := { p with seq := (p.seq + c) % seqMod }

/-- The results of `update_seq` with probation until it returns 1, and the packets counted then. -/
def validation (r : RTP) : List Packet → List Bool × Nat
  | [] => ([], r.stats.received)
  | p :: packets =>
    let q := r.updateSeq false p
    if q.2 then ([true], q.1.stats.received)
    else (false :: (validation q.1 packets).1, (validation q.1 packets).2)

/-- The test with which `update_seq` begins. -/
def RTP.Resets (r : RTP) (p : Packet) : Prop :=
  r.s.lostAt p.seq - r.stats.lastLost > 200 ∧ (p.headerTs - r.s.lastTimeRecJ).natAbs / 1000 < 1000

/-- The number follows the last one, modulo `2 ^ 16`. -/
def RTP.Follows (r : RTP) (p : Packet) : Prop := p.seq = (r.s.maxSeq + 1) % seqMod

/-- Nothing hinders the validation by a number that follows: it has not wrapped round, and it is not
a new begin. -/
def RTP.Counts (r : RTP) (p : Packet) : Prop := p.seq ≠ 0 ∧ ¬r.Resets p

/-- Each number that follows the last one of the probation counts in both runs or in neither, up to
the one that counts. -/
def CountsAlike (c : Nat) : RTP → RTP → List Packet → Prop
  | _, _, [] => True
  | r, r', p :: packets =>
    (r.first = false → r.s.probation = 1 → r.Follows p → (r.Counts p ↔ r'.Counts (p.shift c))) ∧
      ((r.updateSeq false p).2 = false →
        CountsAlike c (r.updateSeq false p).1 (r'.updateSeq false (p.shift c)).1 packets)

variable {r r' : RTP} {p : Packet} {packets : List Packet} {c : Nat}

lemma resetBaseSeq_of_resets (h : r.Resets p) :
    (r.resetBaseSeq p).s.maxSeq = p.seq ∧ (r.resetBaseSeq p).s.probation = r.s.probation ∧
      (r.resetBaseSeq p).first = r.first ∧ (r.resetBaseSeq p).stats = r.stats := by
  have hreset : r.resetBaseSeq p = { r with s := { r.s with
      cycles := r.s.cycles - r.s.baseSeq + r.s.maxSeq
      baseSeq := p.seq
      maxSeq := p.seq } } := if_pos h
  rw [hreset]
  exact ⟨rfl, rfl, rfl, rfl⟩

lemma resetBaseSeq_of_not_resets (h : ¬r.Resets p) : r.resetBaseSeq p = r := if_neg h

lemma resetBaseSeq_frame (r : RTP) (p : Packet) :
    (r.resetBaseSeq p).s.probation = r.s.probation ∧ (r.resetBaseSeq p).first = r.first ∧
      (r.resetBaseSeq p).stats = r.stats := by
  by_cases h : r.Resets p
  · exact (resetBaseSeq_of_resets h).2
  · rw [resetBaseSeq_of_not_resets h]
    exact ⟨rfl, rfl, rfl⟩

lemma updateSeq_first (p : Packet) (h : r.first = true) :
    (r.updateSeq false p).2 = false ∧ (r.updateSeq false p).1.first = false ∧
      (r.updateSeq false p).1.s.probation = minSequential ∧
      (r.updateSeq false p).1.s.maxSeq = (p.seq + seqMod - 1) % seqMod ∧
      (r.updateSeq false p).1.stats = r.stats := by
  obtain ⟨-, hfirst, hstats⟩ := resetBaseSeq_frame r p
  rw [RTP.updateSeq, if_pos (hfirst.trans h)]
  exact ⟨rfl, rfl, rfl, rfl, hstats⟩

lemma next_iff (hseq : p.seq < seqMod) (hmax : r.s.maxSeq < seqMod) :
    p.seq = (r.resetBaseSeq p).s.maxSeq + 1 ↔ r.Follows p ∧ r.Counts p := by
  by_cases hreset : r.Resets p
  · rw [(resetBaseSeq_of_resets hreset).1]
    refine iff_of_false (by omega) fun h => h.2.2 hreset
  · rw [resetBaseSeq_of_not_resets hreset]
    unfold RTP.Follows RTP.Counts
    unfold seqMod at *
    constructor
    · intro h
      exact ⟨by omega, by omega, hreset⟩
    · rintro ⟨hfollows, hne, -⟩
      omega

/-- A packet of the probation is the highest one afterwards. It validates the source if it is in
sequence and the last one to wait for. -/
structure ProbationStep (r : RTP) (p : Packet) (q : RTP × Bool) : Prop where
  validates : q.2 = true ↔ p.seq = (r.resetBaseSeq p).s.maxSeq + 1 ∧ r.s.probation = 1
  first : q.1.first = false
  maxSeq : q.1.s.maxSeq = p.seq
  counted : q.2 = true → q.1.stats.received = (r.stats.received + 1) % 2 ^ 32
  stats : q.2 = false → q.1.stats = r.stats
  waits : q.2 = false → q.1.s.probation = 1

lemma updateSeq_probation (hfirst : r.first = false)
    (hprobation : r.s.probation = 1 ∨ r.s.probation = minSequential) :
    ProbationStep r p (r.updateSeq false p) := by
  obtain ⟨hprobation', hfirst', hstats⟩ := resetBaseSeq_frame r p
  have hwaits : r.s.probation ≠ 0 := by
    rcases hprobation with h | h <;> rw [h] <;> decide
  rw [RTP.updateSeq]
  rw [hfirst', hfirst, if_neg Bool.false_ne_true, hprobation', if_pos hwaits]
  by_cases hnext : p.seq = (r.resetBaseSeq p).s.maxSeq + 1
  · rw [if_pos hnext]
    by_cases hlast : r.s.probation - 1 = 0
    · rw [if_pos hlast]
      refine ⟨iff_of_true rfl ⟨hnext, by omega⟩, rfl, rfl, fun _ => ?_, nofun, nofun⟩
      change ((r.resetBaseSeq p).stats.received + 1) % 2 ^ 32 = _
      rw [hstats]
    · rw [if_neg hlast]
      refine ⟨iff_of_false Bool.false_ne_true (fun h => hlast (by omega)), rfl, rfl, nofun,
        fun _ => hstats, fun _ => ?_⟩
      rw [hprobation.resolve_left (by omega)]
      rfl
  · rw [if_neg hnext]
    exact ⟨iff_of_false Bool.false_ne_true (fun h => hnext h.1), rfl, rfl, nofun,
      fun _ => hstats, fun _ => rfl⟩

structure Shifted (c : Nat) (r r' : RTP) : Prop where
  first : r.first = false
  first' : r'.first = false
  waits : r.s.probation = 1 ∨ r.s.probation = minSequential
  probation : r'.s.probation = r.s.probation
  maxSeq_lt : r.s.maxSeq < seqMod
  maxSeq : r'.s.maxSeq = (r.s.maxSeq + c) % seqMod
  received : r'.stats.received = r.stats.received

lemma Shifted.waits' (h : Shifted c r r') :
    r'.s.probation = 1 ∨ r'.s.probation = minSequential := by
  rw [h.probation]
  exact h.waits

lemma Shifted.follows_iff (h : Shifted c r r') (hseq : p.seq < seqMod) :
    r'.Follows (p.shift c) ↔ r.Follows p := by
  have hmax := h.maxSeq
  unfold RTP.Follows Packet.shift
  dsimp only
  unfold seqMod at *
  omega

lemma Packet.shift_lt (c : Nat) (p : Packet) : (p.shift c).seq < seqMod := Nat.mod_lt _ (by decide)

lemma Shifted.validates_iff (h : Shifted c r r') (hseq : p.seq < seqMod) :
    ((r.updateSeq false p).2 = (r'.updateSeq false (p.shift c)).2) ↔
      (r.s.probation = 1 → r.Follows p → (r.Counts p ↔ r'.Counts (p.shift c))) := by
  have hmax' : r'.s.maxSeq < seqMod := by
    rw [h.maxSeq]
    exact Nat.mod_lt _ (by decide)
  have hone := (updateSeq_probation h.first h.waits : ProbationStep r p _).validates
  have hone' := (updateSeq_probation h.first' h.waits' : ProbationStep r' (p.shift c) _).validates
  rw [next_iff hseq h.maxSeq_lt] at hone
  rw [next_iff (p.shift_lt c) hmax', h.follows_iff hseq, h.probation] at hone'
  rw [Bool.eq_iff_iff, hone, hone', and_congr_left_iff]
  exact forall_congr' (fun _ => and_congr_right_iff)

lemma Shifted.step (h : Shifted c r r') (hseq : p.seq < seqMod)
    (hok : (r.updateSeq false p).2 = false) (hok' : (r'.updateSeq false (p.shift c)).2 = false) :
    Shifted c (r.updateSeq false p).1 (r'.updateSeq false (p.shift c)).1 := by
  have hone : ProbationStep r p _ := updateSeq_probation h.first h.waits
  have hone' : ProbationStep r' (p.shift c) _ := updateSeq_probation h.first' h.waits'
  refine ⟨hone.first, hone'.first, Or.inl (hone.waits hok),
    (hone'.waits hok').trans (hone.waits hok).symm, ?_, ?_, ?_⟩
  · rw [hone.maxSeq]
    exact hseq
  · rw [hone.maxSeq, hone'.maxSeq]
    rfl
  · rw [hone.stats hok, hone'.stats hok']
    exact h.received

lemma Shifted.validation_iff (h : Shifted c r r') (hseq : ∀ p ∈ packets, p.seq < seqMod) :
    validation r packets = validation r' (packets.map (Packet.shift c)) ↔
      CountsAlike c r r' packets := by
  induction packets generalizing r r' with
  | nil =>
    rw [List.map_nil, validation, validation, h.received]
    exact iff_of_true rfl trivial
  | cons p packets ih =>
    rw [List.forall_mem_cons] at hseq
    have hone := h.validates_iff hseq.1
    rw [List.map_cons, validation, validation, CountsAlike]
    simp only [h.first, forall_const]
    rw [← hone]
    cases hok : (r.updateSeq false p).2 with
    | true =>
      cases hok' : (r'.updateSeq false (p.shift c)).2 with
      | true =>
        have hcounted := (updateSeq_probation h.first h.waits : ProbationStep r p _).counted hok
        have hcounted' :=
          (updateSeq_probation h.first' h.waits' : ProbationStep r' (p.shift c) _).counted hok'
        rw [if_pos rfl, if_pos rfl, hcounted, hcounted', h.received]
        exact iff_of_true rfl ⟨rfl, fun hnot => absurd hnot (by decide)⟩
      | false =>
        rw [if_pos rfl, if_neg Bool.false_ne_true]
        refine iff_of_false (fun heq => ?_) (fun halike => absurd halike.1 (by decide))
        exact absurd (List.cons.inj (Prod.mk.inj heq).1).1 (by decide)
    | false =>
      cases hok' : (r'.updateSeq false (p.shift c)).2 with
      | true =>
        rw [if_neg Bool.false_ne_true, if_pos rfl]
        refine iff_of_false (fun heq => ?_) (fun halike => absurd halike.1 (by decide))
        exact absurd (List.cons.inj (Prod.mk.inj heq).1).1 (by decide)
      | false =>
        have hrest := ih (h.step hseq.1 hok hok') hseq.2
        rw [if_neg Bool.false_ne_true, if_neg Bool.false_ne_true, ← hrest, Prod.mk.injEq,
          List.cons.injEq, Prod.ext_iff]
        constructor
        · rintro ⟨⟨-, hresults⟩, hreceived⟩
          exact ⟨rfl, fun _ => ⟨hresults, hreceived⟩⟩
        · rintro ⟨-, hrest⟩
          obtain ⟨hresults, hreceived⟩ := hrest rfl
          exact ⟨⟨rfl, hresults⟩, hreceived⟩

/-- The validation of a new stream does not depend on a shift of the numbers exactly if each number
that follows the last one of the probation counts in both runs or in neither. -/
theorem validation_shift_iff (r : RTP) (c : Nat) (packets : List Packet) (hfirst : r.first = true)
    (hseq : ∀ p ∈ packets, p.seq < seqMod) :
    validation r packets = validation r (packets.map (Packet.shift c)) ↔
      CountsAlike c r r packets := by
  cases packets with
  | nil => exact iff_of_true rfl trivial
  | cons p packets =>
    rw [List.forall_mem_cons] at hseq
    obtain ⟨hok, hopen, hprobation, hmax, hstats⟩ := updateSeq_first p hfirst
    obtain ⟨hok', hopen', hprobation', hmax', hstats'⟩ := updateSeq_first (p.shift c) hfirst
    have hshifted : Shifted c (r.updateSeq false p).1 (r.updateSeq false (p.shift c)).1 := by
      refine ⟨hopen, hopen', Or.inr hprobation, hprobation'.trans hprobation.symm, ?_, ?_, ?_⟩
      · rw [hmax]
        exact Nat.mod_lt _ (by decide)
      · rw [hmax, hmax']
        unfold Packet.shift
        dsimp only
        unfold seqMod at *
        omega
      · rw [hstats, hstats']
    rw [List.map_cons, validation, validation, CountsAlike]
    rw [hok, hok', if_neg Bool.false_ne_true, if_neg Bool.false_ne_true, Prod.mk.injEq,
      List.cons.injEq]
    have hrest := hshifted.validation_iff hseq.2
    rw [Prod.ext_iff] at hrest
    constructor
    · rintro ⟨⟨-, hresults⟩, hreceived⟩
      exact ⟨fun hnot => absurd (hfirst.symm.trans hnot) (by decide),
        fun _ => hrest.mp ⟨hresults, hreceived⟩⟩
    · rintro ⟨-, halike⟩
      obtain ⟨hresults, hreceived⟩ := hrest.mpr (halike rfl)
      exact ⟨⟨rfl, hresults⟩, hreceived⟩

def newStream : RTP where
  first := true
  s := ⟨0, 0, 0, 0, 0, 0, 0⟩
  stats := ⟨0, 0, 0, 0⟩
  lastSeq := 0
  lastVoiceFrameTs := 0
  forcemark2 := false
  isVideo := false

def threePackets (seq : Nat) : List Packet :=
  [⟨seq, 1000000, false, false⟩, ⟨seq + 1, 1020000, false, false⟩,
    ⟨seq + 2, 1040000, false, false⟩]

theorem countsAlike_three : CountsAlike 5 newStream newStream (threePackets 10) :=
  (validation_shift_iff newStream 5 (threePackets 10) rfl (by decide)).mp (by decide +kernel)

/-- The third number wraps round to 0 in the shifted run only. -/
theorem validation_depends_on_shift :
    ¬∀ (r : RTP) (c : Nat) (packets : List Packet), r.first = true →
      (∀ p ∈ packets, p.seq < seqMod) →
      validation r packets = validation r (packets.map (Packet.shift c)) := by
  intro h
  have hplain : validation newStream (threePackets 65533) = ([false, false, true], 1) := by
    decide +kernel
  have hshifted : validation newStream ((threePackets 65533).map (Packet.shift 1)) =
      ([false, false, false], 0) := by
    decide +kernel
  have heq := h newStream 1 (threePackets 65533) rfl (by decide)
  rw [hplain, hshifted] at heq
  exact absurd heq (by decide)

end VoipMonitor.Rtp
