import VoipMonitor.Library.Runs
import VoipMonitor.Model.RtpSeq

/-!
# Lost packets over a whole stream

After `update_stats` the number of lost packets at the highest number is the stored one. A packet
that advances the highest number by `d` adds `d - 1` to it, a packet behind it takes one away.
This goes on as long as no packet lags over the wrap of the numbers.
-/

namespace VoipMonitor.Rtp
open VoipMonitor.Library

/-! ## Runs of packets -/

/-- A packet relative to the highest number: ahead of it, or on it or behind it. -/
inductive Move where
  | advance (d : Nat)
  | lag (k : Nat)

structure Act where
  move : Move
  headerTs : Int

def Move.seq (highest : Nat) : Move → Nat
  | .advance d => (highest + d) % seqMod
  | .lag k => (highest + seqMod - k) % seqMod

/-- The packets that are missed in front of the packet. -/
def Move.missed : Move → Nat
  | .advance d => d - 1
  | .lag _ => 0

/-- A stream with its true highest number and what has been sent since the start. -/
structure Watch where
  rtp : RTP
  highest : Nat
  missed : Nat
  packets : Nat

def Watch.step (disableProbation : Bool) (w : Watch) (a : Act) : Option Watch :=
  some {
    rtp := w.rtp.packet disableProbation [] ⟨a.move.seq w.highest, a.headerTs, false, false⟩
    highest := match a.move with
      | .advance _ => a.move.seq w.highest
      | .lag _ => w.highest
    missed := w.missed + a.move.missed
    packets := w.packets + 1 }

/-- At most 200 ahead, at most 99 behind. -/
def Move.Near : Move → Prop
  | .advance d => 1 ≤ d ∧ d ≤ 200
  | .lag k => k ≤ 99

instance (m : Move) : Decidable m.Near :=
  match m with
  | .advance d => inferInstanceAs (Decidable (1 ≤ d ∧ d ≤ 200))
  | .lag k => inferInstanceAs (Decidable (k ≤ 99))

/-- A packet of the stream, less than a second apart from the one before. Times are later than the
first second of the epoch. -/
def Usual (w : Watch) (a : Act) : Prop :=
  a.move.Near ∧ (a.headerTs - w.rtp.s.lastTimeRecJ).natAbs < 1000000 ∧ 1000000 ≤ a.headerTs

instance (w : Watch) (a : Act) : Decidable (Usual w a) := inferInstanceAs (Decidable (_ ∧ _))

/-- A packet behind the highest number does not lag over the wrap, and the counters of a packet
ahead do not overflow. -/
def Move.Plain (w : Watch) : Move → Prop
  | .advance d => w.rtp.stats.lastLost + d < 2 ^ 31 ∧ w.rtp.stats.lost + (d - 1) < 2 ^ 32
  | .lag k => k ≤ w.highest

instance (w : Watch) (m : Move) : Decidable (m.Plain w) :=
  match m with
  | .advance d => inferInstanceAs
      (Decidable (w.rtp.stats.lastLost + d < 2 ^ 31 ∧ w.rtp.stats.lost + (d - 1) < 2 ^ 32))
  | .lag k => inferInstanceAs (Decidable (k ≤ w.highest))

def Undisturbed (w : Watch) (a : Act) : Prop :=
  Usual w a ∧ a.move.Plain w ∧ w.rtp.stats.received + 1 < 2 ^ 32 ∧ w.rtp.s.received + 1 < 2 ^ 32

instance (w : Watch) (a : Act) : Decidable (Undisturbed w a) := inferInstanceAs (Decidable (_ ∧ _))

/-- A validated audio stream before `update_stats`. -/
structure Validated (r : RTP) : Prop where
  first : r.first = false
  probation : r.s.probation = 0
  video : r.isVideo = false
  voice : r.lastVoiceFrameTs / 1000000 ≠ 0
  received : 0 < r.s.received
  maxSeq : r.s.maxSeq < seqMod
  lastSeq : 0 ≤ r.lastSeq

/-- The stream after an `update_stats` for a voice packet. -/
def begin (r : RTP) (p : Packet) : Watch :=
  ⟨r.updateStats [] p, r.s.maxSeq, 0, 0⟩

/-- The counters have grown by the missed and by the received packets. -/
def Exact (start w : Watch) : Prop :=
  w.rtp.stats.lost = start.rtp.stats.lost + w.missed ∧
    w.rtp.stats.received = start.rtp.stats.received + w.packets

/-! ## One packet -/

structure Settled (r : RTP) (highest : Nat) : Prop extends Validated r where
  forcemark : r.forcemark2 = false
  highest_eq : r.s.maxSeq = highest
  lost_eq : r.s.lostAt r.s.maxSeq = r.stats.lastLost
  lost_nonneg : 0 ≤ r.stats.lastLost

lemma toInt_eq (x : Int) : toInt x =
    if x % 4294967296 < 2147483648 then x % 4294967296 else x % 4294967296 - 4294967296 := rfl

lemma toInt_bounds (x : Int) : -2 ^ 31 ≤ toInt x ∧ toInt x < 2 ^ 31 := by
  rw [toInt_eq]
  split
  · omega
  · omega

lemma toInt_add {x e : Int} (hlow : -2 ^ 31 ≤ toInt x + e) (hhigh : toInt x + e < 2 ^ 31) :
    toInt (x + e) = toInt x + e := by
  rw [toInt_eq] at hlow hhigh ⊢
  rw [toInt_eq]
  split_ifs at hlow hhigh ⊢
  all_goals omega

lemma Source.lostAt_eq {s t : Source} {a b : Nat} (e : Int) (hbase : t.baseSeq = s.baseSeq)
    (hsum : t.cycles + b - t.received = s.cycles + a - s.received + e)
    (hlow : -2 ^ 31 ≤ s.lostAt a + e) (hhigh : s.lostAt a + e < 2 ^ 31) :
    t.lostAt b = s.lostAt a + e := by
  unfold Source.lostAt at *
  rw [← toInt_add hlow hhigh, hbase]
  congr 1
  omega

lemma interlaced_nil (s : Source) {lastSeq : Int} (h : 0 ≤ lastSeq) (lost : Int) :
    s.interlaced lastSeq lost [] = s := by
  unfold Source.interlaced
  rw [if_neg]
  rintro ⟨-, -, hseq, -⟩
  exact absurd hseq (not_lt.mpr h)

lemma toU32_of_lt {n : Int} (hlow : 0 ≤ n) (h : n < 2 ^ 32) : (toU32 n : Int) = n := by
  unfold toU32
  omega

lemma Source.lostAt_clampLost (s : Source) :
    (s.clampLost (s.lostAt s.maxSeq)).lostAt (s.clampLost (s.lostAt s.maxSeq)).maxSeq =
      max (s.lostAt s.maxSeq) 0 := by
  unfold Source.clampLost
  split
  · rename_i hneg
    have h := @Source.lostAt_eq s { s with cycles := s.cycles - s.lostAt s.maxSeq } s.maxSeq s.maxSeq
      (-s.lostAt s.maxSeq) rfl (by dsimp only; omega) (by omega) (by omega)
    rw [show ({ s with cycles := s.cycles - s.lostAt s.maxSeq } : Source).maxSeq = s.maxSeq from rfl, h]
    omega
  · omega

def RTP.counted (r : RTP) (cycles : Int) (m : Nat) : RTP :=
  { r with
    s := { r.s with cycles := cycles, maxSeq := m, received := r.s.received + 1 }
    stats := { r.stats with received := r.stats.received + 1 } }

lemma countReceived_eq (r : RTP) (cycles : Int) (m : Nat) (hreceived : r.s.received + 1 < 2 ^ 32)
    (hstats : r.stats.received + 1 < 2 ^ 32) :
    RTP.countReceived { r with s := { r.s with cycles := cycles, maxSeq := m } } =
      r.counted cycles m := by
  unfold RTP.countReceived RTP.counted
  rw [Nat.mod_eq_of_lt hreceived, Nat.mod_eq_of_lt hstats]

lemma resetBaseSeq_eq {r : RTP} {p : Packet} (h : r.s.lostAt p.seq - r.stats.lastLost ≤ 200) :
    r.resetBaseSeq p = r := by
  unfold RTP.resetBaseSeq
  rw [if_neg fun hreset => absurd hreset.1 (by omega)]

lemma advance_seq {highest d : Nat} (hmax : highest < seqMod) (hd : d ≤ 200) :
    ((highest + d) % seqMod = highest + d ∨ (highest + d) % seqMod + 65536 = highest + d) ∧
      (highest + d) % seqMod < seqMod ∧ ((highest + d) % seqMod + seqMod - highest) % seqMod = d := by
  unfold seqMod at *
  omega

lemma lag_seq {highest k : Nat} (hmax : highest < seqMod) (hwrap : k ≤ highest) :
    (highest + seqMod - k) % seqMod = highest - k := by
  unfold seqMod at *
  omega

lemma lag_udelta {highest k : Nat} (hmax : highest < seqMod) (hwrap : k ≤ highest) :
    (highest - k + seqMod - highest) % seqMod = if k = 0 then 0 else 65536 - k := by
  unfold seqMod at *
  split
  · omega
  · omega

lemma updateSeq_eq {r : RTP} (dis : Bool) (p : Packet) (h : Validated r)
    (hgrow : r.s.lostAt p.seq - r.stats.lastLost ≤ 200) :
    r.updateSeq dis p =
      if (p.seq + seqMod - r.s.maxSeq) % seqMod < maxDropout then
        ({ r with s := { r.s with
          cycles := if p.seq < r.s.maxSeq then r.s.cycles + seqMod else r.s.cycles
          maxSeq := p.seq } }.countReceived, true)
      else if (p.seq + seqMod - r.s.maxSeq) % seqMod ≤ seqMod - maxMisorder then
        if p.seq = r.s.badSeq then ({ r with s := r.s.initSeq p.seq }.countReceived, true)
        else ({ r with s := { r.s with badSeq := (p.seq + 1) % seqMod } }, false)
      else (r.countReceived, true) := by
  have hwrap : (p.seq < r.s.maxSeq ∧ (¬dis = true ∨ r.s.received > 0)) ↔ p.seq < r.s.maxSeq :=
    and_iff_left (Or.inr h.received)
  rw [RTP.updateSeq, resetBaseSeq_eq hgrow, h.first]
  simp only [Bool.false_eq_true, if_false, h.probation, ne_eq, not_true, hwrap]

lemma updateSeq_advance {r : RTP} {highest d : Nat} {ts : Int} (dis : Bool) (h : Settled r highest)
    (hd : 1 ≤ d ∧ d ≤ 200) (hlost : r.stats.lastLost + d < 2 ^ 31)
    (hreceived : r.s.received + 1 < 2 ^ 32) (hstats : r.stats.received + 1 < 2 ^ 32) :
    ∃ cycles : Int, r.updateSeq dis ⟨(highest + d) % seqMod, ts, false, false⟩ =
        (r.counted cycles ((highest + d) % seqMod), true) ∧
      cycles + ((highest + d) % seqMod : Nat) = r.s.cycles + highest + d := by
  obtain rfl := h.highest_eq
  have hmax := h.maxSeq
  have hnonneg := h.lost_nonneg
  obtain ⟨hcases, hlt, hudelta⟩ := advance_seq hmax hd.2
  generalize hq : (r.s.maxSeq + d) % seqMod = q at hcases hlt hudelta ⊢
  have hmod : (seqMod : Int) = 65536 := rfl
  -- the heuristic sees a growth of `d`, or a fall if the number has wrapped
  have hgrow : r.s.lostAt q - r.stats.lastLost ≤ 200 := by
    have heq := @Source.lostAt_eq r.s r.s r.s.maxSeq q ((q : Int) - r.s.maxSeq) rfl (by omega)
      (by rw [h.lost_eq]; omega) (by rw [h.lost_eq]; omega)
    rw [heq, h.lost_eq]
    omega
  rw [updateSeq_eq dis ⟨_, ts, false, false⟩ h.toValidated hgrow, hudelta, if_pos (by unfold maxDropout; omega),
    countReceived_eq _ _ _ hreceived hstats]
  refine ⟨if q < r.s.maxSeq then r.s.cycles + seqMod else r.s.cycles, rfl, ?_⟩
  split
  · omega
  · omega

lemma updateSeq_lag {r : RTP} {highest k : Nat} {ts : Int} (dis : Bool) (h : Settled r highest)
    (hk : k ≤ 99) (hwrap : k ≤ highest) (hreceived : r.s.received + 1 < 2 ^ 32)
    (hstats : r.stats.received + 1 < 2 ^ 32) :
    r.updateSeq dis ⟨(highest + seqMod - k) % seqMod, ts, false, false⟩ =
      (r.counted r.s.cycles highest, true) := by
  obtain rfl := h.highest_eq
  have hmax := h.maxSeq
  have hnonneg := h.lost_nonneg
  have hgrow : r.s.lostAt (r.s.maxSeq - k) - r.stats.lastLost ≤ 200 := by
    have hlast : r.stats.lastLost < 2 ^ 31 := by
      rw [← h.lost_eq]
      exact (toInt_bounds _).2
    have heq := @Source.lostAt_eq r.s r.s r.s.maxSeq (r.s.maxSeq - k) (-(k : Int)) rfl (by omega)
      (by rw [h.lost_eq]; omega) (by rw [h.lost_eq]; omega)
    rw [heq, h.lost_eq]
    omega
  rw [lag_seq hmax hwrap, updateSeq_eq dis ⟨_, ts, false, false⟩ h.toValidated hgrow, lag_udelta hmax hwrap]
  by_cases hzero : k = 0
  · rw [hzero, if_pos rfl, if_pos (by decide), Nat.sub_zero, if_neg (Nat.lt_irrefl _),
      countReceived_eq _ _ _ hreceived hstats]
  · have hmis : ¬65536 - k ≤ seqMod - maxMisorder := by
      unfold seqMod maxMisorder
      omega
    rw [if_neg hzero, if_neg (by unfold maxDropout; omega), if_neg hmis,
      ← countReceived_eq _ _ _ hreceived hstats]

lemma updateStats_eq {r : RTP} {p : Packet} (h : Validated r) (hevent : p.televent = false)
    (hdtmf : p.dtmf = false) : r.updateStats [] p =
      RTP.addLost { r with
        s := { r.s.clampLost (r.s.lostAt r.s.maxSeq) with lastTimeRecJ := p.headerTs }
        lastVoiceFrameTs := p.headerTs } (max (r.s.lostAt r.s.maxSeq) 0) := by
  rw [RTP.updateStats, interlaced_nil _ h.lastSeq]
  rw [h.video, if_pos Bool.false_ne_true, hevent, hdtmf, if_neg (by simp),
    if_neg (by simpa using h.voice)]

lemma clampLost_fields (s : Source) (lost : Int) : (s.clampLost lost).maxSeq = s.maxSeq ∧
    (s.clampLost lost).received = s.received ∧ (s.clampLost lost).probation = s.probation ∧
    (s.clampLost lost).baseSeq = s.baseSeq := by
  unfold Source.clampLost
  split
  · exact ⟨rfl, rfl, rfl, rfl⟩
  · exact ⟨rfl, rfl, rfl, rfl⟩

lemma updateStats_settled {r : RTP} {p : Packet} (h : Validated r) (hevent : p.televent = false)
    (hdtmf : p.dtmf = false) (htime : 1000000 ≤ p.headerTs) :
    Settled (r.updateStats [] p) r.s.maxSeq := by
  obtain ⟨hmax, hreceived, hprobation, -⟩ := clampLost_fields r.s (r.s.lostAt r.s.maxSeq)
  have hclamp := Source.lostAt_clampLost r.s
  rw [updateStats_eq h hevent hdtmf]
  refine {
    first := h.first
    probation := hprobation.trans h.probation
    video := h.video
    voice := ?_
    received := ?_
    maxSeq := ?_
    lastSeq := h.lastSeq
    forcemark := rfl
    highest_eq := hmax
    lost_eq := hclamp
    lost_nonneg := le_max_right _ _ }
  · change p.headerTs / 1000000 ≠ 0
    omega
  · change 0 < (r.s.clampLost _).received
    rw [hreceived]
    exact h.received
  · change (r.s.clampLost _).maxSeq < seqMod
    rw [hmax]
    exact h.maxSeq

lemma updateStats_stats {r : RTP} {p : Packet} (h : Validated r) (hevent : p.televent = false)
    (hdtmf : p.dtmf = false) (hmark : r.forcemark2 = false) :
    (r.updateStats [] p).stats.received = r.stats.received ∧
      (r.updateStats [] p).stats.lost =
        if max (r.s.lostAt r.s.maxSeq) 0 > r.stats.lastLost then
          toU32 (r.stats.lost + (max (r.s.lostAt r.s.maxSeq) 0 - r.stats.lastLost))
        else r.stats.lost := by
  rw [updateStats_eq h hevent hdtmf]
  unfold RTP.addLost
  dsimp only
  rw [hmark, if_neg Bool.false_ne_true]
  split
  · exact ⟨rfl, rfl⟩
  · exact ⟨rfl, rfl⟩

lemma counted_lostAt {r : RTP} {highest m : Nat} {cycles e : Int} (h : Settled r highest)
    (hsum : cycles + m = r.s.cycles + highest + e) (hlow : 0 ≤ e)
    (hhigh : r.stats.lastLost + e < 2 ^ 31) :
    (r.counted cycles m).s.lostAt (r.counted cycles m).s.maxSeq = r.stats.lastLost + (e - 1) := by
  obtain rfl := h.highest_eq
  have hnonneg := h.lost_nonneg
  rw [← h.lost_eq]
  refine Source.lostAt_eq (e - 1) rfl ?_ (by rw [h.lost_eq]; omega) (by rw [h.lost_eq]; omega)
  change cycles + m - ((r.s.received + 1 : Nat) : Int) = _
  push_cast
  omega

lemma Settled.counted {r : RTP} {highest m : Nat} (h : Settled r highest) (cycles : Int)
    (hm : m < seqMod) : Validated (r.counted cycles m) where
  first := h.first
  probation := h.probation
  video := h.video
  voice := h.voice
  received := Nat.succ_pos _
  maxSeq := hm
  lastSeq := h.lastSeq

lemma Settled.lastSeq_update {r : RTP} {highest : Nat} (h : Settled r highest) (seq : Nat) :
    Settled { r with lastSeq := seq } highest :=
  { h with lastSeq := Int.natCast_nonneg seq }

lemma packet_of_counted {r : RTP} {highest m n : Nat} {cycles : Int} {p : Packet} (dis : Bool)
    (h : Settled r highest) (hevent : p.televent = false) (hdtmf : p.dtmf = false)
    (htime : 1000000 ≤ p.headerTs) (hm : m < seqMod)
    (hseq : r.updateSeq dis p = (r.counted cycles m, true))
    (hgrown : (max ((r.counted cycles m).s.lostAt m) 0 = r.stats.lastLost + n ∧
        r.stats.lost + n < 2 ^ 32) ∨
      (max ((r.counted cycles m).s.lostAt m) 0 ≤ r.stats.lastLost ∧ n = 0)) :
    Settled (r.packet dis [] p) m ∧ (r.packet dis [] p).stats.lost = r.stats.lost + n ∧
      (r.packet dis [] p).stats.received = r.stats.received + 1 := by
  have hvalid := h.counted cycles hm
  obtain ⟨hreceived, hstats⟩ := updateStats_stats hvalid hevent hdtmf h.forcemark
  have hsettled := updateStats_settled hvalid hevent hdtmf htime
  have hpacket : r.packet dis [] p = { (r.counted cycles m).updateStats [] p with lastSeq := p.seq } := by
    rw [RTP.packet, hseq]
    rfl
  rw [hpacket]
  refine ⟨hsettled.lastSeq_update p.seq, ?_, hreceived⟩
  change ((r.counted cycles m).updateStats [] p).stats.lost = r.stats.lost + n
  rw [hstats]
  change (if max ((r.counted cycles m).s.lostAt m) 0 > r.stats.lastLost then
    toU32 (r.stats.lost + (max ((r.counted cycles m).s.lostAt m) 0 - r.stats.lastLost))
    else r.stats.lost) = r.stats.lost + n
  rcases hgrown with ⟨hgrown, hlost⟩ | ⟨hle, hzero⟩
  · rw [hgrown]
    split
    · have hu32 := toU32_of_lt (n := r.stats.lost + (r.stats.lastLost + n - r.stats.lastLost))
        (by omega) (by omega)
      omega
    · omega
  · rw [if_neg (by omega), hzero, Nat.add_zero]

lemma step_settled {w t : Watch} {a : Act} (dis : Bool) (h : Settled w.rtp w.highest)
    (hok : Undisturbed w a) (hstep : w.step dis a = some t) :
    Settled t.rtp t.highest ∧ t.rtp.stats.lost = w.rtp.stats.lost + a.move.missed ∧
      t.rtp.stats.received = w.rtp.stats.received + 1 := by
  obtain rfl := Option.some.inj hstep
  have hmax := h.maxSeq
  have hnonneg := h.lost_nonneg
  rw [h.highest_eq] at hmax
  obtain ⟨⟨hmove, -, htime⟩, hplain, hstats, hreceived⟩ := hok
  rcases a with ⟨move, ts⟩
  cases move with
  | advance d =>
    obtain ⟨hlost, hcount⟩ := hplain
    obtain ⟨cycles, hseq, hsum⟩ :=
      @updateSeq_advance _ _ _ ts dis h hmove hlost hreceived hstats
    have hlt := (advance_seq hmax hmove.2).2.1
    have hloss := counted_lostAt h hsum (by omega) hlost
    have hd := hmove.1
    have hmax0 : max ((w.rtp.counted cycles ((w.highest + d) % seqMod)).s.lostAt
        ((w.highest + d) % seqMod)) 0 = w.rtp.stats.lastLost + (d - 1 : Nat) := by
      rw [show (w.rtp.counted cycles _).s.lostAt ((w.highest + d) % seqMod) = _ from hloss]
      omega
    exact packet_of_counted dis h rfl rfl htime hlt hseq (Or.inl ⟨hmax0, hcount⟩)
  | lag k =>
    have hseq := @updateSeq_lag _ _ _ ts dis h hmove hplain hreceived hstats
    have hlast : w.rtp.stats.lastLost < 2 ^ 31 := by
      rw [← h.lost_eq]
      exact (toInt_bounds _).2
    have hloss := @counted_lostAt _ _ w.highest w.rtp.s.cycles 0 h (by omega) le_rfl (by omega)
    have hmax0 : max ((w.rtp.counted w.rtp.s.cycles w.highest).s.lostAt w.highest) 0 ≤
        w.rtp.stats.lastLost := by
      rw [show (w.rtp.counted w.rtp.s.cycles w.highest).s.lostAt w.highest = _ from hloss]
      omega
    exact packet_of_counted dis h rfl rfl htime hmax hseq (Or.inr ⟨hmax0, rfl⟩)

/-! ## The whole stream -/

lemma begin_settled {r : RTP} {p : Packet} (h : Validated r) (hevent : p.televent = false)
    (hdtmf : p.dtmf = false) (htime : 1000000 ≤ p.headerTs) :
    Settled (begin r p).rtp (begin r p).highest :=
  updateStats_settled h hevent hdtmf htime

/-- In every run of packets that do not lag over the wrap the counters are exact. -/
theorem loss_exact (dis : Bool) (r : RTP) (p : Packet) (hr : Validated r)
    (hevent : p.televent = false) (hdtmf : p.dtmf = false) (htime : 1000000 ≤ p.headerTs)
    (w : Watch) (h : ReachBy (Watch.step dis) Undisturbed (begin r p) w) :
    Exact (begin r p) w := by
  have hinv : Settled w.rtp w.highest ∧ Exact (begin r p) w := by
    refine h.invariant (I := fun w => Settled w.rtp w.highest ∧ Exact (begin r p) w) ?_ ?_
    · exact ⟨begin_settled hr hevent hdtmf htime, rfl, rfl⟩
    · rintro w a t ⟨hsettled, hlost, hreceived⟩ hok hstep
      obtain ⟨hsettled', hlost', hreceived'⟩ := step_settled dis hsettled hok hstep
      have hcounts : t.missed = w.missed + a.move.missed ∧ t.packets = w.packets + 1 := by
        obtain rfl := Option.some.inj hstep
        exact ⟨rfl, rfl⟩
      refine ⟨hsettled', ?_, ?_⟩
      · rw [hlost', hlost, hcounts.1, Nat.add_assoc]
      · rw [hreceived', hreceived, hcounts.2, Nat.add_assoc]
  exact hinv.2

/-- A stream whose highest number is 65530. -/
def nearWrap : RTP where
  first := false
  s := ⟨65530, 0, 65520, 65537, 0, 9, 5000000⟩
  stats := ⟨9, 0, 0, 0⟩
  lastSeq := 65530
  lastVoiceFrameTs := 5000000
  forcemark2 := false
  isVideo := false

lemma validated_nearWrap : Validated nearWrap :=
  ⟨rfl, rfl, rfl, by decide, by decide, by decide, by decide⟩

theorem loss_exact_example : ∃ w, checkedRun (Watch.step false) Undisturbed
    (begin nearWrap ⟨65530, 5000000, false, false⟩)
    [⟨.advance 3, 5020000⟩, ⟨.lag 1, 5030000⟩, ⟨.advance 10, 5040000⟩, ⟨.lag 0, 5050000⟩] = some w ∧
      w.missed = 11 ∧ Exact (begin nearWrap ⟨65530, 5000000, false, false⟩) w := by
  have hrun : ∃ w, checkedRun (Watch.step false) Undisturbed
      (begin nearWrap ⟨65530, 5000000, false, false⟩)
      [⟨.advance 3, 5020000⟩, ⟨.lag 1, 5030000⟩, ⟨.advance 10, 5040000⟩, ⟨.lag 0, 5050000⟩] = some w ∧
        w.missed = 11 := ⟨_, rfl, rfl⟩
  obtain ⟨w, hw, hmissed⟩ := hrun
  exact ⟨w, hw, hmissed, loss_exact false nearWrap _ validated_nearWrap rfl rfl (by decide) w
    (ReachBy.initial.checkedRun _ hw)⟩

/-- Over the wrap, the packet 65533 comes after the packet 2: the highest number goes back to it,
and the packet 3 then counts 5 lost packets. -/
theorem loss_not_exact_lag_over_wrap : ¬∀ (dis : Bool) (r : RTP) (p : Packet), Validated r →
    p.televent = false → p.dtmf = false → 1000000 ≤ p.headerTs →
    ∀ w, ReachBy (Watch.step dis) Usual (begin r p) w → Exact (begin r p) w := by
  intro hall
  have hrun : ∃ w, checkedRun (Watch.step false) Usual
      (begin nearWrap ⟨65530, 5000000, false, false⟩)
      [⟨.advance 8, 5020000⟩, ⟨.lag 5, 5030000⟩, ⟨.advance 1, 5040000⟩] = some w ∧
        ¬Exact (begin nearWrap ⟨65530, 5000000, false, false⟩) w := by
    refine ⟨_, rfl, ?_⟩
    rintro ⟨hlost, -⟩
    revert hlost
    decide
  obtain ⟨w, hw, hnot⟩ := hrun
  exact hnot (hall false nearWrap _ validated_nearWrap rfl rfl (by decide) w
    (ReachBy.initial.checkedRun _ hw))

end VoipMonitor.Rtp
