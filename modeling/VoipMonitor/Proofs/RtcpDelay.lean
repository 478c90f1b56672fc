import VoipMonitor.Model.Rtcp

/-!
# Round-trip delays from RTCP reports

A delay is the time since the sender report that a block names, less the delay that the block
reports. The code computes it without a sign and takes the reported delay from a product that wraps
round, so it is right for reported delays below 65.5 s that are not longer than the time.
-/

namespace VoipMonitor.Rtcp
open VoipMonitor.Library

/-- The latest sender report: its `lsr`, and when it was seen. -/
def latestReport : List Event → Option (Nat × Nat)
  | [] => none
  | .senderReport lsr ts :: _ => some (lsr, ts)
  | .block _ _ _ _ :: events => latestReport events

/-- The values that have been added to `rtd_w_sum`. -/
def addedDelays : List Event → List Nat
  | [] => []
  | .senderReport _ _ :: events => addedDelays events
  | .block _ _ _ added :: events => added.toList ++ addedDelays events

def exactDelay (ts sniffTs delaySinceLsr : Nat) : Int :=
  ((ts : Int) - sniffTs) / 1000 - (delaySinceLsr * 1000 / 65536 : Nat)

/-- Every value that was added is the delay since the sender report that the block names, and it is
positive. -/
def AddedExact : List Event → Prop
  | [] => True
  | .senderReport _ _ :: events => AddedExact events
  | .block lsr delaySinceLsr ts added :: events =>
    (∀ ms, added = some ms → 0 < ms ∧ ∃ sniffTs, latestReport events = some (lsr, sniffTs) ∧
      (ms : Int) = exactDelay ts sniffTs delaySinceLsr) ∧ AddedExact events

def IsMax (values : List Nat) (m : Nat) : Prop :=
  values = [] ∧ m = 0 ∨ m ∈ values ∧ ∀ v ∈ values, v ≤ m

/-- The delays of a stream are exact, and its members are their sum and their maximum. -/
structure Stream.DelaysExact (r : Stream) : Prop where
  added : AddedExact r.events
  sum : r.rtcp.rtdWSum = (addedDelays r.events).sum % 2 ^ 32
  max : IsMax (addedDelays r.events) r.rtcp.rtdWMax

/-- A block that names the latest sender report tells a delay that is less than 65.5 s and than the
time since that report; or the time is the reported delay modulo `2 ^ 32`. -/
def DelaysFit : List Event → Prop
  | [] => True
  | .senderReport _ _ :: events => DelaysFit events
  | .block lsr delaySinceLsr ts _ :: events =>
    (∀ sniffTs, latestReport events = some (lsr, sniffTs) → lsr ≠ 0 → delaySinceLsr ≠ 0 →
      sniffTs ≠ 0 → delaySinceLsr * 1000 < 2 ^ 32 ∧
          delaySinceLsr * 1000 / 65536 < (ts - sniffTs) / 1000 ∨
        (ts - sniffTs) / 1000 = delaySinceLsr * 1000 % 2 ^ 32 / 65536) ∧
      DelaysFit events

def maxElapsed : Nat := 24 * 24 * 3600 * 1000000

def times (steps : List CallStep) : List Nat :=
  steps.filterMap fun
    | .newStream _ _ _ => none
    | .rtcp d => some d.ts

/-- The times do not decrease and are less than 24 days apart. -/
def Spaced (steps : List CallStep) : Prop :=
  (times steps).Pairwise (fun t u => t ≤ u ∧ u < t + maxElapsed)

def streamsAfter (steps : List CallStep) : List Stream := steps.foldl callStep []

variable {r : Stream} {streams : List Stream} {events : List Event} {seen : List Nat} {lsr ts : Nat}

/-! ## One block -/

def marks (events : List Event) : RtcpStats :=
  { lsr4compare := ((latestReport events).getD (0, 0)).1
    sniffTs := ((latestReport events).getD (0, 0)).2 }

lemma delayMs_eq {sniffTs : Nat} (delaySinceLsr : Nat) (hle : sniffTs ≤ ts)
    (hlt : ts < sniffTs + maxElapsed) :
    delayMs ts sniffTs delaySinceLsr =
      if delaySinceLsr * 1000 % 2 ^ 32 / 65536 ≤ (ts - sniffTs) / 1000 then
        (ts - sniffTs) / 1000 - delaySinceLsr * 1000 % 2 ^ 32 / 65536
      else 2 ^ 32 - (delaySinceLsr * 1000 % 2 ^ 32 / 65536 - (ts - sniffTs) / 1000) := by
  have helapsed : ((ts : Int) - sniffTs) / 1000 = ((ts - sniffTs) / 1000 : Nat) := by omega
  have hshort : (ts - sniffTs) / 1000 < 2 ^ 32 := by
    unfold maxElapsed at hlt
    omega
  rw [delayMs, helapsed]
  generalize (ts - sniffTs) / 1000 = elapsed at hshort
  split <;> omega

lemma delayMs_exact_iff {sniffTs : Nat} (delaySinceLsr : Nat) (hle : sniffTs ≤ ts)
    (hlt : ts < sniffTs + maxElapsed) :
    (0 < delayMs ts sniffTs delaySinceLsr →
      (delayMs ts sniffTs delaySinceLsr : Int) = exactDelay ts sniffTs delaySinceLsr) ↔
    (delaySinceLsr * 1000 < 2 ^ 32 ∧ delaySinceLsr * 1000 / 65536 < (ts - sniffTs) / 1000 ∨
      (ts - sniffTs) / 1000 = delaySinceLsr * 1000 % 2 ^ 32 / 65536) := by
  have hms := delayMs_eq delaySinceLsr hle hlt
  have hexact : exactDelay ts sniffTs delaySinceLsr =
      ((ts - sniffTs) / 1000 : Nat) - (delaySinceLsr * 1000 / 65536 : Nat) := by
    rw [exactDelay]
    omega
  rw [hexact]
  constructor
  · intro h
    by_cases hpos : 0 < delayMs ts sniffTs delaySinceLsr
    · split at hms <;> omega
    · split at hms <;> omega
  · rintro (⟨hsmall, hless⟩ | heq) hpos
    · rw [Nat.mod_eq_of_lt hsmall] at hms
      split at hms <;> omega
    · split at hms <;> omega

lemma measured_of_named {sniffTs delaySinceLsr : Nat}
    (hlatest : latestReport events = some (lsr, sniffTs)) (hlsr : lsr ≠ 0)
    (hdelay : delaySinceLsr ≠ 0) (hset : sniffTs ≠ 0) :
    (marks events).measured lsr delaySinceLsr ts =
      if delayMs ts sniffTs delaySinceLsr > 0 then some (delayMs ts sniffTs delaySinceLsr)
      else none := by
  have hmarks : marks events = { lsr4compare := lsr, sniffTs := sniffTs } := by
    rw [marks, hlatest]
    rfl
  rw [hmarks, RtcpStats.measured, if_pos ⟨hlsr, hdelay, rfl, hset⟩]

lemma measured_eq_none {delaySinceLsr : Nat}
    (hnamed : ¬∃ sniffTs, latestReport events = some (lsr, sniffTs) ∧ lsr ≠ 0 ∧
      delaySinceLsr ≠ 0 ∧ sniffTs ≠ 0) :
    (marks events).measured lsr delaySinceLsr ts = none := by
  rw [RtcpStats.measured, if_neg]
  rintro ⟨hlsr, hdelay, hsame, hset⟩
  rw [marks] at hsame hset
  cases hlatest : latestReport events with
  | none =>
    rw [hlatest] at hsame
    exact hlsr hsame.symm
  | some m =>
    rw [hlatest] at hsame hset
    have hm : m.1 = lsr := hsame
    exact hnamed ⟨m.2, hlatest.trans (by rw [← hm]), hlsr, hdelay, hset⟩

lemma block_exact_iff {delaySinceLsr : Nat} {added : Option Nat}
    (hadded : added = (marks events).measured lsr delaySinceLsr ts)
    (hnear : ∀ m, latestReport events = some m → m.2 ≤ ts ∧ ts < m.2 + maxElapsed) :
    (∀ ms, added = some ms → 0 < ms ∧ ∃ sniffTs, latestReport events = some (lsr, sniffTs) ∧
      (ms : Int) = exactDelay ts sniffTs delaySinceLsr) ↔
    ∀ sniffTs, latestReport events = some (lsr, sniffTs) → lsr ≠ 0 → delaySinceLsr ≠ 0 →
      sniffTs ≠ 0 → delaySinceLsr * 1000 < 2 ^ 32 ∧
          delaySinceLsr * 1000 / 65536 < (ts - sniffTs) / 1000 ∨
        (ts - sniffTs) / 1000 = delaySinceLsr * 1000 % 2 ^ 32 / 65536 := by
  by_cases hnamed : ∃ sniffTs, latestReport events = some (lsr, sniffTs) ∧ lsr ≠ 0 ∧
      delaySinceLsr ≠ 0 ∧ sniffTs ≠ 0
  · obtain ⟨sniffTs, hlatest, hlsr, hdelay, hset⟩ := hnamed
    obtain ⟨hle, hlt⟩ : sniffTs ≤ ts ∧ ts < sniffTs + maxElapsed := hnear _ hlatest
    rw [measured_of_named hlatest hlsr hdelay hset] at hadded
    have hexact := delayMs_exact_iff delaySinceLsr hle hlt
    constructor
    · intro h sniffTs' hlatest' _ _ _
      obtain rfl : sniffTs' = sniffTs := (Prod.mk.inj (Option.some.inj
        (hlatest'.symm.trans hlatest))).2
      refine hexact.mp (fun hpos => ?_)
      rw [if_pos hpos] at hadded
      obtain ⟨-, _, hsame, hms⟩ := h _ hadded
      obtain ⟨-, rfl⟩ := Prod.mk.inj (Option.some.inj (hsame.symm.trans hlatest))
      exact hms
    · intro h ms hadded'
      rw [hadded'] at hadded
      by_cases hpos : delayMs ts sniffTs delaySinceLsr > 0
      · rw [if_pos hpos] at hadded
        obtain rfl := Option.some.inj hadded
        exact ⟨hpos, sniffTs, hlatest, hexact.mpr (h sniffTs hlatest hlsr hdelay hset) hpos⟩
      · rw [if_neg hpos] at hadded
        cases hadded
  · rw [measured_eq_none hnamed] at hadded
    constructor
    · intro _ sniffTs hlatest hlsr hdelay hset
      exact absurd ⟨sniffTs, hlatest, hlsr, hdelay, hset⟩ hnamed
    · intro _ ms hms
      rw [hadded] at hms
      cases hms

/-! ## One stream -/

def Recorded : List Event → Prop
  | [] => True
  | .senderReport _ _ :: events => Recorded events
  | .block lsr delaySinceLsr ts added :: events =>
    added = (marks events).measured lsr delaySinceLsr ts ∧
      (∀ m, latestReport events = some m → m.2 ≤ ts ∧ ts < m.2 + maxElapsed) ∧ Recorded events

structure StreamInv (seen : List Nat) (r : Stream) : Prop where
  lsr4compare : r.rtcp.lsr4compare = (marks r.events).lsr4compare
  sniffTs : r.rtcp.sniffTs = (marks r.events).sniffTs
  recorded : Recorded r.events
  seen : ∀ m, latestReport r.events = some m → m.2 ∈ seen
  sum : r.rtcp.rtdWSum = (addedDelays r.events).sum % 2 ^ 32
  max : IsMax (addedDelays r.events) r.rtcp.rtdWMax

lemma Recorded.exact_iff (h : Recorded events) : AddedExact events ↔ DelaysFit events := by
  induction events with
  | nil => exact Iff.rfl
  | cons e events ih =>
    cases e with
    | senderReport _ _ => exact ih h
    | block _ _ _ _ => exact and_congr (block_exact_iff h.1 h.2.1) (ih h.2.2)

lemma StreamInv.exact_iff (h : StreamInv seen r) : r.DelaysExact ↔ DelaysFit r.events := by
  rw [← h.recorded.exact_iff]
  exact ⟨fun hr => hr.added, fun hadded => ⟨hadded, h.sum, h.max⟩⟩

lemma streamInv_new (ssrc saddr daddr : Nat) :
    StreamInv seen { ssrc := ssrc, saddr := saddr, daddr := daddr } where
  lsr4compare := rfl
  sniffTs := rfl
  recorded := trivial
  seen := nofun
  sum := rfl
  max := Or.inl ⟨rfl, rfl⟩

lemma StreamInv.mono {seen' : List Nat} (h : StreamInv seen r) (hsub : seen ⊆ seen') :
    StreamInv seen' r :=
  { h with seen := fun m hm => hsub (h.seen m hm) }

lemma StreamInv.mark (h : StreamInv seen r) (lsr : Nat) (hts : ts ∈ seen) :
    StreamInv seen (r.mark lsr ts) where
  lsr4compare := rfl
  sniffTs := rfl
  recorded := h.recorded
  seen := by
    intro m hm
    cases hm
    exact hts
  sum := h.sum
  max := h.max

lemma IsMax.cons {values : List Nat} {m : Nat} (h : IsMax values m) (v : Nat) :
    IsMax (v :: values) (if m < v then v else m) := by
  right
  have hle : ∀ u ∈ values, u ≤ m := by
    rcases h with ⟨rfl, -⟩ | ⟨-, hle⟩
    · exact fun u hu => absurd hu List.not_mem_nil
    · exact hle
  rw [List.forall_mem_cons]
  split
  · exact ⟨List.mem_cons_self, le_rfl, fun u hu => by have := hle u hu; omega⟩
  · refine ⟨?_, by omega, hle⟩
    rcases h with ⟨-, rfl⟩ | ⟨hmem, -⟩
    · exact List.mem_cons.mpr (Or.inl (by omega))
    · exact List.mem_cons_of_mem _ hmem

lemma StreamInv.report (h : StreamInv seen r) (b : ReportBlock)
    (hnear : ∀ t ∈ seen, t ≤ ts ∧ ts < t + maxElapsed) : StreamInv seen (r.report ts b) := by
  have hmeasured : r.rtcp.measured b.lsr b.delaySinceLsr ts =
      (marks r.events).measured b.lsr b.delaySinceLsr ts := by
    rw [RtcpStats.measured, RtcpStats.measured, h.lsr4compare, h.sniffTs]
  have hframe : ∀ added, (r.rtcp.addDelay added).lsr4compare = r.rtcp.lsr4compare ∧
      (r.rtcp.addDelay added).sniffTs = r.rtcp.sniffTs := by
    intro added
    cases added <;> exact ⟨rfl, rfl⟩
  have hmarks : marks (r.report ts b).events = marks r.events := rfl
  constructor
  · rw [hmarks, ← h.lsr4compare]
    exact (hframe _).1
  · rw [hmarks, ← h.sniffTs]
    exact (hframe _).2
  · exact ⟨hmeasured, fun m hm => hnear _ (h.seen m hm), h.recorded⟩
  · exact h.seen
  · unfold Stream.report
    cases r.rtcp.measured b.lsr b.delaySinceLsr ts with
    | none => exact h.sum
    | some ms =>
      change (r.rtcp.rtdWSum + ms) % 2 ^ 32 = (ms + (addedDelays r.events).sum) % 2 ^ 32
      rw [h.sum, Nat.mod_add_mod, Nat.add_comm]
  · unfold Stream.report
    cases r.rtcp.measured b.lsr b.delaySinceLsr ts with
    | none => exact h.max
    | some ms => exact h.max.cons ms

/-! ## A call -/

lemma forall_mem_modify {P : Stream → Prop} {f : Stream → Stream} (i : Nat)
    (h : ∀ r ∈ streams, P r) (hf : ∀ r, P r → P (f r)) : ∀ r ∈ streams.modify i f, P r := by
  intro r hr
  obtain ⟨j, hj, rfl⟩ := List.getElem_of_mem hr
  rw [List.getElem_modify]
  split
  · exact hf _ (h _ (List.getElem_mem _))
  · exact h _ (List.getElem_mem _)

section Datagram
variable {d : Datagram} (hnear : ∀ t ∈ seen, t ≤ d.ts ∧ d.ts < t + maxElapsed)
include hnear

lemma useBlock_keeps (ssrcSender : Nat) (blocks : List ReportBlock)
    (h : ∀ r ∈ streams, StreamInv seen r) :
    ∀ r ∈ blocks.foldl (useBlock d ssrcSender) streams, StreamInv seen r := by
  induction blocks generalizing streams with
  | nil => exact h
  | cons b blocks ih =>
    rw [List.foldl_cons]
    apply ih
    unfold useBlock
    split
    · exact h
    · exact forall_mem_modify _ h (fun r hr => hr.report b hnear)

lemma usePacket_keeps (hts : d.ts ∈ seen) (packet : RtcpPacket)
    (h : ∀ r ∈ streams, StreamInv seen r) : ∀ r ∈ usePacket d streams packet, StreamInv seen r := by
  unfold usePacket
  split
  · unfold useSr
    apply useBlock_keeps hnear
    split
    · exact h
    · exact forall_mem_modify _ h (fun r hr => hr.mark _ hts)
  · exact useBlock_keeps hnear _ _ h
  · exact h

lemma usePackets_keeps (hts : d.ts ∈ seen) (packets : List RtcpPacket)
    (h : ∀ r ∈ streams, StreamInv seen r) :
    ∀ r ∈ packets.foldl (usePacket d) streams, StreamInv seen r := by
  induction packets generalizing streams with
  | nil => exact h
  | cons packet packets ih =>
    rw [List.foldl_cons]
    exact ih (usePacket_keeps hnear hts packet h)

end Datagram

lemma streamsAfter_inv {steps : List CallStep} (h : Spaced steps) :
    ∀ r ∈ streamsAfter steps, StreamInv (times steps) r := by
  induction steps using List.reverseRecOn with
  | nil => exact fun r hr => absurd hr List.not_mem_nil
  | append_singleton steps step ih =>
    have htimes : times (steps ++ [step]) = times steps ++ times [step] :=
      List.filterMap_append
    have hspaced : (times steps ++ times [step]).Pairwise
        (fun t u => t ≤ u ∧ u < t + maxElapsed) := htimes ▸ h
    obtain ⟨hbefore, -, hlast⟩ := List.pairwise_append.mp hspaced
    have hold : ∀ r ∈ streamsAfter steps, StreamInv (times (steps ++ [step])) r := by
      intro r hr
      rw [htimes]
      exact (ih hbefore r hr).mono (List.subset_append_left _ _)
    rw [streamsAfter, List.foldl_append, List.foldl_cons, List.foldl_nil]
    cases step with
    | newStream ssrc saddr daddr =>
      intro r hr
      rcases List.mem_append.mp hr with hr | hr
      · exact hold r hr
      · rw [List.mem_singleton.mp hr]
        exact streamInv_new _ _ _
    | rtcp d =>
      have hts : d.ts ∈ times [.rtcp d] := List.mem_singleton_self _
      apply usePackets_keeps _ _ _ hold
      · rw [htimes]
        intro t ht
        rcases List.mem_append.mp ht with ht | ht
        · exact hlast t ht d.ts hts
        · rw [show t = d.ts from List.mem_singleton.mp ht]
          unfold maxElapsed
          omega
      · rw [htimes]
        exact List.mem_append_right _ hts

/-- The delays of all streams of a call are exact exactly if those that the blocks report fit. -/
theorem delays_exact_iff (steps : List CallStep) (h : Spaced steps) :
    (∀ r ∈ streamsAfter steps, r.DelaysExact) ↔
      ∀ r ∈ streamsAfter steps, DelaysFit r.events :=
  forall₂_congr fun r hr => (streamsAfter_inv h r hr).exact_iff

/-- A sender report, and half a second later a receiver report that tells a delay of `256 * b` in
units of `1 / 65536` seconds. -/
def delaySteps (b : UInt8) : List CallStep :=
  [.newStream 1 1 2,
    .rtcp {
      data := [0x80, 200, 0, 6, 0, 0, 0, 1, 0, 0, 0, 1, 0, 0, 0, 0, 0, 0, 0, 0, 0, 0, 0, 0, 0, 0, 0,
        0, 0x80, 203, 0, 0]
      datalen := 32
      ts := 1000000
      ipSrc := 1
      ipDst := 2 },
    .rtcp {
      data := [0x81, 201, 0, 7, 0, 0, 0, 2, 0, 0, 0, 1, 0, 0, 0, 0, 0, 0, 0, 0, 0, 0, 0, 0, 0, 1, 0,
        0, 0, 0, b, 0]
      datalen := 32
      ts := 1500000
      ipSrc := 2
      ipDst := 1 }]

lemma spaced_delaySteps (b : UInt8) : Spaced (delaySteps b) := by
  have htimes : times (delaySteps b) = [1000000, 1500000] := rfl
  rw [Spaced, htimes]
  decide

theorem delays_exact_quarter : (∀ r ∈ streamsAfter (delaySteps 64), r.DelaysExact) ↔
    ∀ r ∈ streamsAfter (delaySteps 64), DelaysFit r.events :=
  delays_exact_iff _ (spaced_delaySteps 64)

/-- The reported delay of 996 ms is longer than the 500 ms since the sender report. -/
theorem delay_inflated :
    ¬∀ steps, Spaced steps → ∀ r ∈ streamsAfter steps, r.DelaysExact := by
  intro h
  have hstreams : (streamsAfter (delaySteps 255)).map (fun r => r.events) =
      [[.block 65536 65280 1500000 (some 4294966800), .senderReport 65536 1000000]] := by
    decide +kernel
  obtain ⟨r, hr, hevents⟩ : ∃ r ∈ streamsAfter (delaySteps 255), r.events = _ :=
    List.mem_map.mp (hstreams ▸ List.mem_cons_self)
  have hadded := (h _ (spaced_delaySteps 255) r hr).added
  rw [hevents] at hadded
  obtain ⟨-, sniffTs, hlatest, hms⟩ := hadded.1 _ rfl
  cases hlatest
  exact absurd hms (by decide)

end VoipMonitor.Rtcp
