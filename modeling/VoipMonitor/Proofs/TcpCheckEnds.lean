import VoipMonitor.Proofs.TcpPush

/-!
# The walk of `ok` ends

A counted round brings the walk nearer to the limit of the rounds, and one that is not counted
either shortens the row or goes on at packets that are not given up, so the walk always ends when
it reads no end of the queue. It reads one with `completeMod` 1 alone: when the wanted packets are
given up, the row is at its begin, and no packets behind may be used.
-/

namespace VoipMonitor.Tcp
open VoipMonitor.Library

namespace Stream

/-- The wanted packets were all given up, and when the only packet of the row is given up too, no
packets from there on may be used. -/
def Exhausted (c : Stream × Walk) : Prop :=
  c.1.isFailAt (wantedSeq c.1 c.2) = true ∧ c.1.okPackets.length ≤ 1 ∧
    ∀ e ∈ c.1.failLast.queuePacketVars, wantedSeq c.1 c.2 ≤ e.1 → e.2.isFail = true

section
variable {cfg : StreamConfig} {a : CheckArgs} {s : Stream} {w : Walk} {c c' : Stream × Walk}

/-! ## Giving up a packet -/

lemma updateVar_sorted (h : SortedMap.Sorted seqLt s.queuePacketVars) (seq : Nat)
    (f : PacketVar → PacketVar) : SortedMap.Sorted seqLt (s.updateVar seq f).queuePacketVars :=
  h.update seq f

lemma failLast_queuePacketVars : s.failLast.queuePacketVars = s.queuePacketVars ∨
    ∃ p : Nat × Nat, s.failLast.queuePacketVars =
      SortedMap.update p.1 (fun v => v.setState p.2 .fail) s.queuePacketVars := by
  cases hlast : s.okPackets.getLast? with
  | none =>
    rw [failLast, hlast]
    exact .inl rfl
  | some p =>
    rw [failLast, hlast]
    exact .inr ⟨p, rfl⟩

lemma failLast_sorted (h : SortedMap.Sorted seqLt s.queuePacketVars) :
    SortedMap.Sorted seqLt s.failLast.queuePacketVars := by
  rcases failLast_queuePacketVars (s := s) with hvars | ⟨p, hvars⟩
  · rw [hvars]
    exact h
  · rw [hvars]
    exact h.update p.1 _

lemma failLast_okPackets : s.failLast.okPackets = s.okPackets.dropLast := by
  unfold failLast
  split
  · rename_i hnone
    rw [List.getLast?_eq_none_iff.mp hnone]
    rfl
  · rfl

lemma failLast_okPackets_eq_nil : s.failLast.okPackets = [] ↔ s.okPackets.length ≤ 1 := by
  rw [failLast_okPackets, ← List.length_eq_zero_iff, List.length_dropLast]
  omega

lemma isFail_setState {v : PacketVar} (h : v.isFail = true) (nextSeq : Nat) :
    (v.setState nextSeq .fail).isFail = true := by
  rw [PacketVar.isFail, List.all_eq_true] at h ⊢
  intro e he
  obtain ⟨e', he', rfl⟩ := List.mem_map.mp he
  have hfail := h e' he'
  split
  · exact decide_eq_true rfl
  · exact hfail

lemma isFailAt_failLast {k : Nat} (h : s.isFailAt k = true) : s.failLast.isFailAt k = true := by
  rw [isFailAt] at h ⊢
  rcases failLast_queuePacketVars (s := s) with hvars | ⟨p, hvars⟩
  · rw [hvars]
    exact h
  · rw [hvars, SortedMap.get_update]
    by_cases hk : p.1 = k
    · rw [if_pos hk]
      cases hget : SortedMap.get k s.queuePacketVars with
      | none =>
        rw [hget] at h
        cases h
      | some v =>
        rw [hget] at h
        exact isFail_setState h p.2
    · rw [if_neg hk]
      exact h

lemma nextUsable_spec {k seq : Nat} (hsorted : SortedMap.Sorted seqLt s.queuePacketVars)
    (hfail : s.isFailAt seq = true) (h : nextUsable s.queuePacketVars seq = some k) :
    k ≠ 0 ∧ (SortedMap.get k s.queuePacketVars).isSome ∧ s.isFailAt k = false := by
  obtain ⟨⟨k', v⟩, hfind, rfl⟩ := Option.map_eq_some_iff.mp h
  have huse := List.find?_some hfind
  rw [Bool.and_eq_true, Bool.not_eq_true', decide_eq_true_iff] at huse
  have hget := hsorted.get_of_mem (List.mem_of_find?_eq_some hfind)
  have hopen : s.isFailAt k' = false := by
    rw [isFailAt, hget]
    exact huse.2
  refine ⟨?_, ?_, hopen⟩
  · -- only number 0 itself is not behind 0
    intro hzero
    have hseq : seq = k' := by
      omega
    rw [hseq, hopen] at hfail
    cases hfail
  · rw [hget]
    rfl

lemma nextUsable_eq_none_iff {vars : PacketVars} {seq : Nat} :
    nextUsable vars seq = none ↔ ∀ e ∈ vars, seq ≤ e.1 → e.2.isFail = true := by
  rw [nextUsable, Option.map_eq_none_iff, List.find?_eq_none]
  refine forall₂_congr ?_
  intro e _
  rw [Bool.and_eq_true, Bool.not_eq_true', decide_eq_true_iff, not_and, Bool.not_eq_false]

/-! ## Rounds that read an end -/

lemma countCheck_ne_broken : countCheck s w ≠ .broken := by
  unfold countCheck
  split
  · simp
  · simp

lemma checkTaken_ne_broken {p : Nat × Nat} : checkTaken a s w p ≠ .broken := by
  unfold checkTaken
  split
  · simp
  · dsimp only
    split
    · split
      · exact countCheck_ne_broken
      · split
        · exact countCheck_ne_broken
        · simp
    · exact countCheck_ne_broken

lemma checkVar_ne_broken {k : Nat} : checkVar a s w k ≠ .broken := by
  unfold checkVar
  split
  · exact checkTaken_ne_broken
  · split
    · exact countCheck_ne_broken
    · simp

lemma checkBack_eq_broken_iff {seq : Nat} : checkBack s w seq = .broken ↔
    s.okPackets.length ≤ 1 ∧ ∀ e ∈ s.failLast.queuePacketVars, seq ≤ e.1 → e.2.isFail = true := by
  rw [← nextUsable_eq_none_iff, ← failLast_okPackets_eq_nil, checkBack]
  split
  · rename_i hrow
    cases nextUsable s.failLast.queuePacketVars seq with
    | none => simp [hrow]
    | some k => simp
  · rename_i hrow
    simp [hrow]

lemma checkRound_eq_broken_iff :
    checkRound cfg a c = .broken ↔ cfg.completeMod = 1 ∧ Exhausted c := by
  unfold checkRound
  dsimp only
  split
  · rename_i hback
    rw [checkBack_eq_broken_iff]
    exact ⟨fun h => ⟨hback.1, hback.2, h⟩, fun h => h.2.2⟩
  · rename_i hback
    have hnot : ¬(cfg.completeMod = 1 ∧ Exhausted c) := fun h => hback ⟨h.1, h.2.1⟩
    refine iff_of_false ?_ hnot
    split
    · split
      · simp
      · exact countCheck_ne_broken
    · exact checkVar_ne_broken

/-! ## The measure of a walk -/

/-- How many rounds that are not counted may follow: the row is given up from its end on, and then
the search begins once at other packets. -/
def pending (c : Stream × Walk) : Nat :=
  if c.1.okPackets ≠ [] then c.1.okPackets.length + 1
  else if c.1.isFailAt (wantedSeq c.1 c.2) then 1 else 0

def measure (c : Stream × Walk) : Nat × Nat := (501 - c.2.counter, pending c)

def Before : Nat × Nat → Nat × Nat → Prop := Prod.Lex (· < ·) (· < ·)

lemma before_wf : WellFounded Before :=
  (Prod.lex ⟨(· < ·), wellFounded_lt⟩ ⟨(· < ·), wellFounded_lt⟩).wf

lemma pending_of_row (h : c.1.okPackets ≠ []) : pending c = c.1.okPackets.length + 1 :=
  if_pos h

lemma pending_of_nil (h : c.1.okPackets = []) :
    pending c = if c.1.isFailAt (wantedSeq c.1 c.2) then 1 else 0 :=
  if_neg (fun hne => hne h)

lemma wantedSeq_forced (hrow : s.okPackets = []) (hforce : w.forceFirstSeq ≠ 0)
    (hget : (SortedMap.get w.forceFirstSeq s.queuePacketVars).isSome) :
    wantedSeq s w = w.forceFirstSeq := by
  have hsome : ¬(SortedMap.get w.forceFirstSeq s.queuePacketVars).isNone = true := by
    rw [Option.isNone_iff_eq_none]
    exact Option.isSome_iff_ne_none.mp hget
  have hlast : s.okPackets.getLast? = none := List.getLast?_eq_none_iff.mpr hrow
  rw [wantedSeq, hlast]
  rw [if_pos hforce, if_neg (fun h => hsome h.1)]

def Advances (c c' : Stream × Walk) : Prop :=
  SortedMap.Sorted seqLt c'.1.queuePacketVars ∧ Before (measure c') (measure c)

lemma countCheck_advances {s' : Stream} {w' : Walk} (hw : w'.counter = w.counter)
    (hsorted : SortedMap.Sorted seqLt s'.queuePacketVars)
    (h : countCheck s' w' = .next c') : Advances (s, w) c' := by
  unfold countCheck at h
  split at h
  · cases h
  · rename_i hlimit
    obtain rfl := Outcome.next.inj h
    refine ⟨hsorted, Prod.Lex.left _ _ ?_⟩
    change 501 - (w'.counter + 1) < 501 - w.counter
    omega

lemma checkTaken_advances {s' : Stream} {p : Nat × Nat}
    (hsorted : SortedMap.Sorted seqLt s'.queuePacketVars)
    (h : checkTaken a s' w p = .next c') : Advances (s, w) c' := by
  have hstate : SortedMap.Sorted seqLt (s'.setState p .check).queuePacketVars :=
    updateVar_sorted hsorted _ _
  have hcounter : ({ w with waitForPsh := true } : Walk).counter = w.counter := rfl
  unfold checkTaken at h
  split at h
  · cases h
  · dsimp only at h
    split at h
    · split at h
      · exact countCheck_advances hcounter hstate h
      · split at h
        · exact countCheck_advances hcounter hstate h
        · cases h
    · exact countCheck_advances rfl hstate h

lemma checkVar_advances {k : Nat} (hsorted : SortedMap.Sorted seqLt s.queuePacketVars)
    (h : checkVar a s w k = .next c') : Advances (s, w) c' := by
  unfold checkVar at h
  split at h
  · have hrow : SortedMap.Sorted seqLt
        { s with okPackets := s.okPackets ++ [(k, s.nextSeqOf k)] }.queuePacketVars := hsorted
    exact checkTaken_advances hrow h
  · split at h
    · exact countCheck_advances rfl (failLast_sorted hsorted) h
    · cases h

lemma checkBack_advances (hsorted : SortedMap.Sorted seqLt s.queuePacketVars)
    (hfail : s.isFailAt (wantedSeq s w) = true)
    (h : checkBack s w (wantedSeq s w) = .next c') : Advances (s, w) c' := by
  have hlength : s.failLast.okPackets.length = s.okPackets.length - 1 := by
    rw [failLast_okPackets, List.length_dropLast]
  unfold checkBack at h
  split at h
  · rename_i hrow
    cases hk : nextUsable s.failLast.queuePacketVars (wantedSeq s w) with
    | none =>
      rw [hk] at h
      cases h
    | some k =>
      rw [hk] at h
      obtain rfl := Outcome.next.inj h
      obtain ⟨hzero, hget, hopen⟩ :=
        nextUsable_spec (failLast_sorted hsorted) (isFailAt_failLast hfail) hk
      have hwanted : wantedSeq s.failLast { w with forceFirstSeq := k } = k :=
        wantedSeq_forced hrow hzero hget
      refine ⟨failLast_sorted hsorted, Prod.Lex.right _ ?_⟩
      have hafter : pending (s.failLast, { w with forceFirstSeq := k }) = 0 := by
        rw [pending_of_nil hrow, hwanted, hopen]
        rfl
      have hbefore : 0 < pending (s, w) := by
        by_cases hnil : s.okPackets = []
        · rw [pending_of_nil hnil, hfail]
          exact Nat.zero_lt_one
        · rw [pending_of_row hnil]
          exact Nat.succ_pos _
      rw [hafter]
      exact hbefore
  · rename_i hrow
    obtain rfl := Outcome.next.inj h
    have hne : s.okPackets ≠ [] := by
      intro hnil
      rw [failLast_okPackets, hnil] at hrow
      exact hrow rfl
    refine ⟨failLast_sorted hsorted, Prod.Lex.right _ ?_⟩
    rw [pending_of_row hrow, pending_of_row hne, hlength]
    have hpos : 0 < s.okPackets.length := List.length_pos_iff.mpr hne
    dsimp only
    omega

lemma checkRound_advances (hsorted : SortedMap.Sorted seqLt c.1.queuePacketVars)
    (h : checkRound cfg a c = .next c') : Advances c c' := by
  unfold checkRound at h
  dsimp only at h
  split at h
  · rename_i hback
    exact checkBack_advances hsorted hback.2 h
  · split at h
    · split at h
      · cases h
      · exact countCheck_advances rfl (failLast_sorted hsorted) h
    · exact checkVar_advances hsorted h

end

/-! ## The check -/

/-- What `ok` is called on: a stream with packets. -/
structure CheckCall where
  cfg : StreamConfig
  args : CheckArgs
  stream : Stream
  sorted : SortedMap.Sorted seqLt stream.queuePacketVars
  nonempty : stream.queuePacketVars ≠ []

/-- The check returns, and reads no end of the queue. -/
def CheckCall.Returns (q : CheckCall) : Prop :=
  ∃ fuel result, check q.cfg q.args fuel q.stream = some result

def CheckCall.start (q : CheckCall) : Stream × Walk :=
  (q.stream.attempted, ⟨0, q.args.onlyCheckPsh, q.args.forceFirstSeq⟩)

/-- The check comes to its loop. -/
def CheckCall.Walks (q : CheckCall) : Prop :=
  q.stream.isOk = false ∧
    (q.args.unlimited = true ∨ q.stream.counterTryOk ≤ q.cfg.maxReassemblyAttempts) ∧
    ∀ e ∈ q.stream.attempted.queuePacketVars.head?, e.2.getNextSeqCheck ≠ 0

lemma CheckCall.sorted_start (q : CheckCall) :
    SortedMap.Sorted seqLt q.start.1.queuePacketVars :=
  q.sorted.map _ (fun _ => rfl)

lemma CheckCall.exists_cons (q : CheckCall) :
    ∃ e vars, q.stream.attempted.queuePacketVars = e :: vars := by
  obtain ⟨e, vars, hvars⟩ := List.exists_cons_of_ne_nil q.nonempty
  refine ⟨(e.1, e.2.cleanState), vars.map (fun e => (e.1, e.2.cleanState)), ?_⟩
  change q.stream.queuePacketVars.map _ = _
  rw [hvars, List.map_cons]

lemma CheckCall.check_of_not_walks (q : CheckCall) (h : ¬q.Walks) : q.Returns := by
  obtain ⟨e, vars, hvars⟩ := q.exists_cons
  by_cases hok : q.stream.isOk = true
  · exact ⟨0, true, if_pos hok⟩
  by_cases hlimit : ¬q.args.unlimited ∧ q.stream.counterTryOk > q.cfg.maxReassemblyAttempts
  · exact ⟨0, true, (if_neg hok).trans (if_pos hlimit)⟩
  refine ⟨0, false, ?_⟩
  rw [check, if_neg hok, if_neg hlimit, hvars]
  refine if_pos ?_
  by_contra hzero
  refine h ⟨Bool.eq_false_iff.mpr hok, ?_, ?_⟩
  · by_cases hunlimited : q.args.unlimited = true
    · exact .inl hunlimited
    · exact .inr (not_lt.mp (fun hlt => hlimit ⟨hunlimited, hlt⟩))
  · intro e' he'
    rw [hvars] at he'
    obtain rfl := Option.some.inj he'
    exact hzero

lemma CheckCall.check_of_walks (q : CheckCall) (h : q.Walks) (fuel : Nat) :
    check q.cfg q.args fuel q.stream = runLoop (checkRound q.cfg q.args) fuel q.start := by
  obtain ⟨e, vars, hvars⟩ := q.exists_cons
  have hlimit : ¬(¬q.args.unlimited ∧ q.stream.counterTryOk > q.cfg.maxReassemblyAttempts) := by
    rintro ⟨hunlimited, hlt⟩
    rcases h.2.1 with hu | hle
    · exact hunlimited hu
    · exact absurd hlt (not_lt.mpr hle)
  have hcheck : e.2.getNextSeqCheck ≠ 0 := h.2.2 e (by rw [hvars]; rfl)
  rw [check, if_neg (Bool.eq_false_iff.mp h.1), if_neg hlimit, hvars]
  exact if_neg hcheck

/-! ## A stream with a hole at the turn of the numbers -/

def segment (seq len : Nat) : StreamPacket := .setData seq true (List.replicate len 65) len true

def holed : Stream :=
  let cfg : StreamConfig := ⟨1, true, true, 50, 0⟩
  let first := ((Stream.new 7 true).push cfg (segment 0xFFFFFF00 0x80)).moveBounds
    (segment 0xFFFFFF00 0x80)
  (first.push cfg (segment 0x100 0x80)).moveBounds (segment 0x100 0x80)

lemma holed_bounds : holed.minSeq = 0xFFFFFF00 ∧ holed.maxNextSeq = 0x180 ∧
    holed.queuePacketVars.map (fun e => e.1) = [0x100, 0xFFFFFF00] := by
  decide +kernel

def holedCall : CheckCall where
  cfg := ⟨1, true, true, 50, 0⟩
  args := .simpleByAck 0x180 0xFFFFFF00 true
  stream := holed
  sorted := by
    have hkeys : (holed.queuePacketVars.map (fun e => e.1)).Pairwise
        (fun a b => seqLt a b = true) := by
      rw [holed_bounds.2.2]
      decide
    exact List.pairwise_map.mp hkeys
  nonempty := by
    intro hnil
    have hkeys := holed_bounds.2.2
    rw [hnil] at hkeys
    cases hkeys

lemma holedCall_rounds :
    rounds (checkRound holedCall.cfg holedCall.args) 3 holedCall.start = .broken := by
  decide +kernel

lemma holedCall_walks : holedCall.Walks := by
  refine ⟨by decide +kernel, .inr (by decide +kernel), ?_⟩
  decide +kernel

/-- The check of a stream with packets returns without reading an end of the queue: always when
`completeMod` is not 1, and else exactly when its walk does not come to a state in which the
wanted packets are given up and none are left behind them. -/
theorem returns_iff (q : CheckCall) : q.Returns ↔
    (q.cfg.completeMod = 1 → q.Walks →
      ∀ c, Visits (checkRound q.cfg q.args) q.start c → ¬Exhausted c) := by
  by_cases hwalks : q.Walks
  · have hstep : ∀ c c', SortedMap.Sorted seqLt c.1.queuePacketVars →
        checkRound q.cfg q.args c = .next c' → Advances c c' :=
      fun _ _ hsorted h => checkRound_advances hsorted h
    rw [CheckCall.Returns]
    simp only [q.check_of_walks hwalks]
    rw [exists_runLoop_iff before_wf measure hstep q.sorted_start]
    constructor
    · intro h hmod _ c hvisit hexhausted
      exact h c hvisit (checkRound_eq_broken_iff.mpr ⟨hmod, hexhausted⟩)
    · intro h c hvisit hbroken
      obtain ⟨hmod, hexhausted⟩ := checkRound_eq_broken_iff.mp hbroken
      exact h hmod hwalks c hvisit hexhausted
  · exact iff_of_true (q.check_of_not_walks hwalks) (fun _ h => absurd h hwalks)

theorem not_returns_holed : ¬∀ q : CheckCall, q.Returns := by
  intro hall
  obtain ⟨fuel, result, hcheck⟩ := hall holedCall
  rw [holedCall.check_of_walks holedCall_walks] at hcheck
  obtain ⟨c, hvisit, hbroken⟩ := exists_broken_of_rounds holedCall_rounds
  exact not_broken_of_runLoop hcheck hvisit hbroken

end Stream

end VoipMonitor.Tcp
