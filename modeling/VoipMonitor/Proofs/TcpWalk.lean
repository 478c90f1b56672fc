import VoipMonitor.Library.FirstPath
import VoipMonitor.Proofs.TcpPush

/-!
# The rounds of `ok`

Behind a packet of the row the walk tries the packets that may follow in a fixed order, and it
takes the first one that was not given up. When all were given up, the packet itself is.
-/

namespace VoipMonitor.Tcp
open VoipMonitor.Library

/-! ## What may follow a packet -/

abbrev Layout := List (Nat × List Nat)

def rowsAt (e : Nat × List Nat) : List (Nat × Nat) := e.2.map (fun n => (e.1, n))

/-- The packets that begin first within `p`. -/
def within (layout : Layout) (p : Nat × Nat) : List (Nat × Nat) :=
  match layout.find? (fun e => p.1 < e.1 && e.1 < p.2) with
  | some e => rowsAt e
  | none => []

/-- The packets from `seq` on: those that begin there, with `completeMod` other than 1 also all
behind them. -/
def startsAt (completeMod : Nat) (layout : Layout) (seq : Nat) : List (Nat × Nat) :=
  if completeMod = 1 then ((SortedMap.get seq layout).map (fun ends => rowsAt (seq, ends))).getD []
  else if (SortedMap.get seq layout).isNone then []
  else (layout.filter (fun e => seq ≤ e.1)).flatMap rowsAt

/-- The packets that are tried behind `p`: those from its end on, and then those that begin first
within it. With `completeMod` 1 the latter are tried only when no packet begins at its end. -/
def candidates (completeMod : Nat) (layout : Layout) (p : Nat × Nat) : List (Nat × Nat) :=
  startsAt completeMod layout p.2 ++
    if completeMod = 1 ∧ (SortedMap.get p.2 layout).isSome then [] else within layout p

lemma mem_within {layout : Layout} {p q : Nat × Nat} (h : q ∈ within layout p) :
    ∃ e ∈ layout, q ∈ rowsAt e := by
  rw [within] at h
  split at h
  · rename_i e hfind
    exact ⟨e, List.mem_of_find?_eq_some hfind, h⟩
  · cases h

lemma mem_startsAt {completeMod seq : Nat} {layout : Layout} {q : Nat × Nat}
    (h : q ∈ startsAt completeMod layout seq) : ∃ e ∈ layout, q ∈ rowsAt e := by
  rw [startsAt] at h
  split at h
  · cases hget : SortedMap.get seq layout with
    | none =>
      rw [hget] at h
      cases h
    | some ends =>
      rw [hget] at h
      exact ⟨(seq, ends), SortedMap.mem_of_get hget, h⟩
  · split at h
    · cases h
    · obtain ⟨e, he, hq⟩ := List.mem_flatMap.mp h
      exact ⟨e, List.mem_of_mem_filter he, hq⟩

lemma mem_candidates {completeMod : Nat} {layout : Layout} {p q : Nat × Nat}
    (h : q ∈ candidates completeMod layout p) : ∃ e ∈ layout, q ∈ rowsAt e := by
  rcases List.mem_append.mp h with h | h
  · exact mem_startsAt h
  · split at h
    · cases h
    · exact mem_within h

namespace Stream

def layout (vars : PacketVars) : Layout :=
  vars.map (fun e => (e.1, e.2.queuePackets.map (fun q => q.1)))

def packetAt (vars : PacketVars) (q : Nat × Nat) : Option StreamPacket :=
  (SortedMap.get q.1 vars).bind (fun v => SortedMap.get q.2 v.queuePackets)

def failed (vars : PacketVars) (q : Nat × Nat) : Bool :=
  (packetAt vars q).any (fun p => p.state = .fail)

def firstUsable (vars : PacketVars) (l : List (Nat × Nat)) : Option (Nat × Nat) :=
  l.find? (fun q => !failed vars q)

structure Walkable (vars : PacketVars) : Prop where
  sorted : SortedMap.Sorted seqLt vars
  varSorted : ∀ e ∈ vars, SortedMap.Sorted seqLt e.2.queuePackets
  packet : ∀ e ∈ vars, ∀ q ∈ e.2.queuePackets, q.2.datalen ≠ 0 ∧ q.2.nextSeq = q.1 ∧ q.1 ≠ 0

lemma get_layout (vars : PacketVars) (k : Nat) :
    SortedMap.get k (layout vars) =
      (SortedMap.get k vars).map (fun v => v.queuePackets.map (fun q => q.1)) := by
  induction vars with
  | nil => rfl
  | cons e vars ih =>
    rw [layout, List.map_cons, SortedMap.get, SortedMap.get, ← layout, ih]
    split <;> rfl

section Vars
variable {vars : PacketVars}

lemma failed_of_mem (h : Walkable vars) {e : Nat × PacketVar} (he : e ∈ vars)
    {q : Nat × StreamPacket} (hq : q ∈ e.2.queuePackets) :
    failed vars (e.1, q.1) = decide (q.2.state = .fail) := by
  rw [failed, packetAt, h.sorted.get_of_mem he, Option.bind_some, (h.varSorted e he).get_of_mem hq,
    Option.any_some]

lemma firstUsable_rowsAt (h : Walkable vars) {e : Nat × PacketVar} (he : e ∈ vars) :
    firstUsable vars (rowsAt (e.1, e.2.queuePackets.map (fun q => q.1))) =
      (e.2.queuePackets.find? (fun q => q.2.state ≠ .fail)).map (fun q => (e.1, q.1)) := by
  rw [firstUsable, rowsAt, List.map_map, List.find?_map]
  congr 1
  have hall : ∀ l : List (Nat × StreamPacket), (∀ q ∈ l, q ∈ e.2.queuePackets) →
      l.find? ((fun q => !failed vars q) ∘ (fun n => (e.1, n)) ∘ fun q => q.1) =
        l.find? (fun q => q.2.state ≠ .fail) := by
    intro l hl
    induction l with
    | nil => rfl
    | cons q l ih =>
      have hfailed := failed_of_mem h he (hl q List.mem_cons_self)
      rw [List.find?_cons, List.find?_cons, ih (fun q hq => hl q (List.mem_cons_of_mem _ hq))]
      simp only [Function.comp_apply, hfailed, ne_eq, decide_not]
  exact hall _ (fun q hq => hq)

lemma isFail_iff (h : Walkable vars) {e : Nat × PacketVar} (he : e ∈ vars) :
    e.2.isFail = true ↔
      firstUsable vars (rowsAt (e.1, e.2.queuePackets.map (fun q => q.1))) = none := by
  rw [firstUsable_rowsAt h he, Option.map_eq_none_iff, List.find?_eq_none, PacketVar.isFail,
    List.all_eq_true]
  simp

lemma getNextSeqCheck_eq (h : Walkable vars) {e : Nat × PacketVar} (he : e ∈ vars) :
    e.2.getNextSeqCheck =
      ((firstUsable vars (rowsAt (e.1, e.2.queuePackets.map (fun q => q.1)))).map
        (fun q => q.2)).getD 0 := by
  rw [firstUsable_rowsAt h he, PacketVar.getNextSeqCheck]
  have hall : ∀ l : List (Nat × StreamPacket), (∀ q ∈ l, q ∈ e.2.queuePackets) →
      l.find? (fun q => q.2.datalen ≠ 0 && q.2.state ≠ .fail) =
        l.find? (fun q => q.2.state ≠ .fail) := by
    intro l hl
    induction l with
    | nil => rfl
    | cons q l ih =>
      have hlen := (h.packet e he q (hl q List.mem_cons_self)).1
      rw [List.find?_cons, List.find?_cons, ih (fun q hq => hl q (List.mem_cons_of_mem _ hq))]
      simp [hlen]
  rw [hall _ (fun q hq => hq)]
  cases hfind : e.2.queuePackets.find? (fun q => q.2.state ≠ .fail) with
  | none => rfl
  | some q => exact (h.packet e he q (List.mem_of_find?_eq_some hfind)).2.1

lemma layout_find (P : Nat → Bool) : (layout vars).find? (fun e => P e.1) =
    (vars.find? (fun e => P e.1)).map (fun e => (e.1, e.2.queuePackets.map (fun q => q.1))) := by
  rw [layout, List.find?_map]
  rfl

def nextSeqAt (vars : PacketVars) (k : Nat) : Nat :=
  ((SortedMap.get k vars).map PacketVar.getNextSeqCheck).getD 0

def failedAt (vars : PacketVars) (k : Nat) : Bool :=
  ((SortedMap.get k vars).map PacketVar.isFail).getD false

lemma fst_of_firstUsable {k : Nat} {ends : List Nat} {q : Nat × Nat}
    (hq : firstUsable vars (rowsAt (k, ends)) = some q) : q.1 = k := by
  obtain ⟨n, -, rfl⟩ := List.mem_map.mp (List.mem_of_find?_eq_some hq)
  rfl

lemma nextSeqAt_eq (h : Walkable vars) {e : Nat × PacketVar} (he : e ∈ vars) :
    nextSeqAt vars e.1 =
      ((firstUsable vars (rowsAt (e.1, e.2.queuePackets.map (fun q => q.1)))).map
        (fun q => q.2)).getD 0 := by
  rw [nextSeqAt, h.sorted.get_of_mem he]
  exact getNextSeqCheck_eq h he

lemma firstUsable_from (h : Walkable vars) (seq : Nat) {l : PacketVars} (hl : ∀ e ∈ l, e ∈ vars) :
    firstUsable vars (((layout l).filter (fun e => seq ≤ e.1)).flatMap rowsAt) =
      (l.find? (fun e => seq ≤ e.1 && !e.2.isFail)).bind (fun e =>
        firstUsable vars (rowsAt (e.1, e.2.queuePackets.map (fun q => q.1)))) := by
  induction l with
  | nil => rfl
  | cons e l ih =>
    have ih := ih (fun e he => hl e (List.mem_cons_of_mem _ he))
    have hfail := isFail_iff h (hl e List.mem_cons_self)
    rw [layout, List.map_cons, ← layout, List.find?_cons, List.filter_cons]
    by_cases hseq : seq ≤ e.1
    · rw [if_pos (by simpa using hseq), List.flatMap_cons, firstUsable, List.find?_append,
        ← firstUsable, ← firstUsable, ih]
      cases hf : e.2.isFail with
      | true =>
        rw [hfail.mp hf]
        simp
      | false =>
        have hsome : firstUsable vars (rowsAt (e.1, e.2.queuePackets.map (fun q => q.1))) ≠ none := by
          intro hnone
          rw [hfail.mpr hnone] at hf
          cases hf
        obtain ⟨q, hq⟩ := Option.ne_none_iff_exists'.mp hsome
        rw [hq]
        simp [hseq, hq]
    · rw [if_neg (by simpa using hseq), ih]
      simp [hseq]

lemma findVar_some {cfg : StreamConfig} {s : Stream} (h : Walkable s.queuePacketVars) {seq : Nat}
    {q : Nat × Nat} (hq : firstUsable s.queuePacketVars
      (startsAt cfg.completeMod (layout s.queuePacketVars) seq) = some q) :
    findVar cfg s seq = some q.1 ∧ nextSeqAt s.queuePacketVars q.1 = q.2 ∧
      ¬(cfg.completeMod = 1 ∧ failedAt s.queuePacketVars seq = true) := by
  rw [startsAt, get_layout] at hq
  cases hget : SortedMap.get seq s.queuePacketVars with
  | none =>
    rw [hget] at hq
    split at hq <;> exact absurd hq (by simp [firstUsable])
  | some v =>
    have hmem := SortedMap.mem_of_get hget
    rw [hget] at hq
    by_cases hmod : cfg.completeMod = 1
    · rw [if_pos hmod, Option.map_some, Option.map_some, Option.getD_some] at hq
      have hfst := fst_of_firstUsable hq
      refine ⟨?_, ?_, ?_⟩
      · rw [findVar, hget, hfst]
        simp [hmod]
      · rw [hfst, nextSeqAt_eq h hmem, hq]
        rfl
      · rintro ⟨-, hfailed⟩
        rw [failedAt, hget] at hfailed
        have hnone := (isFail_iff h hmem).mp hfailed
        rw [hq] at hnone
        cases hnone
    · rw [if_neg hmod, if_neg (by simp), firstUsable_from h seq (fun e he => he)] at hq
      obtain ⟨e, hfind, he⟩ := Option.bind_eq_some_iff.mp hq
      have hfst := fst_of_firstUsable he
      refine ⟨?_, ?_, fun hf => hmod hf.1⟩
      · rw [findVar, nextUsable, hget, hfind, hfst]
        simp [hmod]
      · rw [hfst, nextSeqAt_eq h (List.mem_of_find?_eq_some hfind), he]
        rfl

lemma findVar_none {cfg : StreamConfig} {s : Stream} (h : Walkable s.queuePacketVars) {seq : Nat}
    (hq : firstUsable s.queuePacketVars
      (startsAt cfg.completeMod (layout s.queuePacketVars) seq) = none) :
    (cfg.completeMod = 1 ∧ (SortedMap.get seq s.queuePacketVars).isSome ∧
        failedAt s.queuePacketVars seq = true) ∨
      ¬(cfg.completeMod = 1 ∧ (SortedMap.get seq s.queuePacketVars).isSome) ∧
        ¬(cfg.completeMod = 1 ∧ failedAt s.queuePacketVars seq = true) ∧
        findVar cfg s seq = s.okPackets.getLast?.bind (fun p =>
          gapSearch s.queuePacketVars p.1 seq) := by
  rw [startsAt, get_layout] at hq
  cases hget : SortedMap.get seq s.queuePacketVars with
  | none =>
    refine .inr ⟨by simp, by simp [failedAt, hget], ?_⟩
    rw [findVar, hget]
    cases s.okPackets.getLast? <;> rfl
  | some v =>
    have hmem := SortedMap.mem_of_get hget
    rw [hget] at hq
    by_cases hmod : cfg.completeMod = 1
    · rw [if_pos hmod, Option.map_some, Option.map_some, Option.getD_some] at hq
      refine .inl ⟨hmod, rfl, ?_⟩
      rw [failedAt, hget]
      exact (isFail_iff h hmem).mpr hq
    · refine .inr ⟨fun h => hmod h.1, fun h => hmod h.1, ?_⟩
      rw [if_neg hmod, if_neg (by simp), firstUsable_from h seq (fun e he => he)] at hq
      have hnone : nextUsable s.queuePacketVars seq = none := by
        rw [nextUsable, Option.map_eq_none_iff]
        cases hfind : s.queuePacketVars.find? (fun e => seq ≤ e.1 && !e.2.isFail) with
        | none => rfl
        | some e =>
          rw [hfind, Option.bind_some] at hq
          have hfail := (isFail_iff h (List.mem_of_find?_eq_some hfind)).mpr hq
          have hnot := List.find?_some hfind
          rw [hfail] at hnot
          simp at hnot
      rw [findVar, hget, hnone]
      simp only [Option.isNone_some, Bool.false_eq_true, if_false, hmod]
      cases s.okPackets.getLast? <;> rfl

lemma gapSearch_cases (h : Walkable vars) (p : Nat × Nat) :
    (∃ q, firstUsable vars (within (layout vars) p) = some q ∧
        gapSearch vars p.1 p.2 = some q.1 ∧ nextSeqAt vars q.1 = q.2) ∨
      (firstUsable vars (within (layout vars) p) = none ∧
        ∀ k, gapSearch vars p.1 p.2 = some k → nextSeqAt vars k = 0) := by
  rw [within, layout_find (fun k => decide (p.1 < k) && decide (k < p.2)), gapSearch]
  cases hfind : vars.find? (fun e => p.1 < e.1 && e.1 < p.2) with
  | none => exact .inr ⟨rfl, fun k hk => by cases hk⟩
  | some e =>
    have hnext := nextSeqAt_eq h (List.mem_of_find?_eq_some hfind)
    cases hq : firstUsable vars (rowsAt (e.1, e.2.queuePackets.map (fun q => q.1))) with
    | none =>
      rw [hq] at hnext
      refine .inr ⟨hq, ?_⟩
      intro k hk
      rw [← Option.some.inj hk]
      exact hnext
    | some q =>
      rw [hq] at hnext
      have hfst := fst_of_firstUsable hq
      exact .inl ⟨q, hq, by rw [hfst]; rfl, by rw [hfst]; exact hnext⟩

end Vars

/-! ## One round -/

section Round
variable {cfg : StreamConfig} {maxNextSeq : Nat} {s : Stream} {w : Walk}

lemma firstUsable_append (vars : PacketVars) (l l' : List (Nat × Nat)) :
    firstUsable vars (l ++ l') = (firstUsable vars l).or (firstUsable vars l') := by
  rw [firstUsable, List.find?_append]
  rfl

lemma okRound_take {ignorePsh : Bool} (h : Walkable s.queuePacketVars) {p q : Nat × Nat}
    (hlast : s.okPackets.getLast? = some p)
    (hq : firstUsable s.queuePacketVars
      (candidates cfg.completeMod (layout s.queuePacketVars) p) = some q) :
    okRound cfg maxNextSeq ignorePsh s w = takeVar cfg maxNextSeq ignorePsh s w q.1 ∧
      nextSeqAt s.queuePacketVars q.1 = q.2 := by
  have hseq : wantedSeq s w = p.2 := by rw [wantedSeq, hlast]
  rw [candidates, firstUsable_append, get_layout, Option.isSome_map] at hq
  rw [okRound, hseq]
  cases hstart : firstUsable s.queuePacketVars
      (startsAt cfg.completeMod (layout s.queuePacketVars) p.2) with
  | some r =>
    rw [hstart, Option.some_or] at hq
    obtain ⟨hfind, hnext, hfailed⟩ := findVar_some h hstart
    rw [← Option.some.inj hq]
    refine ⟨?_, hnext⟩
    rw [failedAt] at hfailed
    rw [if_neg hfailed, hfind]
  | none =>
    rw [hstart, Option.none_or] at hq
    rcases findVar_none h hstart with ⟨hmod, hsome, -⟩ | ⟨hsome, hfailed, hfind⟩
    · rw [if_pos ⟨hmod, hsome⟩] at hq
      cases hq
    · rw [if_neg hsome] at hq
      rw [failedAt] at hfailed
      rcases gapSearch_cases h p with ⟨r, hr, hgap, hnext⟩ | ⟨hnone, -⟩
      · rw [hr] at hq
        rw [← Option.some.inj hq]
        refine ⟨?_, hnext⟩
        rw [if_neg hfailed, hfind, hlast, Option.bind_some, hgap]
      · rw [hnone] at hq
        cases hq

lemma okRound_giveUp {ignorePsh : Bool} (h : Walkable s.queuePacketVars) {p : Nat × Nat}
    (hlast : s.okPackets.getLast? = some p)
    (hq : firstUsable s.queuePacketVars
      (candidates cfg.completeMod (layout s.queuePacketVars) p) = none) :
    (cfg.completeMod = 1 ∧ (SortedMap.get p.2 s.queuePacketVars).isSome ∧
      okRound cfg maxNextSeq ignorePsh s w = .next s.failLast
        (if s.failLast.okPackets = [] then
          { w with forceFirstSeq :=
              (nextUsable s.failLast.queuePacketVars p.2).getD cfg.mapEnd } else w)) ∨
    (¬(cfg.completeMod = 1 ∧ (SortedMap.get p.2 s.queuePacketVars).isSome) ∧
      okRound cfg maxNextSeq ignorePsh s w = countRound s.failLast w) := by
  have hseq : wantedSeq s w = p.2 := by rw [wantedSeq, hlast]
  have hrow : s.okPackets ≠ [] := by
    intro hnil
    rw [hnil] at hlast
    cases hlast
  rw [candidates, firstUsable_append, get_layout, Option.isSome_map] at hq
  obtain ⟨hstart, hwithin⟩ := Option.or_eq_none_iff.mp hq
  rw [okRound, hseq]
  rcases findVar_none h hstart with ⟨hmod, hsome, hfailed⟩ | ⟨hsome, hfailed, hfind⟩
  · refine .inl ⟨hmod, hsome, ?_⟩
    rw [if_pos ⟨hmod, hfailed⟩]
  · refine .inr ⟨hsome, ?_⟩
    rw [if_neg hsome] at hwithin
    rw [failedAt] at hfailed
    rw [if_neg hfailed, hfind, hlast, Option.bind_some]
    rcases gapSearch_cases h p with ⟨r, hr, -, -⟩ | ⟨-, hzero⟩
    · rw [hr] at hwithin
      cases hwithin
    · cases hgap : gapSearch s.queuePacketVars p.1 p.2 with
      | none =>
        rw [if_neg hrow]
      | some k =>
        have hnext := hzero k hgap
        rw [nextSeqAt] at hnext
        dsimp only
        rw [takeVar, hnext]
        dsimp only
        rw [if_neg (by simp), if_pos hrow]

lemma okRound_start {ignorePsh : Bool} (h : Walkable s.queuePacketVars) {q : Nat × Nat}
    (hq : firstUsable s.queuePacketVars
      (startsAt cfg.completeMod (layout s.queuePacketVars) (wantedSeq s w)) = some q) :
    okRound cfg maxNextSeq ignorePsh s w = takeVar cfg maxNextSeq ignorePsh s w q.1 ∧
      nextSeqAt s.queuePacketVars q.1 = q.2 := by
  obtain ⟨hfind, hnext, hfailed⟩ := findVar_some h hq
  refine ⟨?_, hnext⟩
  rw [okRound]
  rw [failedAt] at hfailed
  rw [if_neg hfailed, hfind]

lemma okRound_restart {ignorePsh : Bool} (h : Walkable s.queuePacketVars)
    (hrow : s.okPackets = []) (hq : firstUsable s.queuePacketVars
      (startsAt cfg.completeMod (layout s.queuePacketVars) (wantedSeq s w)) = none) :
    (cfg.completeMod = 1 ∧ (SortedMap.get (wantedSeq s w) s.queuePacketVars).isSome ∧
      okRound cfg maxNextSeq ignorePsh s w = .next s
        { w with forceFirstSeq :=
            (nextUsable s.queuePacketVars (wantedSeq s w)).getD cfg.mapEnd }) ∨
    okRound cfg maxNextSeq ignorePsh s w = .done (w.counter = 0) s := by
  have hfail : s.failLast = s := by rw [failLast, hrow]; rfl
  rw [okRound]
  dsimp only
  rcases findVar_none h hq with ⟨hmod, hsome, hfailed⟩ | ⟨hsome, hfailed, hfind⟩
  · refine .inl ⟨hmod, hsome, ?_⟩
    rw [failedAt] at hfailed
    rw [if_pos ⟨hmod, hfailed⟩, hfail, if_pos hrow]
  · refine .inr ?_
    rw [failedAt] at hfailed
    rw [if_neg hfailed, hfind, hrow]
    simp

def takePacket (s : Stream) (q : Nat × Nat) : Stream :=
  { s.setState q .check with okPackets := s.okPackets ++ [q] }

lemma takeVar_eq {q : Nat × Nat} (hnext : nextSeqAt s.queuePacketVars q.1 = q.2) (hne : q.2 ≠ 0)
    (hpsh : w.waitForPsh = false) :
    takeVar cfg maxNextSeq true s w q.1 =
      if reachesEnd s maxNextSeq q.2 then
        match saveCompleteData cfg { s.takePacket q with isOk := true } with
        | none => .broken
        | some s => .done true s
      else countRound (s.takePacket q) w := by
  rw [nextSeqAt] at hnext
  rw [takeVar, hnext]
  rw [if_pos hne, hpsh]
  simp only [Bool.false_eq_true, if_false, not_true_eq_false, and_false]
  rfl

end Round

/-! ## Changed states -/

section States
variable {vars : PacketVars}

def withState (vars : PacketVars) (q : Nat × Nat) (state : PacketState) : PacketVars :=
  SortedMap.update q.1 (fun v => v.setState q.2 state) vars

lemma packetAt_withState (vars : PacketVars) (q r : Nat × Nat) (state : PacketState) :
    packetAt (withState vars q state) r =
      if q = r then (packetAt vars r).map (fun p => { p with state := state })
      else packetAt vars r := by
  rw [packetAt, withState, SortedMap.get_update, packetAt]
  by_cases h1 : q.1 = r.1
  · rw [if_pos h1]
    cases SortedMap.get r.1 vars with
    | none => simp
    | some v =>
      rw [Option.map_some, Option.bind_some, Option.bind_some, PacketVar.setState,
        SortedMap.get_update]
      by_cases h2 : q.2 = r.2
      · rw [if_pos h2, if_pos (Prod.ext h1 h2)]
      · rw [if_neg h2, if_neg (fun h => h2 (by rw [h]))]
  · rw [if_neg h1, if_neg (fun h => h1 (by rw [h]))]

lemma layout_withState (vars : PacketVars) (q : Nat × Nat) (state : PacketState) :
    layout (withState vars q state) = layout vars := by
  rw [layout, layout, withState, SortedMap.update_eq_map, List.map_map]
  refine List.map_congr_left ?_
  intro e _
  rw [Function.comp_apply]
  split
  · rw [PacketVar.setState, SortedMap.update_eq_map, List.map_map]
    rfl
  · rfl

lemma Walkable.withState (h : Walkable vars) (q : Nat × Nat) (state : PacketState) :
    Walkable (withState vars q state) := by
  refine ⟨h.sorted.update _ _, ?_, ?_⟩
  · intro e he
    obtain ⟨e', he', rfl⟩ := List.mem_map.mp he
    split
    · dsimp only [PacketVar.setState]
      exact (h.varSorted e' he').update _ _
    · exact h.varSorted e' he'
  · intro e he r hr
    obtain ⟨e', he', rfl⟩ := List.mem_map.mp he
    split at hr
    · obtain ⟨r', hr', rfl⟩ := List.mem_map.mp hr
      have hpacket := h.packet e' he' r' hr'
      split
      · exact hpacket
      · exact hpacket
    · exact h.packet e' he' r hr

lemma isSome_packetAt_withState (vars : PacketVars) (q r : Nat × Nat) (state : PacketState) :
    (packetAt (withState vars q state) r).isSome = (packetAt vars r).isSome := by
  rw [packetAt_withState]
  split
  · rw [Option.isSome_map]
  · rfl

lemma failed_check {q : Nat × Nat} (hq : failed vars q = false) :
    failed (withState vars q .check) = failed vars := by
  funext r
  rw [failed, packetAt_withState]
  split
  · rename_i hr
    rw [hr] at hq
    rw [hq]
    cases packetAt vars r <;> rfl
  · rfl

lemma failed_fail {q : Nat × Nat} (hq : (packetAt vars q).isSome) (r : Nat × Nat) :
    failed (withState vars q .fail) r = true ↔ failed vars r = true ∨ r = q := by
  rw [failed, packetAt_withState]
  split
  · rename_i hr
    rw [← hr]
    obtain ⟨p, hp⟩ := Option.isSome_iff_exists.mp hq
    rw [hp]
    simp
  · rename_i hr
    have hne : r ≠ q := fun h => hr h.symm
    simp [failed, hne]

lemma isSome_packetAt_iff (h : Walkable vars) (q : Nat × Nat) :
    (packetAt vars q).isSome ↔ ∃ e ∈ layout vars, q ∈ rowsAt e := by
  constructor
  · intro hsome
    obtain ⟨p, hp⟩ := Option.isSome_iff_exists.mp hsome
    obtain ⟨v, hv, hpacket⟩ := Option.bind_eq_some_iff.mp hp
    refine ⟨_, List.mem_map.mpr ⟨_, SortedMap.mem_of_get hv, rfl⟩, ?_⟩
    refine List.mem_map.mpr ⟨q.2, ?_, rfl⟩
    exact List.mem_map.mpr ⟨_, SortedMap.mem_of_get hpacket, rfl⟩
  · rintro ⟨e, he, hq⟩
    obtain ⟨e', he', rfl⟩ := List.mem_map.mp he
    obtain ⟨n, hn, rfl⟩ := List.mem_map.mp hq
    obtain ⟨r, hr, rfl⟩ := List.mem_map.mp hn
    rw [packetAt, h.sorted.get_of_mem he', Option.bind_some, (h.varSorted e' he').get_of_mem hr]
    rfl

lemma end_ne_zero (h : Walkable vars) {q : Nat × Nat} (hq : ∃ e ∈ layout vars, q ∈ rowsAt e) :
    q.2 ≠ 0 := by
  obtain ⟨e, he, hq⟩ := hq
  obtain ⟨e', he', rfl⟩ := List.mem_map.mp he
  obtain ⟨n, hn, rfl⟩ := List.mem_map.mp hq
  obtain ⟨r, hr, rfl⟩ := List.mem_map.mp hn
  exact (h.packet e' he' r hr).2.2

end States

end Stream

end VoipMonitor.Tcp
