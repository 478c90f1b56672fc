import VoipMonitor.Proofs.TcpComplete
import VoipMonitor.Proofs.TcpWalk

/-!
# Packets without gaps and overlaps

When each queued packet begins where the one before ends, the walk takes one after the other and
gives none up.
-/

namespace VoipMonitor.Tcp
open VoipMonitor.Library

namespace Stream

def cleared (vars : PacketVars) : PacketVars := vars.map (fun e => (e.1, e.2.cleanState))

lemma packetAt_cleared (vars : PacketVars) (q : Nat × Nat) :
    packetAt (cleared vars) q = (packetAt vars q).map (fun p => { p with state := .na }) := by
  have hget := SortedMap.get_map (fun _ v => PacketVar.cleanState v) q.1 vars
  rw [packetAt, packetAt, cleared, hget]
  cases SortedMap.get q.1 vars with
  | none => rfl
  | some v =>
    have hpacket := SortedMap.get_map (fun _ (p : StreamPacket) => { p with state := .na }) q.2
      v.queuePackets
    rw [Option.map_some, Option.bind_some, Option.bind_some, PacketVar.cleanState, hpacket]

lemma layout_cleared (vars : PacketVars) : layout (cleared vars) = layout vars := by
  rw [layout, cleared, List.map_map, layout]
  refine List.map_congr_left ?_
  intro e _
  rw [Function.comp_apply, PacketVar.cleanState, List.map_map]
  rfl

lemma cleared_withState (vars : PacketVars) (q : Nat × Nat) (state : PacketState) :
    cleared (withState vars q state) = cleared vars := by
  rw [cleared, cleared, withState, SortedMap.update_eq_map, List.map_map]
  refine List.map_congr_left ?_
  intro e _
  rw [Function.comp_apply]
  split
  · rw [PacketVar.setState, PacketVar.cleanState, SortedMap.update_eq_map, List.map_map,
      PacketVar.cleanState]
    congr 2
    refine List.map_congr_left ?_
    intro r _
    rw [Function.comp_apply]
    split <;> rfl
  · rfl

lemma failed_cleared (vars : PacketVars) (q : Nat × Nat) : failed (cleared vars) q = false := by
  rw [failed, packetAt_cleared]
  cases packetAt vars q <;> rfl

lemma cleared_cleared (vars : PacketVars) : cleared (cleared vars) = cleared vars := by
  rw [cleared, cleared, List.map_map]
  refine List.map_congr_left ?_
  intro e _
  rw [Function.comp_apply, PacketVar.cleanState, PacketVar.cleanState, List.map_map]
  rfl

lemma Walkable.cleared {vars : PacketVars} (h : Walkable vars) : Walkable (cleared vars) := by
  refine ⟨h.sorted.map _ (fun _ => rfl), ?_, ?_⟩
  · intro e he
    obtain ⟨e', he', rfl⟩ := List.mem_map.mp he
    exact (h.varSorted e' he').map _ (fun _ => rfl)
  · intro e he q hq
    obtain ⟨e', he', rfl⟩ := List.mem_map.mp he
    obtain ⟨q', hq', rfl⟩ := List.mem_map.mp hq
    exact h.packet e' he' q' hq'

lemma Gives.of_cleared {cfg : StreamConfig} {s s' : Stream} {isFirst : Bool} {p : Nat × Nat}
    {b : Bytes} (h : Gives cfg s isFirst p b)
    (hvars : cleared s'.queuePacketVars = cleared s.queuePacketVars) :
    Gives cfg s' isFirst p b := by
  obtain ⟨packet, hget, hlen, hzero, hbytes⟩ := h.packet
  have hpacket : (packetAt s'.queuePacketVars p).map (fun p => { p with state := .na }) =
      some { packet with state := .na } := by
    rw [← packetAt_cleared, hvars, packetAt_cleared]
    exact congrArg _ hget
  obtain ⟨packet', hget', heq⟩ := Option.map_eq_some_iff.mp hpacket
  have hoffset : s'.getPacketOffset p.1 = s.getPacketOffset p.1 := by
    have hsame := congrArg (fun vars => ((SortedMap.get p.1 vars).map
      (fun v : PacketVar => v.offset)).getD 0) hvars
    have hget := fun vars => SortedMap.get_map (fun _ v => PacketVar.cleanState v) p.1 vars
    dsimp only [cleared] at hsame
    rw [hget, hget, Option.map_map, Option.map_map] at hsame
    exact hsame
  have hdata : packet'.data = packet.data := (StreamPacket.mk.inj heq).2.2.2.1
  have hdatalen : packet'.datalen = packet.datalen := (StreamPacket.mk.inj heq).2.2.2.2.1
  refine ⟨⟨packet', hget', by rw [hdatalen]; exact hlen, by rw [hdata]; exact hzero, ?_⟩, h.ne_nil⟩
  rw [packetBytes, hoffset, hdata, hdatalen]
  exact hbytes

def Walked (s s' : Stream) : Prop :=
  ∃ vars row, s' = { s with queuePacketVars := vars, okPackets := row } ∧
    cleared vars = cleared s.queuePacketVars

lemma Walked.refl (s : Stream) : Walked s s := ⟨s.queuePacketVars, s.okPackets, rfl, rfl⟩

lemma Walked.trans {s s' s'' : Stream} (h : Walked s s') (h' : Walked s' s'') : Walked s s'' := by
  obtain ⟨vars, row, rfl, hvars⟩ := h
  obtain ⟨vars', row', rfl, hvars'⟩ := h'
  exact ⟨vars', row', rfl, hvars'.trans hvars⟩

lemma walked_takePacket (s : Stream) (q : Nat × Nat) : Walked s (s.takePacket q) :=
  ⟨withState s.queuePacketVars q .check, s.okPackets ++ [q], rfl, cleared_withState _ _ _⟩

lemma Walked.reachesEnd {s s' : Stream} (h : Walked s s') (maxNextSeq nextSeq : Nat) :
    reachesEnd s' maxNextSeq nextSeq = reachesEnd s maxNextSeq nextSeq := by
  obtain ⟨vars, row, rfl, -⟩ := h
  rfl

lemma Walked.layout {s s' : Stream} (h : Walked s s') :
    layout s'.queuePacketVars = layout s.queuePacketVars := by
  obtain ⟨vars, row, rfl, hvars⟩ := h
  rw [← layout_cleared, hvars, layout_cleared]

/-! ## A straight row -/

def straight (row : List (Nat × Nat)) : Layout := row.map (fun p => (p.1, [p.2]))

lemma firstUsable_of_head {vars : PacketVars} (hfail : ∀ r, failed vars r = false)
    {l : List (Nat × Nat)} {q : Nat × Nat} (h : l.head? = some q) :
    firstUsable vars l = some q := by
  cases l with
  | nil => cases h
  | cons r l =>
    rw [List.head?_cons] at h
    rw [firstUsable, List.find?_cons, hfail, ← h]
    rfl

lemma head_startsAt (completeMod : Nat) {row rest : List (Nat × Nat)} {q : Nat × Nat}
    (hsorted : SortedMap.Sorted seqLt (straight (row ++ q :: rest))) :
    (startsAt completeMod (straight (row ++ q :: rest)) q.1).head? = some q := by
  have hget : SortedMap.get q.1 (straight (row ++ q :: rest)) = some [q.2] :=
    hsorted.get_of_mem (List.mem_map.mpr ⟨q, by simp, rfl⟩)
  rw [startsAt, hget]
  split
  · rfl
  · rw [if_neg (by simp), straight, List.map_append, List.filter_append, List.map_cons]
    have hrow : (row.map (fun p => (p.1, [p.2]))).filter (fun e => q.1 ≤ e.1) = [] := by
      rw [List.filter_eq_nil_iff]
      intro e he hle
      rw [straight, List.map_append, List.map_cons] at hsorted
      have hlt := (List.pairwise_append.mp hsorted).2.2 e he (q.1, [q.2]) List.mem_cons_self
      simp only [seqLt, decide_eq_true_eq] at hlt hle
      omega
    rw [hrow, List.nil_append, List.filter_cons_of_pos (by simp)]
    rfl

section Loop
variable {cfg : StreamConfig} {maxNextSeq : Nat}

lemma straight_round {row rest : List (Nat × Nat)} {p : Nat × Nat} {s : Stream} {w : Walk}
    (hwalk : Walkable s.queuePacketVars)
    (hlayout : layout s.queuePacketVars = straight (row ++ p :: rest))
    (hfail : ∀ r, failed s.queuePacketVars r = false) (hwanted : wantedSeq s w = p.1)
    (hpsh : w.waitForPsh = false) :
    okRound cfg maxNextSeq true s w =
      if reachesEnd s maxNextSeq p.2 then
        match saveCompleteData cfg { s.takePacket p with isOk := true } with
        | none => .broken
        | some s => .done true s
      else countRound (s.takePacket p) w := by
  have hsorted : SortedMap.Sorted seqLt (straight (row ++ p :: rest)) := by
    rw [← hlayout]
    exact hwalk.sorted.map _ (fun _ => rfl)
  have hfirst : firstUsable s.queuePacketVars
      (startsAt cfg.completeMod (layout s.queuePacketVars) (wantedSeq s w)) = some p := by
    rw [hlayout, hwanted]
    exact firstUsable_of_head hfail (head_startsAt cfg.completeMod hsorted)
  have hround : okRound cfg maxNextSeq true s w = takeVar cfg maxNextSeq true s w p.1 ∧ _ :=
    okRound_start hwalk hfirst
  have hne : p.2 ≠ 0 := end_ne_zero hwalk (mem_startsAt (List.mem_of_find?_eq_some hfirst))
  rw [hround.1]
  exact takeVar_eq hround.2 hne hpsh

lemma failed_takePacket {s : Stream} (hfail : ∀ r, failed s.queuePacketVars r = false)
    (p r : Nat × Nat) : failed (s.takePacket p).queuePacketVars r = false :=
  (congrFun (failed_check (hfail p)) r).trans (hfail r)

/-- The walk along a straight row up to the first packet that ends at an end of the stream: it gets
there, or the rounds do not suffice. -/
lemma straight_loop {pre : List (Nat × Nat)} : ∀ {row post : List (Nat × Nat)} {q : Nat × Nat}
    {s : Stream} {w : Walk} {fuel : Nat}, Walkable s.queuePacketVars →
    layout s.queuePacketVars = straight (row ++ (pre ++ q :: post)) →
    (∀ r, failed s.queuePacketVars r = false) → s.okPackets = row →
    (∀ r ∈ (pre ++ [q]).head?, wantedSeq s w = r.1) →
    (pre ++ [q]).IsChain (fun p q => p.2 = q.1) → w.waitForPsh = false →
    (∀ r ∈ pre, reachesEnd s maxNextSeq r.2 = false) → reachesEnd s maxNextSeq q.2 = true →
    ∃ s', Walked s s' ∧
      (s'.okPackets = row ++ (pre ++ [q]) ∧ okLoop cfg maxNextSeq true fuel s w =
          (saveCompleteData cfg { s' with isOk := true }).map (fun s => (true, s)) ∨
        fuel ≤ pre.length ∧ okLoop cfg maxNextSeq true fuel s w = none ∨
        500 < w.counter + pre.length ∧ okLoop cfg maxNextSeq true fuel s w = some (false, s')) := by
  induction pre with
  | nil =>
    intro row post q s w fuel hwalk hlayout hfail hok hwanted _ hpsh _ hend
    cases fuel with
    | zero => exact ⟨s, Walked.refl s, .inr (.inl ⟨Nat.zero_le _, rfl⟩)⟩
    | succ fuel =>
      refine ⟨s.takePacket q, walked_takePacket s q, .inl ⟨by rw [takePacket, hok]; rfl, ?_⟩⟩
      rw [okLoop, straight_round hwalk hlayout hfail (hwanted q rfl) hpsh, if_pos hend]
      cases saveCompleteData cfg { s.takePacket q with isOk := true } <;> rfl
  | cons p pre ih =>
    intro row post q s w fuel hwalk hlayout hfail hok hwanted hchain hpsh hpre hend
    cases fuel with
    | zero => exact ⟨s, Walked.refl s, .inr (.inl ⟨Nat.zero_le _, rfl⟩)⟩
    | succ fuel =>
      have hwalked := walked_takePacket s p
      have hround := @straight_round cfg maxNextSeq _ _ _ s w hwalk hlayout hfail (hwanted p rfl) hpsh
      rw [if_neg (by rw [hpre p List.mem_cons_self]; simp), countRound] at hround
      rw [okLoop, hround]
      by_cases hcount : w.counter + 1 > 500
      · rw [if_pos hcount]
        exact ⟨s.takePacket p, hwalked, .inr (.inr ⟨by rw [List.length_cons]; omega, rfl⟩)⟩
      rw [if_neg hcount]
      have hrow : (s.takePacket p).okPackets = row ++ [p] := by rw [takePacket, hok]
      have hwanted' : ∀ r ∈ (pre ++ [q]).head?,
          wantedSeq (s.takePacket p) { w with counter := w.counter + 1 } = r.1 := by
        intro r hr
        rw [wantedSeq, hrow, List.getLast?_concat]
        exact (List.isChain_cons.mp hchain).1 r hr
      have hpre' : ∀ r ∈ pre, reachesEnd (s.takePacket p) maxNextSeq r.2 = false := by
        intro r hr
        rw [hwalked.reachesEnd]
        exact hpre r (List.mem_cons_of_mem _ hr)
      have hlayout' : layout (s.takePacket p).queuePacketVars =
          straight (row ++ [p] ++ (pre ++ q :: post)) := by
        rw [hwalked.layout, hlayout, List.append_assoc]
        rfl
      obtain ⟨s', hwalked', hcases⟩ := @ih (row ++ [p]) post q (s.takePacket p)
        { w with counter := w.counter + 1 } fuel (hwalk.withState p .check) hlayout'
        (failed_takePacket hfail p) hrow hwanted' hchain.tail hpsh hpre'
        (by rw [hwalked.reachesEnd]; exact hend)
      refine ⟨s', hwalked.trans hwalked', ?_⟩
      rw [List.length_cons]
      rcases hcases with ⟨hok', hloop⟩ | ⟨hfuel, hloop⟩ | ⟨hcounter, hloop⟩
      · refine .inl ⟨?_, hloop⟩
        rw [hok', List.append_assoc]
        rfl
      · exact .inr (.inl ⟨by omega, hloop⟩)
      · dsimp only at hcounter
        exact .inr (.inr ⟨by omega, hloop⟩)

end Loop

/-! ## Walks that cannot end -/

lemma walked_failLast {s : Stream} (h : Walkable s.queuePacketVars) :
    Walked s s.failLast ∧ Walkable s.failLast.queuePacketVars := by
  unfold failLast
  split
  · exact ⟨Walked.refl s, h⟩
  · rename_i p _
    exact ⟨⟨withState s.queuePacketVars p .fail, _, rfl, cleared_withState _ _ _⟩, h.withState p .fail⟩

section NoEnd
variable {cfg : StreamConfig} {maxNextSeq : Nat}

def Unended (s : Stream) : Round → Prop
  | .done _ s' => Walked s s'
  | .next s' w' => Walked s s' ∧ Walkable s'.queuePacketVars ∧ w'.waitForPsh = false
  | .broken => False

lemma unended_countRound {s s' : Stream} {w : Walk} (h : Walked s s')
    (hwalk : Walkable s'.queuePacketVars) (hpsh : w.waitForPsh = false) :
    Unended s (countRound s' w) := by
  unfold countRound
  split
  · exact h
  · exact ⟨h, hwalk, hpsh⟩

lemma unended_okRound {s : Stream} {w : Walk} (h : Walkable s.queuePacketVars)
    (hpsh : w.waitForPsh = false)
    (hno : ∀ e ∈ layout s.queuePacketVars, ∀ q ∈ rowsAt e, reachesEnd s maxNextSeq q.2 = false) :
    Unended s (okRound cfg maxNextSeq true s w) := by
  obtain ⟨hfail, hfailWalk⟩ := walked_failLast h
  have htake : ∀ q, (∃ e ∈ layout s.queuePacketVars, q ∈ rowsAt e) →
      nextSeqAt s.queuePacketVars q.1 = q.2 →
      Unended s (takeVar cfg maxNextSeq true s w q.1) := by
    rintro q ⟨e, he, hq⟩ hnext
    rw [takeVar_eq hnext (end_ne_zero h ⟨e, he, hq⟩) hpsh, if_neg (by rw [hno e he q hq]; simp)]
    exact unended_countRound (walked_takePacket s q) (h.withState q .check) hpsh
  cases hlast : s.okPackets.getLast? with
  | none =>
    have hnil : s.okPackets = [] := List.getLast?_eq_none_iff.mp hlast
    cases hq : firstUsable s.queuePacketVars
        (startsAt cfg.completeMod (layout s.queuePacketVars) (wantedSeq s w)) with
    | some q =>
      have hround : okRound cfg maxNextSeq true s w = takeVar cfg maxNextSeq true s w q.1 ∧ _ :=
        okRound_start h hq
      rw [hround.1]
      exact htake q (mem_startsAt (List.mem_of_find?_eq_some hq)) hround.2
    | none =>
      have hround : (_ ∧ _ ∧ okRound cfg maxNextSeq true s w = _) ∨
          okRound cfg maxNextSeq true s w = _ := okRound_restart h hnil hq
      rcases hround with ⟨-, -, hround⟩ | hround
      · rw [hround]
        exact ⟨Walked.refl s, h, hpsh⟩
      · rw [hround]
        exact Walked.refl s
  | some p =>
    cases hq : firstUsable s.queuePacketVars
        (candidates cfg.completeMod (layout s.queuePacketVars) p) with
    | some q =>
      have hround : okRound cfg maxNextSeq true s w = takeVar cfg maxNextSeq true s w q.1 ∧ _ :=
        okRound_take h hlast hq
      rw [hround.1]
      exact htake q (mem_candidates (List.mem_of_find?_eq_some hq)) hround.2
    | none =>
      have hround : (_ ∧ _ ∧ okRound cfg maxNextSeq true s w = _) ∨
          (_ ∧ okRound cfg maxNextSeq true s w = _) := okRound_giveUp h hlast hq
      rcases hround with ⟨-, -, hround⟩ | ⟨-, hround⟩
      · rw [hround]
        refine ⟨hfail, hfailWalk, ?_⟩
        split
        · exact hpsh
        · exact hpsh
      · rw [hround]
        exact unended_countRound hfail hfailWalk hpsh

lemma okLoop_unended {fuel : Nat} {s : Stream} {w : Walk} {result : Bool} {s' : Stream}
    (h : Walkable s.queuePacketVars) (hpsh : w.waitForPsh = false)
    (hno : ∀ e ∈ layout s.queuePacketVars, ∀ q ∈ rowsAt e, reachesEnd s maxNextSeq q.2 = false)
    (hloop : okLoop cfg maxNextSeq true fuel s w = some (result, s')) : Walked s s' := by
  induction fuel generalizing s w with
  | zero => cases hloop
  | succ fuel ih =>
    have hround := @unended_okRound cfg maxNextSeq s w h hpsh hno
    rw [okLoop] at hloop
    cases hr : okRound cfg maxNextSeq true s w with
    | done r s'' =>
      rw [hr] at hloop hround
      obtain ⟨-, rfl⟩ := Prod.mk.inj (Option.some.inj hloop)
      exact hround
    | next s'' w'' =>
      rw [hr] at hloop hround
      obtain ⟨hwalked, hwalk, hpsh'⟩ := hround
      refine hwalked.trans (ih hwalk hpsh' ?_ hloop)
      rw [hwalked.layout]
      intro e he q hq
      rw [hwalked.reachesEnd]
      exact hno e he q hq
    | broken =>
      rw [hr] at hloop
      cases hloop

end NoEnd

/-! ## The begin of `ok` -/

lemma wantedSeq_nil {s : Stream} {w : Walk} (hrow : s.okPackets = []) (hfirst : s.firstSeq = 0) :
    wantedSeq s w = if w.forceFirstSeq ≠ 0 then w.forceFirstSeq else s.minSeq := by
  rw [wantedSeq, hrow, hfirst, List.getLast?_nil]
  rw [if_neg (by omega)]
  simp

lemma ok_eq_okLoop {cfg : StreamConfig} {fuel maxNextSeq forceFirstSeq : Nat} {ignorePsh : Bool}
    {s : Stream} (hisOk : s.isOk = false) (hcount : s.counterTryOk ≤ cfg.maxReassemblyAttempts)
    (hwalk : Walkable s.queuePacketVars) (hne : s.queuePacketVars ≠ [])
    (hvars : ∀ e ∈ s.queuePacketVars, e.2.queuePackets ≠ []) :
    ok cfg fuel maxNextSeq forceFirstSeq ignorePsh s =
      okLoop cfg maxNextSeq ignorePsh fuel
        { s with
          counterTryOk := s.counterTryOk + 1
          queuePacketVars := cleared s.queuePacketVars
          okPackets := [] } ⟨0, false, forceFirstSeq⟩ := by
  rw [ok, if_neg (by rw [hisOk]; simp), if_neg (by omega)]
  obtain ⟨e, vars, heq⟩ := List.exists_cons_of_ne_nil hne
  have hmem : (e.1, e.2.cleanState) ∈ cleared s.queuePacketVars := by
    rw [heq]
    exact List.mem_cons_self
  have hcheck := getNextSeqCheck_eq hwalk.cleared hmem
  obtain ⟨q, l, hq⟩ := List.exists_cons_of_ne_nil (hvars e (by rw [heq]; exact List.mem_cons_self))
  have hfirst : firstUsable (cleared s.queuePacketVars) (rowsAt ((e.1, e.2.cleanState).1,
      (e.1, e.2.cleanState).2.queuePackets.map (fun q => q.1))) = some (e.1, q.1) := by
    refine firstUsable_of_head (failed_cleared _) ?_
    rw [rowsAt, PacketVar.cleanState]
    rw [hq]
    rfl
  rw [hfirst, Option.map_some, Option.getD_some] at hcheck
  have hq0 : q.1 ≠ 0 := (hwalk.packet e (by rw [heq]; exact List.mem_cons_self) q
    (by rw [hq]; exact List.mem_cons_self)).2.2
  have hclean : { s with counterTryOk := s.counterTryOk + 1 }.cleanPacketsState =
      { s with
        counterTryOk := s.counterTryOk + 1
        queuePacketVars := cleared s.queuePacketVars
        okPackets := [] } := rfl
  rw [hclean]
  have hcons : cleared s.queuePacketVars = (e.1, e.2.cleanState) :: cleared vars := by
    rw [heq]
    rfl
  rw [hcons]
  dsimp only
  rw [if_neg (by rw [hcheck]; exact hq0)]

lemma overlap_of_touch {p q : Nat × Nat} (h : p.2 = q.1) : overlap p q = 0 := by
  rw [overlap, if_neg (by omega)]

section Straight
variable {cfg : StreamConfig} {fuel maxNextSeq forceFirstSeq : Nat} {s : Stream}
  {bytes : Nat × Nat → Bytes} {pre post : List (Nat × Nat)} {q : Nat × Nat}
  (hisOk : s.isOk = false) (hcount : s.counterTryOk ≤ cfg.maxReassemblyAttempts)
  (hnone : s.completeData = none) (hwalk : Walkable s.queuePacketVars)
  (hlayout : layout s.queuePacketVars = straight (pre ++ q :: post))
  (hfirstSeq : s.firstSeq = 0)
  (hwanted : ∀ r ∈ (pre ++ [q]).head?,
    (if forceFirstSeq ≠ 0 then forceFirstSeq else s.minSeq) = r.1)
  (hchain : (pre ++ [q]).IsChain (fun p q => p.2 = q.1))
  (hpre : ∀ r ∈ pre, reachesEnd s maxNextSeq r.2 = false)
  (hend : reachesEnd s maxNextSeq q.2 = true)
  (hfirst : ∀ r ∈ (pre ++ [q]).head?, Gives cfg s true r (bytes r))
  (hrest : ∀ r ∈ (pre ++ [q]).tail, Gives cfg s false r (bytes r))
include hisOk hcount hnone hwalk hlayout hfirstSeq hwanted hchain hpre hend hfirst hrest

/-- `ok` of a stream with a straight row: the row up to the first packet that ends at an end of the
stream is put together, unless the rounds do not suffice. -/
lemma ok_straight_cases :
    ∃ vars seq, cleared vars = cleared s.queuePacketVars ∧
      (ok cfg fuel maxNextSeq forceFirstSeq true s =
          some (true, { s with
            queuePacketVars := vars
            okPackets := pre ++ [q]
            isOk := true
            completeData := some ⟨rowBytes bytes (pre ++ [q]), seq⟩
            completeDataIndex := (pre ++ [q]).map (indexItem bytes)
            counterTryOk := s.counterTryOk + 1 }) ∨
        fuel ≤ pre.length ∧ ok cfg fuel maxNextSeq forceFirstSeq true s = none ∨
        500 < pre.length ∧ ∃ row, ok cfg fuel maxNextSeq forceFirstSeq true s =
          some (false, { s with
            queuePacketVars := vars
            okPackets := row
            counterTryOk := s.counterTryOk + 1 })) := by
  have hne : s.queuePacketVars ≠ [] := by
    intro hnil
    rw [hnil] at hlayout
    simp [layout, straight] at hlayout
  have hvars : ∀ e ∈ s.queuePacketVars, e.2.queuePackets ≠ [] := by
    intro e he hnil
    have hmem : (e.1, e.2.queuePackets.map (fun q => q.1)) ∈ layout s.queuePacketVars :=
      List.mem_map.mpr ⟨e, he, rfl⟩
    rw [hlayout, hnil] at hmem
    obtain ⟨r, -, hr⟩ := List.mem_map.mp hmem
    cases (Prod.mk.inj hr).2
  rw [ok_eq_okLoop hisOk hcount hwalk hne hvars]
  obtain ⟨s₁, hs₁⟩ : ∃ s₁ : Stream, s₁ = { s with
      counterTryOk := s.counterTryOk + 1
      queuePacketVars := cleared s.queuePacketVars
      okPackets := [] } := ⟨_, rfl⟩
  have hwalk₁ : Walkable s₁.queuePacketVars := by
    rw [hs₁]
    exact hwalk.cleared
  have hlayout₁ : layout s₁.queuePacketVars = straight ([] ++ (pre ++ q :: post)) := by
    rw [hs₁, List.nil_append, ← hlayout]
    exact layout_cleared _
  have hfail₁ : ∀ r, failed s₁.queuePacketVars r = false := by
    rw [hs₁]
    exact failed_cleared _
  have hwanted₁ : ∀ r ∈ (pre ++ [q]).head?, wantedSeq s₁ ⟨0, false, forceFirstSeq⟩ = r.1 := by
    intro r hr
    rw [wantedSeq_nil (by rw [hs₁]) (by rw [hs₁]; exact hfirstSeq), ← hwanted r hr, hs₁]
  obtain ⟨s', ⟨vars, row, rfl, hvars'⟩, hcases⟩ := @straight_loop cfg maxNextSeq pre [] post q s₁
    ⟨0, false, forceFirstSeq⟩ fuel hwalk₁ hlayout₁ hfail₁ (by rw [hs₁]) hwanted₁ hchain rfl
    (by rw [hs₁]; exact hpre) (by rw [hs₁]; exact hend)
  rw [hs₁] at hvars' hcases
  rw [cleared_cleared] at hvars'
  rw [List.nil_append, Nat.zero_add] at hcases
  rcases hcases with ⟨hok', hloop⟩ | ⟨hfuel, hloop⟩ | ⟨hcounter, hloop⟩
  · have htouch : (pre ++ [q]).IsChain (fun p q => overlap p q = 0) :=
      hchain.imp (fun _ _ h => overlap_of_touch h)
    obtain ⟨r, rest, hrow⟩ := List.exists_cons_of_ne_nil (List.concat_ne_nil q pre)
    rw [hrow] at hfirst hrest htouch hok' ⊢
    obtain ⟨seq, index, hsave, hindex⟩ := @saveCompleteData_row cfg
      { s with
        counterTryOk := s.counterTryOk + 1
        queuePacketVars := vars
        okPackets := row
        isOk := true } bytes r rest rfl hnone hok'
      ((hfirst r rfl).of_cleared hvars') (fun p hp => (hrest p hp).of_cleared hvars')
      (htouch.imp (fun _ _ h => by rw [h]; exact Nat.zero_le _))
    refine ⟨vars, seq, hvars', .inl ?_⟩
    rw [hloop, hsave, Option.map_some, hindex htouch, hok']
  · exact ⟨vars, 0, hvars', .inr (.inl ⟨hfuel, hloop⟩)⟩
  · exact ⟨vars, 0, hvars', .inr (.inr ⟨hcounter, row, hloop⟩)⟩

lemma ok_straight (hlen : pre.length ≤ 500) (hfuel : pre.length < fuel) :
    ∃ vars seq, cleared vars = cleared s.queuePacketVars ∧
      ok cfg fuel maxNextSeq forceFirstSeq true s =
        some (true, { s with
          queuePacketVars := vars
          okPackets := pre ++ [q]
          isOk := true
          completeData := some ⟨rowBytes bytes (pre ++ [q]), seq⟩
          completeDataIndex := (pre ++ [q]).map (indexItem bytes)
          counterTryOk := s.counterTryOk + 1 }) := by
  obtain ⟨vars, seq, hvars, hok | ⟨hfuel', -⟩ | ⟨hlen', -⟩⟩ :=
    @ok_straight_cases cfg fuel maxNextSeq forceFirstSeq s bytes pre post q hisOk hcount hnone hwalk
      hlayout hfirstSeq hwanted hchain hpre hend hfirst hrest
  · exact ⟨vars, seq, hvars, hok⟩
  · omega
  · omega

end Straight

end Stream

end VoipMonitor.Tcp
