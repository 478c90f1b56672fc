import VoipMonitor.Model.TcpOkQueue
import VoipMonitor.Proofs.TcpPush

/-!
# The row behind a successful check

A link reads the first packet of the row of each stream that `ok` says is ok. `ok` says so in three
places before it has a row: for a stream that is ok already, for one that was tried too often, and
for one without packets at the first wanted number. A check gives a row exactly when in the first
two cases there is one from before, and in the last the packets are there.
-/

namespace VoipMonitor.Tcp
open VoipMonitor.Library

/-! ## Queues without empty entries -/

def FullVars (vars : PacketVars) : Prop := ∀ e ∈ vars, e.2.queuePackets ≠ []

namespace FullVars
variable {vars : PacketVars}

lemma map (h : FullVars vars) {f : Nat × PacketVar → Nat × PacketVar}
    (hf : ∀ e ∈ vars, e.2.queuePackets ≠ [] → (f e).2.queuePackets ≠ []) :
    FullVars (vars.map f) := by
  intro e he
  obtain ⟨e', he', rfl⟩ := List.mem_map.mp he
  exact hf e' he' (h e' he')

lemma update (h : FullVars vars) (k : Nat) {f : PacketVar → PacketVar}
    (hf : ∀ v : PacketVar, v.queuePackets ≠ [] → (f v).queuePackets ≠ []) :
    FullVars (SortedMap.update k f vars) := by
  refine h.map ?_
  intro e _ hne
  split
  · exact hf e.2 hne
  · exact hne

lemma set (h : FullVars vars) (k : Nat) {v : PacketVar} (hv : v.queuePackets ≠ []) :
    FullVars (SortedMap.set seqLt k v vars) := by
  intro e he
  rcases SortedMap.mem_set he with rfl | he
  · exact hv
  · exact h e he

lemma sublist {vars' : PacketVars} (h : FullVars vars) (hsub : vars'.Sublist vars) :
    FullVars vars' :=
  fun e he => h e (hsub.subset he)

end FullVars

lemma setState_ne_nil {v : PacketVar} (h : v.queuePackets ≠ []) (nextSeq : Nat)
    (state : PacketState) : (v.setState nextSeq state).queuePackets ≠ [] := by
  intro hnil
  exact h (List.map_eq_nil_iff.mp hnil)

lemma cleanState_ne_nil {v : PacketVar} (h : v.queuePackets ≠ []) :
    v.cleanState.queuePackets ≠ [] := by
  intro hnil
  exact h (List.map_eq_nil_iff.mp hnil)

lemma isFail_cleanState {v : PacketVar} (h : v.queuePackets ≠ []) : v.cleanState.isFail = false := by
  obtain ⟨e, l, hcons⟩ := List.exists_cons_of_ne_nil h
  rw [PacketVar.isFail, PacketVar.cleanState, hcons, List.map_cons, List.all_cons]
  rfl

namespace Stream

def Full (s : Stream) : Prop := FullVars s.queuePacketVars

section Loop
variable {cfg : StreamConfig} {maxNextSeq : Nat} {ignorePsh : Bool} {s : Stream} {w : Walk}

lemma Full.setState (h : s.Full) (p : Nat × Nat) (state : PacketState) : (s.setState p state).Full :=
  FullVars.update h p.1 (fun _ hv => setState_ne_nil hv p.2 state)

lemma Full.failLast (h : s.Full) : s.failLast.Full := by
  cases hlast : s.okPackets.getLast? with
  | none =>
    rw [Stream.failLast, hlast]
    exact h
  | some p =>
    rw [Stream.failLast, hlast]
    exact h.setState p .fail

lemma Full.attempted (h : s.Full) : s.attempted.Full :=
  FullVars.map h (fun _ _ hv => cleanState_ne_nil hv)

lemma failLast_isOk : s.failLast.isOk = s.isOk := by
  unfold failLast
  split
  · rfl
  · rfl

lemma saveCompleteData_row_vars {s' : Stream} (h : saveCompleteData cfg s = some s') :
    s'.queuePacketVars = s.queuePacketVars ∧ s'.okPackets = s.okPackets ∧ s'.isOk = s.isOk := by
  unfold saveCompleteData at h
  split at h
  · obtain ⟨c, -, rfl⟩ := Option.map_eq_some_iff.mp h
    split
    · exact ⟨rfl, rfl, rfl⟩
    · exact ⟨rfl, rfl, rfl⟩
  · rw [← Option.some.inj h]
    exact ⟨rfl, rfl, rfl⟩

/-! ## The rounds of a check -/

def Checking (s : Stream) : Prop := s.Full ∧ s.isOk = false

/-- What a round leaves behind the first `counter` ones: a result, with a row when it is a success
behind the first round, or a state that was counted. -/
def RowBehind (counter : Nat) : Round → Prop
  | .done result s => s.Full ∧ (s.isOk = true → s.okPackets ≠ []) ∧
      (0 < counter → result = true → s.okPackets ≠ [])
  | .next s w => s.Checking ∧ counter ≤ w.counter
  | .broken => True

lemma RowBehind.of_succ {counter : Nat} {round : Round} (h : RowBehind (counter + 1) round) :
    RowBehind counter round := by
  cases round with
  | done result s => exact ⟨h.1, h.2.1, fun _ => h.2.2 (Nat.succ_pos _)⟩
  | next s w => exact ⟨h.1, (Nat.le_succ _).trans h.2⟩
  | broken => trivial

lemma rowBehind_countRound (h : s.Checking) : RowBehind (w.counter + 1) (countRound s w) := by
  unfold countRound
  split
  · refine ⟨h.1, ?_, ?_⟩
    · intro hok
      rw [h.2] at hok
      cases hok
    · intro _ hresult
      cases hresult
  · exact ⟨h, le_rfl⟩

lemma Checking.failLast (h : s.Checking) : s.failLast.Checking :=
  ⟨h.1.failLast, failLast_isOk.trans h.2⟩

lemma rowBehind_false {counter : Nat} (h : s.Checking) : RowBehind counter (.done false s) := by
  refine ⟨h.1, ?_, ?_⟩
  · intro hok
    rw [h.2] at hok
    cases hok
  · intro _ hresult
    cases hresult

lemma rowBehind_taken {t : Stream} (h : t.Checking) (hrow : t.okPackets ≠ []) (w : Walk)
    (atEnd psh : Bool) : RowBehind (w.counter + 1)
      (if atEnd then
        if ¬psh ∧ ¬ignorePsh then countRound t { w with waitForPsh := true }
        else
          match saveCompleteData cfg { t with isOk := true } with
          | none => .broken
          | some s => .done true s
      else countRound t w) := by
  split
  · split
    · exact rowBehind_countRound h (w := { w with waitForPsh := true })
    · cases hsave : saveCompleteData cfg { t with isOk := true } with
      | none => trivial
      | some s =>
        obtain ⟨hvars, hokPackets, -⟩ := saveCompleteData_row_vars hsave
        have hne : s.okPackets ≠ [] := by
          rw [hokPackets]
          exact hrow
        refine ⟨?_, fun _ => hne, fun _ _ => hne⟩
        rw [Full, hvars]
        exact h.1
  · exact rowBehind_countRound h

lemma rowBehind_takeVar (h : s.Checking) (k : Nat) :
    RowBehind (w.counter + 1) (takeVar cfg maxNextSeq ignorePsh s w k) := by
  unfold takeVar
  dsimp only
  generalize ((SortedMap.get k s.queuePacketVars).map PacketVar.getNextSeqCheck).getD 0 = nextSeq
  split
  · have htaken : Checking { s.setState (k, nextSeq) .check with
        okPackets := s.okPackets ++ [(k, nextSeq)] } := ⟨h.1.setState (k, nextSeq) .check, h.2⟩
    exact rowBehind_taken htaken (List.append_ne_nil_of_right_ne_nil _ (List.cons_ne_nil _ _)) w _ _
  · split
    · exact rowBehind_countRound h.failLast
    · exact rowBehind_false h

lemma rowBehind_okRound (h : s.Checking) :
    RowBehind w.counter (okRound cfg maxNextSeq ignorePsh s w) := by
  unfold okRound
  dsimp only
  split
  · refine ⟨h.failLast, ?_⟩
    split
    · exact le_rfl
    · exact le_rfl
  · split
    · split
      · refine ⟨h.1, ?_, ?_⟩
        · intro hok
          rw [h.2] at hok
          cases hok
        · intro hcounter hresult
          rw [of_decide_eq_true hresult] at hcounter
          exact absurd hcounter (lt_irrefl 0)
      · exact (rowBehind_countRound h.failLast).of_succ
    · exact (rowBehind_takeVar h _).of_succ

lemma okLoop_row {fuel : Nat} {result : Bool} {s' : Stream} (h : s.Checking)
    (hloop : okLoop cfg maxNextSeq ignorePsh fuel s w = some (result, s')) :
    s'.Full ∧ (s'.isOk = true → s'.okPackets ≠ []) ∧
      (0 < w.counter → result = true → s'.okPackets ≠ []) := by
  induction fuel generalizing s w with
  | zero => cases hloop
  | succ fuel ih =>
    have hround : RowBehind w.counter (okRound cfg maxNextSeq ignorePsh s w) := rowBehind_okRound h
    rw [okLoop] at hloop
    split at hloop
    · rename_i hdone
      obtain ⟨rfl, rfl⟩ := Prod.mk.inj (Option.some.inj hloop)
      rw [hdone] at hround
      exact hround
    · rename_i hnext
      rw [hnext] at hround
      obtain ⟨hfull, hkept, hrow⟩ := ih hround.1 hloop
      exact ⟨hfull, hkept, fun hcounter => hrow (hcounter.trans_le hround.2)⟩
    · cases hloop

end Loop

/-! ## The first round -/

section Check
variable {cfg : StreamConfig} {fuel maxNextSeq : Nat} {ignorePsh : Bool} {s s' : Stream}

def firstWanted (s : Stream) : Nat := wantedSeq s.attempted ⟨0, false, s.minSeq⟩

/-- A check that succeeds has a row: one from before when it succeeds at once, or else packets at
the first wanted number, unless the first packets of the queue cannot be used and it fails. -/
def CheckFine (cfg : StreamConfig) (s : Stream) : Prop :=
  if s.isOk = true ∨ s.counterTryOk > cfg.maxReassemblyAttempts then s.okPackets ≠ []
  else (∀ e ∈ s.attempted.queuePacketVars.head?, e.2.getNextSeqCheck = 0) ∨
    (SortedMap.get s.firstWanted s.queuePacketVars).isSome

lemma get_attempted (k : Nat) : SortedMap.get k s.attempted.queuePacketVars =
    (SortedMap.get k s.queuePacketVars).map PacketVar.cleanState :=
  SortedMap.get_map (fun (_ : Nat) (v : PacketVar) => v.cleanState) k s.queuePacketVars

lemma Full.open_of_get (h : s.Full) {k : Nat} {v : PacketVar}
    (hget : SortedMap.get k s.attempted.queuePacketVars = some v) : v.isFail = false := by
  rw [get_attempted] at hget
  obtain ⟨v', hv', rfl⟩ := Option.map_eq_some_iff.mp hget
  exact isFail_cleanState (h _ (SortedMap.mem_of_get hv'))

variable (cfg maxNextSeq ignorePsh) in
lemma Full.first_round (h : s.Full) :
    (SortedMap.get s.firstWanted s.queuePacketVars = none ∧
      okRound cfg maxNextSeq ignorePsh s.attempted ⟨0, false, s.minSeq⟩ = .done true s.attempted) ∨
    ((SortedMap.get s.firstWanted s.queuePacketVars).isSome ∧
      ∃ k, okRound cfg maxNextSeq ignorePsh s.attempted ⟨0, false, s.minSeq⟩ =
        takeVar cfg maxNextSeq ignorePsh s.attempted ⟨0, false, s.minSeq⟩ k) := by
  have hrow : s.attempted.okPackets = [] := rfl
  have hseq : wantedSeq s.attempted ⟨0, false, s.minSeq⟩ = s.firstWanted := rfl
  unfold okRound
  dsimp only
  rw [hseq]
  cases hget : SortedMap.get s.firstWanted s.attempted.queuePacketVars with
  | none =>
    refine .inl ⟨?_, ?_⟩
    · rwa [get_attempted, Option.map_eq_none_iff] at hget
    · have hfind : findVar cfg s.attempted s.firstWanted = none := by
        rw [findVar, hget, hrow]
        rfl
      rw [if_neg (fun hback => Bool.noConfusion hback.2), hfind]
      exact if_pos hrow
  | some v =>
    have hopen := h.open_of_get hget
    refine .inr ⟨?_, ?_⟩
    · rw [get_attempted] at hget
      obtain ⟨v', hv', -⟩ := Option.map_eq_some_iff.mp hget
      rw [hv']
      rfl
    · have hfail : ¬(cfg.completeMod = 1 ∧
          ((some v).map PacketVar.isFail).getD false = true) := by
        rintro ⟨-, hback⟩
        rw [Option.map_some, Option.getD_some, hopen] at hback
        cases hback
      have hfind : ∃ k, findVar cfg s.attempted s.firstWanted = some k := by
        have huse : (nextUsable s.attempted.queuePacketVars s.firstWanted).isSome := by
          rw [nextUsable, Option.isSome_map, List.find?_isSome]
          refine ⟨_, SortedMap.mem_of_get hget, ?_⟩
          rw [hopen]
          simp
        obtain ⟨k, hk⟩ := Option.isSome_iff_exists.mp huse
        by_cases hmod : cfg.completeMod = 1
        · refine ⟨s.firstWanted, ?_⟩
          rw [findVar, hget, if_neg (by simp), if_pos hmod]
        · refine ⟨k, ?_⟩
          rw [findVar, hget, if_neg (by simp), if_neg hmod, hk]
      obtain ⟨k, hk⟩ := hfind
      refine ⟨k, ?_⟩
      rw [if_neg hfail, hk]

lemma Full.okLoop_first (h : s.Full) (hisOk : s.isOk = false) {result : Bool}
    (hloop : okLoop cfg maxNextSeq ignorePsh fuel s.attempted ⟨0, false, s.minSeq⟩ =
      some (result, s')) :
    s'.Full ∧ (s'.isOk = true → s'.okPackets ≠ []) ∧ (result = true →
      (s'.okPackets ≠ [] ↔ (SortedMap.get s.firstWanted s.queuePacketVars).isSome)) := by
  have hchecking : s.attempted.Checking := ⟨h.attempted, hisOk⟩
  cases fuel with
  | zero => cases hloop
  | succ fuel =>
    rw [okLoop] at hloop
    rcases h.first_round cfg maxNextSeq ignorePsh with
      ⟨hnone, hround⟩ | ⟨hsome, k, hround⟩
    · rw [hround] at hloop
      obtain ⟨rfl, rfl⟩ := Prod.mk.inj (Option.some.inj hloop)
      refine ⟨h.attempted, ?_, fun _ => ?_⟩
      · intro hok
        rw [hchecking.2] at hok
        cases hok
      · rw [hnone]
        exact iff_of_false (fun hne => hne rfl) (fun hsome => Bool.noConfusion hsome)
    · have htake : RowBehind (0 + 1)
          (takeVar cfg maxNextSeq ignorePsh s.attempted ⟨0, false, s.minSeq⟩ k) :=
        rowBehind_takeVar (w := ⟨0, false, s.minSeq⟩) hchecking k
      rw [hround] at hloop
      split at hloop
      · rename_i hdone
        obtain ⟨rfl, rfl⟩ := Prod.mk.inj (Option.some.inj hloop)
        rw [hdone] at htake
        exact ⟨htake.1, htake.2.1,
          fun hresult => iff_of_true (htake.2.2 Nat.zero_lt_one hresult) hsome⟩
      · rename_i hnext
        rw [hnext] at htake
        obtain ⟨hfull, hkept, hrow⟩ := okLoop_row htake.1 hloop
        have hcounter := Nat.zero_lt_one.trans_le htake.2
        exact ⟨hfull, hkept, fun hresult => iff_of_true (hrow hcounter hresult) hsome⟩
      · cases hloop

theorem Full.ok_row (h : s.Full) {result : Bool}
    (hok : s.ok cfg fuel maxNextSeq s.minSeq ignorePsh = some (result, s')) :
    s'.Full ∧ ((s.isOk = true → s.okPackets ≠ []) → s'.isOk = true → s'.okPackets ≠ []) ∧
      (result = true → (s'.okPackets ≠ [] ↔ CheckFine cfg s)) := by
  rw [CheckFine]
  unfold ok at hok
  by_cases hisOk : s.isOk = true
  · rw [if_pos hisOk] at hok
    obtain ⟨rfl, rfl⟩ := Prod.mk.inj (Option.some.inj hok)
    rw [if_pos (.inl hisOk)]
    exact ⟨h, id, fun _ => Iff.rfl⟩
  by_cases htries : s.counterTryOk > cfg.maxReassemblyAttempts
  · rw [if_neg hisOk, if_pos htries] at hok
    obtain ⟨rfl, rfl⟩ := Prod.mk.inj (Option.some.inj hok)
    rw [if_pos (.inr htries)]
    exact ⟨h, id, fun _ => Iff.rfl⟩
  rw [if_neg hisOk, if_neg htries] at hok
  rw [if_neg (not_or.mpr ⟨hisOk, htries⟩)]
  have hfalse : s.attempted.isOk = false := Bool.eq_false_iff.mpr hisOk
  have hfail : ∀ {t : Stream}, t = s.attempted →
      t.Full ∧ ((s.isOk = true → s.okPackets ≠ []) → t.isOk = true → t.okPackets ≠ []) := by
    rintro t rfl
    refine ⟨h.attempted, fun _ hok => ?_⟩
    rw [hfalse] at hok
    cases hok
  have hattempted : s.attempted =
      { s with counterTryOk := s.counterTryOk + 1 }.cleanPacketsState := rfl
  dsimp only at hok
  rw [← hattempted] at hok
  cases hvars : s.attempted.queuePacketVars with
  | nil =>
    rw [hvars] at hok
    cases hok
  | cons e vars =>
    rw [hvars] at hok
    dsimp only at hok
    by_cases hzero : e.2.getNextSeqCheck = 0
    · rw [if_pos hzero] at hok
      obtain ⟨rfl, rfl⟩ := Prod.mk.inj (Option.some.inj hok)
      exact ⟨(hfail rfl).1, (hfail rfl).2, fun hresult => Bool.noConfusion hresult⟩
    · rw [if_neg hzero] at hok
      obtain ⟨hfull, hkept, hrow⟩ := h.okLoop_first (Bool.eq_false_iff.mpr hisOk) hok
      refine ⟨hfull, fun _ => hkept, fun hresult => (hrow hresult).trans ?_⟩
      have hhead : ¬∀ e' ∈ (e :: vars).head?, e'.2.getNextSeqCheck = 0 :=
        fun hall => hzero (hall e rfl)
      rw [or_iff_right hhead]

lemma Full.fine_of_yields (h : s.Full)
    (hyields : ∀ s', s.ok cfg (fuel + 1) maxNextSeq s.minSeq ignorePsh = some (true, s') →
      s'.okPackets ≠ []) : CheckFine cfg s := by
  rw [CheckFine]
  by_cases hisOk : s.isOk = true
  · rw [if_pos (.inl hisOk)]
    exact hyields s (if_pos hisOk)
  by_cases htries : s.counterTryOk > cfg.maxReassemblyAttempts
  · rw [if_pos (.inr htries)]
    exact hyields s ((if_neg hisOk).trans (if_pos htries))
  rw [if_neg (not_or.mpr ⟨hisOk, htries⟩)]
  by_contra hnot
  obtain ⟨hhead, hwanted⟩ := not_or.mp hnot
  have hround : okRound cfg maxNextSeq ignorePsh s.attempted ⟨0, false, s.minSeq⟩ =
      .done true s.attempted := by
    rcases h.first_round cfg maxNextSeq ignorePsh with
      ⟨-, hround⟩ | ⟨hsome, -⟩
    · exact hround
    · exact absurd hsome hwanted
  have hok : s.ok cfg (fuel + 1) maxNextSeq s.minSeq ignorePsh = some (true, s.attempted) := by
    unfold ok
    rw [if_neg hisOk, if_neg htries]
    have hattempted : s.attempted =
        { s with counterTryOk := s.counterTryOk + 1 }.cleanPacketsState := rfl
    dsimp only
    rw [← hattempted]
    cases hvars : s.attempted.queuePacketVars with
    | nil =>
      rw [hvars] at hhead
      exact absurd (fun e he => by cases he) hhead
    | cons e vars =>
      rw [hvars] at hhead
      have hne : ¬e.2.getNextSeqCheck = 0 := by
        intro hzero
        refine hhead (fun e' he' => ?_)
        rw [← Option.some.inj he']
        exact hzero
      dsimp only
      rw [if_neg hne, okLoop, hround]
  exact hyields _ hok rfl

end Check

/-! ## The other actions -/

section Actions
variable {r : Reassembly} {s s' : Stream}

lemma Full.push (h : s.Full) (cfg : StreamConfig) (p : StreamPacket) :
    ((s.push cfg p).moveBounds p).Full := by
  rw [Full, Stream.push_vars]
  exact FullVars.set h p.seq (ne_nil_of_get (get_push_self _ p))

lemma Full.touch (h : s.Full) (p : Nat × Nat) : (s.touch p).Full := by
  unfold Stream.touch
  split
  · exact h
  · refine FullVars.set h p.1 ?_
    refine ne_nil_of_get (n := p.2) ?_
    rw [SortedMap.get_set, if_pos rfl]
    rfl

lemma touch_row (s : Stream) (p : Nat × Nat) :
    (s.touch p).okPackets = s.okPackets ∧ (s.touch p).isOk = s.isOk := by
  unfold Stream.touch
  split
  · exact ⟨rfl, rfl⟩
  · exact ⟨rfl, rfl⟩

lemma touchAll_spec (row : List (Nat × Nat)) : ∀ s : Stream, s.Full →
    (row.foldl Stream.touch s).Full ∧ (row.foldl Stream.touch s).okPackets = s.okPackets ∧
      (row.foldl Stream.touch s).isOk = s.isOk := by
  induction row with
  | nil => exact fun s h => ⟨h, rfl, rfl⟩
  | cons p row ih =>
    intro s h
    obtain ⟨hfull, hrow, hisOk⟩ := ih (s.touch p) (h.touch p)
    exact ⟨hfull, hrow.trans (touch_row s p).1, hisOk.trans (touch_row s p).2⟩

lemma Full.refresh (h : s.Full) {cfg : StreamConfig} (hrefresh : s.refresh cfg = some s') :
    s'.Full ∧ s'.okPackets = s.okPackets ∧ s'.isOk = s.isOk := by
  obtain ⟨t, hsave, rfl⟩ := Option.map_eq_some_iff.mp hrefresh
  obtain ⟨hvars, hrow, hisOk⟩ := saveCompleteData_row_vars hsave
  have ht : t.Full := by
    rw [Full, hvars]
    exact h
  split
  · obtain ⟨hfull, hrow', hisOk'⟩ := touchAll_spec t.okPackets t ht
    exact ⟨hfull, hrow'.trans hrow, hisOk'.trans hisOk⟩
  · exact ⟨ht, hrow, hisOk⟩

lemma Full.updateOffset (h : s.Full) (seq offset : Nat) :
    (s.updateVar seq (fun v => { v with offset := offset })).Full :=
  FullVars.update h seq (f := fun v => { v with offset := offset }) (fun _ hv => hv)

lemma Full.confirmCompleteData (h : s.Full) (n : Nat) : (s.confirmCompleteData n).1.Full := by
  unfold Stream.confirmCompleteData
  dsimp only
  split
  · split
    · exact h
    · split
      · exact Full.updateOffset h _ _
      · exact h
  · exact h

lemma eraseOkPackets_sublist (vars : PacketVars) (row : List (Nat × Nat)) :
    (eraseOkPackets vars row).Sublist vars := by
  induction row generalizing vars with
  | nil => exact List.Sublist.refl _
  | cons p row ih =>
    rw [eraseOkPackets]
    split
    · exact ih vars
    · refine (ih _).trans ?_
      split
      · exact List.filter_sublist
      · exact List.Sublist.refl _

lemma Full.cleanupCompleteData (h : s.Full) : s.cleanupCompleteData.Full := by
  have hvars : FullVars ((eraseOkPackets s.queuePacketVars s.okPackets).map
      (fun e => (e.1, e.2.cleanState))) :=
    (FullVars.sublist h (eraseOkPackets_sublist _ _)).map (fun _ _ hv => cleanState_ne_nil hv)
  unfold Stream.cleanupCompleteData
  dsimp only
  split
  · split
    · exact hvars
    · exact hvars
  · exact h

theorem Full.step (h : s.Full) {act : StreamAct} (hstep : s.step r act = some s') : s'.Full := by
  cases act with
  | check maxNextSeq =>
    obtain ⟨e, hok, rfl⟩ := Option.map_eq_some_iff.mp hstep
    exact (h.ok_row hok).1
  | restart =>
    rw [← Option.some.inj hstep]
    exact h
  | restartRow =>
    rw [← Option.some.inj hstep]
    exact h
  | resetTries =>
    rw [← Option.some.inj hstep]
    exact h
  | confirm n =>
    rw [← Option.some.inj hstep]
    exact h.confirmCompleteData n
  | setDatalen n =>
    rw [← Option.some.inj hstep]
    exact h
  | popFront =>
    rw [Stream.step] at hstep
    split at hstep
    · rw [← Option.some.inj hstep]
      exact h
    · cases hstep
  | refresh => exact (h.refresh hstep).1
  | setRow p =>
    rw [← Option.some.inj hstep]
    exact h
  | setOffset seq offset =>
    rw [← Option.some.inj hstep]
    exact h.updateOffset seq offset
  | setLastSeq seq =>
    rw [← Option.some.inj hstep]
    exact h
  | expire seqs =>
    rw [← Option.some.inj hstep]
    exact FullVars.sublist h List.filter_sublist
  | cleanup =>
    rw [← Option.some.inj hstep]
    exact h.cleanupCompleteData

end Actions

end Stream

/-! ## Links -/

namespace LinkState
variable {r : Reassembly} {l l' : LinkState}

def Streams (P : Stream → Prop) (l : LinkState) : Prop := ∀ a s, l.link.stream a = some s → P s

lemma Streams.new (P : Stream → Prop) : LinkState.new.Streams P := by
  intro a s hs
  cases hs

lemma Streams.setStream {P : Stream → Prop} (h : l.Streams P) {s : Stream} (hs : P s) (a : Addr) :
    ({ l with link := l.link.setStream a s } : LinkState).Streams P := by
  intro b t ht
  change SortedMap.get b (SortedMap.set seqLt a s l.link.heap) = some t at ht
  rw [SortedMap.get_set] at ht
  split at ht
  · rw [← Option.some.inj ht]
    exact hs
  · exact h b t ht

lemma Streams.findOrCreate {P : Stream → Prop} (h : l.Streams P)
    (hnew : ∀ ack toDest, P (.new ack toDest)) (ack : Nat) (toDest : Bool) :
    ({ l with link := (l.link.findOrCreate ack toDest).2 } : LinkState).Streams P := by
  unfold Link.findOrCreate
  split
  · exact h
  · exact h.setStream (hnew ack toDest) l.link.nextAddr

lemma Streams.step {P : Stream → Prop} (h : l.Streams P) (hnew : ∀ ack toDest, P (.new ack toDest))
    (hpush : ∀ s p, P s → P ((s.push r.stream p).moveBounds p)) {act : LinkAct}
    (hact : ∀ a x s s', act = .stream a x → l.link.stream a = some s → s.step r x = some s' → P s')
    (hstep : l.step r act = some l') : l'.Streams P := by
  cases act with
  | push toDest ack p =>
    obtain ⟨link, hlink, rfl⟩ := Option.map_eq_some_iff.mp hstep
    obtain ⟨s, hs, rfl⟩ := Option.map_eq_some_iff.mp hlink
    have hcreated := h.findOrCreate hnew ack toDest
    exact hcreated.setStream (hpush s p (hcreated _ s hs)) _
  | stream a x =>
    obtain ⟨s, hs, hmap⟩ := Option.bind_eq_some_iff.mp hstep
    obtain ⟨s', hs', rfl⟩ := Option.map_eq_some_iff.mp hmap
    exact h.setStream (hact a x s s' rfl hs hs') a
  | setLastOkSeq toDest seq =>
    rw [← Option.some.inj hstep]
    intro a s hs
    split at hs
    · exact h a s hs
    · exact h a s hs
  | delete a =>
    obtain ⟨s, -, rfl⟩ := Option.map_eq_some_iff.mp hstep
    intro b t ht
    change SortedMap.get b (SortedMap.erase a l.link.heap) = some t at ht
    rw [SortedMap.get_erase] at ht
    split at ht
    · cases ht
    · exact h b t ht

lemma full_new (ack : Nat) (toDest : Bool) : (Stream.new ack toDest).Full := by
  intro e he
  cases he

lemma Streams.full_step (h : l.Streams Stream.Full) {act : LinkAct}
    (hstep : l.step r act = some l') : l'.Streams Stream.Full :=
  h.step full_new (fun _ p hs => hs.push r.stream p)
    (fun a _ s _ _ hs hx => (h a s hs).step hx) hstep

/-- A successful check of a stream gives it a row. -/
def Yields (r : Reassembly) (l : LinkState) : LinkAct → Prop
  | .stream a (.check maxNextSeq) => ∀ s s', l.link.stream a = some s →
      s.ok r.stream (r.fuel + 1) maxNextSeq s.minSeq r.ignorePshInCheckOkData = some (true, s') →
      s'.okPackets ≠ []
  | _ => True

/-- A stream that is checked is one whose check gives a row. -/
def ChecksFine (r : Reassembly) (l : LinkState) : LinkAct → Prop
  | .stream a (.check _) => ∀ s, l.link.stream a = some s → s.CheckFine r.stream
  | _ => True

lemma yields_iff_checksFine (h : l.Streams Stream.Full) (act : LinkAct) :
    l.Yields r act ↔ l.ChecksFine r act := by
  unfold Yields ChecksFine
  split
  · constructor
    · intro hyields s hs
      exact (h _ s hs).fine_of_yields (fun s' => hyields s s' hs)
    · intro hfine s s' hs hok
      exact (((h _ s hs).ok_row hok).2.2 rfl).mpr (hfine s hs)
  · exact Iff.rfl

end LinkState

/-! ## The runs of a link -/

section Runs
variable (r : Reassembly)

def actions (events : List LinkEvent) : List LinkAct := ((history r events).exec .new).acts

/-- In every run of a link each successful check of a stream gives it a row exactly when each check
is one of a stream that is fine: with a row from before when it was ok already or was tried too
often, and else with packets at the first wanted number. -/
theorem yields_iff (events : List LinkEvent) :
    Along (LinkState.step r) (LinkState.Yields r) .new (actions r events) ↔
      Along (LinkState.step r) (LinkState.ChecksFine r) .new (actions r events) := by
  constructor
  · exact Along.imp (J := LinkState.Streams Stream.Full)
      (fun _ a hfull => (LinkState.yields_iff_checksFine hfull a).mp)
      (fun _ _ _ hfull _ hstep => hfull.full_step hstep) (LinkState.Streams.new _)
  · exact Along.imp (J := LinkState.Streams Stream.Full)
      (fun _ a hfull => (LinkState.yields_iff_checksFine hfull a).mpr)
      (fun _ _ _ hfull _ hstep => hfull.full_step hstep) (LinkState.Streams.new _)

end Runs

/-! ## A stream that was tried too often -/

def sipReassembly : Reassembly where
  stream := ⟨0, true, false, 50, 0⟩
  smartMaxSeq := true
  smartMaxSeqByPsh := false
  ignorePshInCheckOkData := true
  isSip := true
  checkOkData := fun _ _ _ => none
  checkSip20 := fun _ => false
  parseSipMethod := fun _ => false
  fuel := 600

def pair (seq : Nat) : StreamPacket := .setData seq true [65, 65] 2 true

/-- A packet before the turn of the sequence numbers, and one behind it that comes again and again;
the packets between them are missing. -/
def retransmissions : List LinkEvent :=
  .packet true 7 (pair 0xFFFFFF00) true :: List.replicate 51 (.packet true 7 (pair 0x100) true)

lemma retransmissions_actions :
    actions sipReassembly retransmissions =
      (actions sipReassembly retransmissions).dropLast ++ [.stream 0 (.check 0x102)] := by
  decide +kernel

lemma retransmissions_check :
    (run (LinkState.step sipReassembly) .new
        (actions sipReassembly retransmissions).dropLast).any (fun l =>
      (l.link.stream 0).any (fun s =>
        (s.ok sipReassembly.stream (sipReassembly.fuel + 1) 0x102 s.minSeq
          sipReassembly.ignorePshInCheckOkData).any (fun e =>
            e.1 && decide (e.2.okPackets = [])))) = true := by
  decide +kernel

theorem not_yields_retransmissions : ¬∀ (r : Reassembly) (events : List LinkEvent),
    Along (LinkState.step r) (LinkState.Yields r) .new (actions r events) := by
  intro hall
  have halong := hall sipReassembly retransmissions
  rw [retransmissions_actions] at halong
  obtain ⟨l, hrun, hl⟩ := (Option.any_eq_true _ _).mp retransmissions_check
  obtain ⟨s, hs, hstream⟩ := (Option.any_eq_true _ _).mp hl
  obtain ⟨⟨result, s'⟩, hok, hresult⟩ := (Option.any_eq_true _ _).mp hstream
  obtain ⟨hsuccess, hempty⟩ := (Bool.and_eq_true _ _).mp hresult
  dsimp only at hsuccess
  rw [hsuccess] at hok
  exact halong.at hrun s s' hs hok (of_decide_eq_true hempty)

end VoipMonitor.Tcp
