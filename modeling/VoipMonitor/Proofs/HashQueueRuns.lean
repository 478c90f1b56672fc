import VoipMonitor.Model.HashModifyQueue
import VoipMonitor.Proofs.CallsHashTable

/-!
# Destroyed calls and the queue of table changes

A branch whose call has ended gets no entry in the table any more, and while a call is not closed
its changes in the queue are counted. So the queue has no change of a closed call, and the sweep
of `destroyCall` is final unless `destroyCall` itself queues changes again.
-/

namespace VoipMonitor.HashQueue
open VoipMonitor.Library VoipMonitor.CallsHash

section Absent
variable {b : BranchId}

def InBucket (nodes : List NodeCallRtpIpPort) (b : BranchId) : Prop :=
  ∃ node ∈ nodes, b ∈ branches node.calls

lemma inBucket_cons {node : NodeCallRtpIpPort} {nodes : List NodeCallRtpIpPort} :
    InBucket (node :: nodes) b ↔ b ∈ branches node.calls ∨ InBucket nodes b := by
  simp [InBucket]

lemma mem_addToCalls {opt : Nat} {env : BranchId → BranchState} {e : Entry} {n : Counters}
    {calls : List NodeCallRtp} (h : b ∈ branches (addToCalls opt env e n calls).1)
    (hne : b ≠ e.cBranch) : b ∈ branches calls := by
  have hsub := (walkCalls_spec env e calls n).1
  apply hsub.subset
  unfold addToCalls at h
  dsimp only at h
  split at h
  · exact h
  split at h
  · rename_i first rest _ hlist
    rw [hlist]
    have hmem : b ∈ branches rest := by
      simpa [branches, replaceNodeCall, Entry.nodeCall, hne] using h
    exact List.mem_cons_of_mem _ hmem
  · split at h
    · exact h
    · simpa [branches, insertNodeCall, Entry.nodeCall, hne] using h

lemma inBucket_addToBucket {opt : Nat} {env : BranchId → BranchState} {e : Entry} {n : Counters}
    {nodes : List NodeCallRtpIpPort} {r : List NodeCallRtpIpPort × Counters}
    (hr : addToBucket opt env e n nodes = some r) (h : InBucket r.1 b) (hne : b ≠ e.cBranch) :
    InBucket nodes b := by
  induction nodes generalizing r with
  | nil => cases hr
  | cons node nodes ih =>
    rw [inBucket_cons]
    rw [addToBucket] at hr
    split at hr
    · obtain rfl : _ = r := Option.some.inj hr
      obtain hb | hb := inBucket_cons.mp h
      · exact Or.inl (mem_addToCalls hb hne)
      · exact Or.inr hb
    · obtain ⟨q, hq, rfl⟩ := Option.map_eq_some_iff.mp hr
      obtain hb | hb := inBucket_cons.mp h
      · exact Or.inl hb
      · exact Or.inr (ih hq hb)

lemma inBucket_removeFromBucket {r : Removal} {n : Counters} {nodes : List NodeCallRtpIpPort}
    (h : InBucket (removeFromBucket r n nodes).1 b) : InBucket nodes b := by
  induction nodes with
  | nil => exact h
  | cons node nodes ih =>
    rw [inBucket_cons]
    rw [removeFromBucket] at h
    split at h
    · dsimp only at h
      split at h
      · exact Or.inr h
      · obtain hb | hb := inBucket_cons.mp h
        · exact Or.inl ((removeFromCalls_spec r node.calls n).1.subset hb)
        · exact Or.inr hb
    · obtain hb | hb := inBucket_cons.mp h
      · exact Or.inl hb
      · exact Or.inr (ih hb)

lemma inBucket_sweepBucket {c : BranchId} {nodes : List NodeCallRtpIpPort} {n : Counters}
    (h : InBucket (sweepBucket c n nodes).1 b) : InBucket nodes b := by
  induction nodes generalizing n with
  | nil => exact h
  | cons node nodes ih =>
    rw [inBucket_cons]
    rw [sweepBucket] at h
    split at h
    · exact Or.inr (ih h)
    · obtain hb | hb := inBucket_cons.mp h
      · exact Or.inl ((sweepCalls_spec c node.calls n).1.subset hb)
      · exact Or.inr (ih hb)

lemma absent_iff {t : Table} : Absent t b ↔ ∀ h, ¬InBucket (t.callsHash h) b := by
  simp [Absent, InBucket]

lemma absent_setBucket {t : Table} (ht : Absent t b) {h : Nat} {nodes : List NodeCallRtpIpPort}
    (hnodes : InBucket nodes b → InBucket (t.callsHash h) b) (n : Counters) :
    Absent (t.setBucket h nodes n) b := by
  rw [absent_iff] at ht ⊢
  intro k
  by_cases hk : k = h
  · rw [hk, setBucket_self]
    exact fun hin => ht h (hnodes hin)
  · rw [setBucket_of_ne t hk]
    exact ht k

lemma absent_hashAdd {t : Table} (ht : Absent t b) {opt : Nat} {env : BranchId → BranchState}
    {e : Entry} (he : (env b).endCallRtp = true) : Absent (hashAdd opt env t e) b := by
  unfold hashAdd
  split
  · exact ht
  rename_i hopen
  have hne : b ≠ e.cBranch := by
    rintro rfl
    exact hopen he
  dsimp only
  split
  · rename_i r hr
    exact absent_setBucket ht (fun h => inBucket_addToBucket hr h hne) _
  · apply absent_setBucket ht
    intro h
    obtain hb | hb := inBucket_cons.mp h
    · exact absurd hb (by simp [insertNodeCall, branches, Entry.nodeCall, hne])
    · exact hb

lemma absent_hashRemove {t : Table} (ht : Absent t b) (r : Removal) :
    Absent (hashRemove t r).1 b :=
  absent_setBucket ht inBucket_removeFromBucket _

lemma absent_hashRemoveCall {t : Table} (ht : Absent t b) (c : BranchId) :
    Absent (hashRemoveCall t c).1 b := by
  have hsweep : ∀ k, Absent (sweepTable c t k).1 b := by
    intro k
    induction k with
    | zero => exact ht
    | succ k ih => exact absent_setBucket ih inBucket_sweepBucket _
  unfold hashRemoveCall
  split
  · exact hsweep maxNode
  · exact ht

end Absent

def DestroyStep.cBranch : DestroyStep → BranchId
  | .branch b => b
  | .loop b _ => b
  | .rtcp b _ => b

def DestroyStep.Pending (cfg : CallConfig) (b : BranchId) : DestroyStep → Prop
  | .branch c => c = b
  | .loop c _ => c = b ∧ cfg.hashModifyQueueLengthMs = 0
  | .rtcp c _ => c = b ∧ cfg.hashModifyQueueLengthMs = 0

structure Destroying (cfg : CallConfig) (t : Table) (k : CallId) (steps : List DestroyStep) :
    Prop where
  own : ∀ step ∈ steps, cfg.callOf step.cBranch = k
  swept : ∀ b, cfg.callOf b = k → (∀ step ∈ steps, ¬step.Pending cfg b) → Absent t b

structure Closed (s : HashState) (b : BranchId) : Prop where
  ended : (s.branch b).endCallRtp = true
  removed : s.endCallHashRemoved b = true
  notQueued : ∀ d ∈ s.hashModifyQueue, d.cBranch ≠ b

structure HashQueueInv (cfg : CallConfig) (s : HashState) : Prop where
  table : TableInv cfg.sdpMultiplication s.table
  counted : ∀ d ∈ s.hashModifyQueue, d.useHashQueueCounter = true
  counter : ∀ k, s.hashQueueCounter k =
    s.hashModifyQueue.countP (fun d => cfg.callOf d.cBranch = k)
  direct : cfg.hashModifyQueueLengthMs = 0 → s.hashModifyQueue = []
  closed : ∀ b, s.closed (cfg.callOf b) = true → Closed s b
  destroying : ∀ k steps, s.destroying k = some steps →
    s.closed k = true ∧ Destroying cfg s.table k steps

/-- A change of the table and the queue that gives no ended branch an entry. -/
structure Quiet (s s' : HashState) : Prop where
  branch : s'.branch = s.branch
  endCallHashRemoved : s'.endCallHashRemoved = s.endCallHashRemoved
  ipPort : s'.ipPort = s.ipPort
  closed : s'.closed = s.closed
  destroying : s'.destroying = s.destroying
  absent : ∀ b, (s.branch b).endCallRtp = true → Absent s.table b → Absent s'.table b

lemma Quiet.refl (s : HashState) : Quiet s s := ⟨rfl, rfl, rfl, rfl, rfl, fun _ _ h => h⟩

lemma Quiet.trans {s s' s'' : HashState} (h : Quiet s s') (h' : Quiet s' s'') : Quiet s s'' where
  branch := h'.branch.trans h.branch
  endCallHashRemoved := h'.endCallHashRemoved.trans h.endCallHashRemoved
  ipPort := h'.ipPort.trans h.ipPort
  closed := h'.closed.trans h.closed
  destroying := h'.destroying.trans h.destroying
  absent := by
    intro b hb habs
    apply h'.absent b
    · rw [h.branch]
      exact hb
    · exact h.absent b hb habs

section Inv
variable {cfg : CallConfig} {s : HashState}

lemma hashQueueInv_init (cfg : CallConfig) : HashQueueInv cfg {} where
  table := tableInv_empty _
  counted := nofun
  counter := fun _ => rfl
  direct := fun _ => rfl
  closed := nofun
  destroying := nofun

lemma HashQueueInv.quiet (h : HashQueueInv cfg s) {s' : HashState} (hq : Quiet s s')
    (htable : TableInv cfg.sdpMultiplication s'.table)
    (hqueue : ∀ d ∈ s'.hashModifyQueue, d ∈ s.hashModifyQueue ∨
      d.useHashQueueCounter = true ∧ s.closed (cfg.callOf d.cBranch) = false)
    (hcounter : ∀ k, s'.hashQueueCounter k =
      s'.hashModifyQueue.countP (fun d => cfg.callOf d.cBranch = k))
    (hdirect : cfg.hashModifyQueueLengthMs = 0 → s'.hashModifyQueue = []) :
    HashQueueInv cfg s' := by
  refine ⟨htable, ?_, hcounter, hdirect, ?_, ?_⟩
  · intro d hd
    obtain hd | ⟨hd, -⟩ := hqueue d hd
    · exact h.counted d hd
    · exact hd
  · intro b hb
    rw [hq.closed] at hb
    obtain ⟨hended, hremoved, hnot⟩ := h.closed b hb
    refine ⟨by rw [hq.branch]; exact hended, by rw [hq.endCallHashRemoved]; exact hremoved, ?_⟩
    intro d hd heq
    obtain hd | ⟨-, hopen⟩ := hqueue d hd
    · exact hnot d hd heq
    · rw [heq, hb] at hopen
      cases hopen
  · intro k steps hsteps
    rw [hq.destroying] at hsteps
    obtain ⟨hclosed, hown, hswept⟩ := h.destroying k steps hsteps
    refine ⟨by rw [hq.closed]; exact hclosed, hown, ?_⟩
    intro b hb hpending
    have hended := (h.closed b (by rw [hb]; exact hclosed)).ended
    exact hq.absent b hended (hswept b hb hpending)

lemma HashQueueInv.setTable (h : HashQueueInv cfg s) {t : Table}
    (ht : TableInv cfg.sdpMultiplication t)
    (habs : ∀ b, (s.branch b).endCallRtp = true → Absent s.table b → Absent t b) :
    HashQueueInv cfg { s with table := t } ∧ Quiet s { s with table := t } := by
  have hq : Quiet s { s with table := t } := ⟨rfl, rfl, rfl, rfl, rfl, habs⟩
  exact ⟨h.quiet hq ht (fun d hd => Or.inl hd) h.counter h.direct, hq⟩

lemma applyItem_spec (h : TableInv cfg.sdpMultiplication s.table) (d : HashModifyData) :
    TableInv cfg.sdpMultiplication (applyItem cfg s d).table ∧ Quiet s (applyItem cfg s d) := by
  unfold applyItem
  cases d.oper with
  | add e => exact ⟨h.hashAdd _ e, rfl, rfl, rfl, rfl, rfl, fun b hb ha => absent_hashAdd ha hb⟩
  | remove r => exact ⟨h.hashRemove r, rfl, rfl, rfl, rfl, rfl, fun b _ ha => absent_hashRemove ha r⟩
  | removeCall c =>
    exact ⟨(h.hashRemoveCall c).1, rfl, rfl, rfl, rfl, rfl, fun b _ ha => absent_hashRemoveCall ha c⟩

lemma foldl_applyItem_spec (items : List HashModifyData)
    (h : TableInv cfg.sdpMultiplication s.table)
    (hcounted : ∀ d ∈ items, d.useHashQueueCounter = true) :
    TableInv cfg.sdpMultiplication (items.foldl (applyItem cfg) s).table ∧
      Quiet s (items.foldl (applyItem cfg) s) ∧
      ∀ k, (items.foldl (applyItem cfg) s).hashQueueCounter k +
        items.countP (fun d => cfg.callOf d.cBranch = k) = s.hashQueueCounter k := by
  induction items generalizing s with
  | nil => exact ⟨h, Quiet.refl s, fun k => by simp⟩
  | cons d items ih =>
    obtain ⟨htable, hquiet⟩ := applyItem_spec h d
    obtain ⟨htable', hquiet', hcounter'⟩ := ih htable (fun x hx => hcounted x (List.mem_cons_of_mem _ hx))
    refine ⟨htable', hquiet.trans hquiet', ?_⟩
    intro k
    have hk := hcounter' k
    have hd := hcounted d List.mem_cons_self
    rw [List.foldl_cons, List.countP_cons]
    have hitem : (applyItem cfg s d).hashQueueCounter k =
        if k = cfg.callOf d.cBranch then s.hashQueueCounter k - 1 else s.hashQueueCounter k := by
      simp [applyItem, hd]
    rw [hitem] at hk
    by_cases heq : k = cfg.callOf d.cBranch
    · rw [if_pos heq] at hk
      rw [if_pos (by simp [heq])]
      push_cast
      omega
    · rw [if_neg heq] at hk
      rw [if_neg (by simpa using Ne.symm heq)]
      push_cast
      omega

lemma HashQueueInv.apply_ (h : HashQueueInv cfg s) (now : Nat) (setBegin : Bool) :
    HashQueueInv cfg (applyHashModifyQueue_ cfg now setBegin s) ∧
      Quiet s (applyHashModifyQueue_ cfg now setBegin s) := by
  unfold applyHashModifyQueue_
  split
  · split
    · obtain ⟨htable, hq, hcounter⟩ := foldl_applyItem_spec s.hashModifyQueue h.table h.counted
      have hq' : Quiet s { s.hashModifyQueue.foldl (applyItem cfg) s with
          hashModifyQueue := []
          hashModifyQueueBeginMs := 0 } :=
        ⟨hq.branch, hq.endCallHashRemoved, hq.ipPort, hq.closed, hq.destroying, hq.absent⟩
      refine ⟨h.quiet hq' htable nofun ?_ (fun _ => rfl), hq'⟩
      intro k
      have h1 := hcounter k
      have h2 := h.counter k
      simp only [List.countP_nil, Nat.cast_zero]
      omega
    · exact ⟨h, Quiet.refl s⟩
  · split
    · have hq : Quiet s { s with hashModifyQueueBeginMs := now } :=
        ⟨rfl, rfl, rfl, rfl, rfl, fun _ _ ha => ha⟩
      exact ⟨h.quiet hq h.table (fun d hd => Or.inl hd) h.counter h.direct, hq⟩
    · exact ⟨h, Quiet.refl s⟩

lemma HashQueueInv.push (h : HashQueueInv cfg s) (hlen : cfg.hashModifyQueueLengthMs ≠ 0)
    (now : Nat) {d : HashModifyData} (hd : d.useHashQueueCounter = true)
    (hopen : s.closed (cfg.callOf d.cBranch) = false) :
    HashQueueInv cfg (pushHashModify cfg now s d) ∧ Quiet s (pushHashModify cfg now s d) := by
  unfold pushHashModify
  generalize hs' : ({ s with
    hashModifyQueue := s.hashModifyQueue ++ [d]
    hashQueueCounter := fun k =>
      if d.useHashQueueCounter ∧ k = cfg.callOf d.cBranch then s.hashQueueCounter k + 1
      else s.hashQueueCounter k } : HashState) = s'
  have hq : Quiet s s' := by
    rw [← hs']
    exact ⟨rfl, rfl, rfl, rfl, rfl, fun _ _ ha => ha⟩
  have hinv : HashQueueInv cfg s' := by
    apply h.quiet hq
    · rw [← hs']
      exact h.table
    · rw [← hs']
      intro x hx
      obtain hx | rfl : x ∈ s.hashModifyQueue ∨ x = d := by simpa using hx
      · exact Or.inl hx
      · exact Or.inr ⟨hd, hopen⟩
    · rw [← hs']
      intro k
      dsimp only
      have hk := h.counter k
      rw [List.countP_append, List.countP_singleton]
      by_cases heq : k = cfg.callOf d.cBranch
      · rw [if_pos ⟨hd, heq⟩, if_pos (by simp [heq])]
        push_cast
        omega
      · rw [if_neg (fun hc => heq hc.2), if_neg (by simpa using Ne.symm heq)]
        push_cast
        omega
    · intro h0
      exact absurd h0 hlen
  obtain ⟨hinv', hq'⟩ := hinv.apply_ now true
  exact ⟨hinv', hq.trans hq'⟩

lemma HashQueueInv.hashAdd (h : HashQueueInv cfg s) (now : Nat) (e : Entry) :
    HashQueueInv cfg (calltableHashAdd cfg now s e) := by
  unfold calltableHashAdd
  split
  · exact h
  rename_i hopen
  split
  · rename_i hlen
    refine (h.push hlen now rfl ?_).1
    by_contra hclosed
    exact hopen (h.closed e.cBranch (Bool.eq_true_of_not_eq_false hclosed)).ended
  · exact (h.setTable (h.table.hashAdd _ e) (fun b hb ha => absent_hashAdd ha hb)).1

lemma HashQueueInv.hashRemove (h : HashQueueInv cfg s) (now : Nat) (r : Removal) (counted : Bool)
    (hqueue : cfg.hashModifyQueueLengthMs ≠ 0 →
      counted = true ∧ s.closed (cfg.callOf r.cBranch) = false) :
    HashQueueInv cfg (calltableHashRemove cfg now s r counted) ∧
      Quiet s (calltableHashRemove cfg now s r counted) := by
  unfold calltableHashRemove
  split
  · rename_i hlen
    obtain ⟨hcounted, hopen⟩ := hqueue hlen
    exact h.push hlen now hcounted hopen
  · exact h.setTable (h.table.hashRemove r) (fun b _ ha => absent_hashRemove ha r)

lemma HashQueueInv.removeIpPorts (h : HashQueueInv cfg s) {b : BranchId} (clock : Nat → Nat)
    (addrs : List (VmIP × VmPort))
    (hopen : cfg.hashModifyQueueLengthMs ≠ 0 → s.closed (cfg.callOf b) = false) :
    HashQueueInv cfg (removeIpPorts cfg b true clock s addrs) ∧
      Quiet s (removeIpPorts cfg b true clock s addrs) := by
  induction addrs generalizing s with
  | nil => exact ⟨h, Quiet.refl s⟩
  | cons a addrs ih =>
    rw [HashQueue.removeIpPorts]
    obtain ⟨h1, hq1⟩ := h.hashRemove (clock (2 * addrs.length)) (rtpRemoval b a) true
      (fun hlen => ⟨rfl, hopen hlen⟩)
    have hopen1 : cfg.hashModifyQueueLengthMs ≠ 0 → (calltableHashRemove cfg
        (clock (2 * addrs.length)) s (rtpRemoval b a) true).closed (cfg.callOf b) = false := by
      rw [hq1.closed]
      exact hopen
    split
    · obtain ⟨h2, hq2⟩ := h1.hashRemove (clock (2 * addrs.length + 1)) (rtcpRemoval b a) true
        (fun hlen => ⟨rfl, hopen1 hlen⟩)
      obtain ⟨h3, hq3⟩ := ih h2 (by rw [hq2.closed]; exact hopen1)
      exact ⟨h3, hq1.trans (hq2.trans hq3)⟩
    · obtain ⟨h3, hq3⟩ := ih h1 hopen1
      exact ⟨h3, hq1.trans hq3⟩

lemma HashQueueInv.callHashRemove {b : BranchId} {clock : Nat → Nat} (h : HashQueueInv cfg s)
    (hopen : cfg.hashModifyQueueLengthMs ≠ 0 → s.closed (cfg.callOf b) = false) :
    HashQueueInv cfg (callHashRemove cfg b true clock s) := by
  obtain ⟨h1, -⟩ := h.removeIpPorts clock (s.ipPort b) hopen
  unfold HashQueue.callHashRemove
  split
  · exact (h1.setTable (h1.table.hashRemoveCall b).1
      (fun c _ ha => absent_hashRemoveCall ha b)).1
  · exact h1

lemma HashQueueInv.mark (h : HashQueueInv cfg s) {branch : BranchId → BranchState}
    {removed : BranchId → Bool}
    (hbranch : ∀ c, (s.branch c).endCallRtp = true → (branch c).endCallRtp = true)
    (hremoved : ∀ c, s.endCallHashRemoved c = true → removed c = true)
    (ipPort : BranchId → List (VmIP × VmPort)) :
    HashQueueInv cfg { s with branch := branch, endCallHashRemoved := removed, ipPort := ipPort } where
  table := h.table
  counted := h.counted
  counter := h.counter
  direct := h.direct
  closed := by
    intro b hb
    obtain ⟨hended, hrem, hnot⟩ := h.closed b hb
    exact ⟨hbranch b hended, hremoved b hrem, hnot⟩
  destroying := h.destroying

lemma HashQueueInv.endCall (h : HashQueueInv cfg s) (b : BranchId) (clock : Nat → Nat) :
    HashQueueInv cfg (endCall cfg b clock s) := by
  have hset : HashQueueInv cfg { s with
      branch := fun c => if c = b then { s.branch c with endCallRtp := true } else s.branch c } := by
    apply h.mark _ (fun c hc => hc) s.ipPort
    intro c hc
    split
    · rfl
    · exact hc
  unfold HashQueue.endCall
  dsimp only
  split
  · exact hset
  · rename_i hnot
    apply HashQueueInv.mark _ (fun c hc => hc) _ _
    · apply hset.callHashRemove
      intro hlen
      by_contra hclosed
      exact hnot ⟨hlen, (h.closed b (by simpa using hclosed)).removed⟩
    · intro c hc
      split
      · rfl
      · exact hc

lemma HashQueueInv.closingTest (h : HashQueueInv cfg s) {k : CallId}
    (hall : ∀ b ∈ cfg.branchesOf k,
      (s.branch b).endCallRtp = true ∧ s.endCallHashRemoved b = true)
    (hzero : cfg.hashModifyQueueLengthMs ≠ 0 → ¬s.hashQueueCounter k > 0) :
    HashQueueInv cfg { s with closed := fun c => if c = k then true else s.closed c } where
  table := h.table
  counted := h.counted
  counter := h.counter
  direct := h.direct
  closed := by
    intro b hb
    by_cases hk : cfg.callOf b = k
    · obtain ⟨hended, hremoved⟩ := hall b ((cfg.mem_branchesOf b k).mpr hk)
      refine ⟨hended, hremoved, ?_⟩
      intro d hd heq
      -- a counter of 0 leaves no change of the call in the queue
      by_cases hlen : cfg.hashModifyQueueLengthMs = 0
      · have hnil : s.hashModifyQueue = [] := h.direct hlen
        change d ∈ s.hashModifyQueue at hd
        rw [hnil] at hd
        cases hd
      · have hcount := h.counter k
        have hnone : s.hashModifyQueue.countP (fun d => cfg.callOf d.cBranch = k) = 0 := by omega
        rw [List.countP_eq_zero] at hnone
        exact hnone d hd (by simp [heq, hk])
    · have hb' : s.closed (cfg.callOf b) = true := by simpa [hk] using hb
      obtain ⟨hended, hremoved, hnot⟩ := h.closed b hb'
      exact ⟨hended, hremoved, hnot⟩
  destroying := by
    intro c steps hsteps
    obtain ⟨hclosed, hdestroying⟩ := h.destroying c steps hsteps
    refine ⟨?_, hdestroying⟩
    dsimp only
    split
    · rfl
    · exact hclosed

lemma HashQueueInv.setDestroying (h : HashQueueInv cfg s) {k : CallId} (hclosed : s.closed k = true)
    {steps : List DestroyStep} (hsteps : Destroying cfg s.table k steps) :
    HashQueueInv cfg { s with
      destroying := fun c => if c = k then some steps else s.destroying c } where
  table := h.table
  counted := h.counted
  counter := h.counter
  direct := h.direct
  closed := by
    intro b hb
    obtain ⟨hended, hremoved, hnot⟩ := h.closed b hb
    exact ⟨hended, hremoved, hnot⟩
  destroying := by
    intro c steps' hc
    dsimp only at hc
    split at hc
    · rename_i heq
      obtain rfl : steps = steps' := Option.some.inj hc
      rw [heq]
      exact ⟨hclosed, hsteps⟩
    · exact h.destroying c steps' hc

/-- No section of `destroyCall` finds an address of a branch of the call, or the changes are not
queued. -/
def DestroyOk (cfg : CallConfig) (s : HashState) : HashQueueAct → Prop
  | .destroyNext k _ => cfg.hashModifyQueueLengthMs = 0 ∨ ∀ b ∈ cfg.branchesOf k, s.ipPort b = []
  | _ => True

instance (cfg : CallConfig) (s : HashState) (a : HashQueueAct) : Decidable (DestroyOk cfg s a) :=
  match a with
  | .destroyNext _ _ => inferInstanceAs (Decidable (_ ∨ _))
  | .hashAdd _ _ => isTrue trivial
  | .endCall _ _ => isTrue trivial
  | .closingTest _ _ => isTrue trivial
  | .destroyCall _ => isTrue trivial
  | .apply _ _ => isTrue trivial
  | .change _ _ _ => isTrue trivial

lemma not_pending_of_ne {b c : BranchId} {step : DestroyStep} (hstep : step.cBranch = b)
    (hne : c ≠ b) : ¬step.Pending cfg c := by
  cases step with
  | branch d => exact fun h => hne (h.symm.trans hstep)
  | loop d i => exact fun h => hne (h.1.symm.trans hstep)
  | rtcp d i => exact fun h => hne (h.1.symm.trans hstep)

lemma Destroying.next {t t' : Table} {k : CallId} {step : DestroyStep} {l rest : List DestroyStep}
    (h : Destroying cfg t k (step :: rest)) (hnext : ∀ x ∈ l, x.cBranch = step.cBranch)
    (habs : ∀ b, cfg.callOf b = k → Absent t b → Absent t' b)
    (hswept : (∀ x ∈ l, ¬x.Pending cfg step.cBranch) → step.Pending cfg step.cBranch →
      Absent t' step.cBranch) : Destroying cfg t' k (l ++ rest) := by
  constructor
  · intro x hx
    obtain hx | hx := List.mem_append.mp hx
    · rw [hnext x hx]
      exact h.own step List.mem_cons_self
    · exact h.own x (List.mem_cons_of_mem _ hx)
  · intro b hb hpending
    have hrest : ∀ x ∈ rest, ¬x.Pending cfg b :=
      fun x hx => hpending x (List.mem_append_right _ hx)
    by_cases hstep : step.Pending cfg b
    · obtain rfl : b = step.cBranch := by
        by_contra hne
        exact not_pending_of_ne rfl hne hstep
      exact hswept (fun x hx => hpending x (List.mem_append_left _ hx)) hstep
    · apply habs b hb
      exact h.swept b hb (List.forall_mem_cons.mpr ⟨hstep, hrest⟩)

lemma HashQueueInv.destroySection (h : HashQueueInv cfg s) {k : CallId} {now : Nat}
    {steps : List DestroyStep} (hsteps : s.destroying k = some steps)
    (hok : DestroyOk cfg s (.destroyNext k now)) {r : HashState × List DestroyStep}
    (hr : destroySection cfg now s steps = some r) :
    HashQueueInv cfg r.1 ∧ Quiet s r.1 ∧ Destroying cfg r.1.table k r.2 := by
  obtain ⟨hclosed, hdestroying⟩ := h.destroying k steps hsteps
  have hended : ∀ b, cfg.callOf b = k → (s.branch b).endCallRtp = true := by
    intro b hb
    exact (h.closed b (by rw [hb]; exact hclosed)).ended
  have hsweep : ∀ b, HashQueueInv cfg { s with table := (hashRemoveCall s.table b).1 } ∧
      Quiet s { s with table := (hashRemoveCall s.table b).1 } ∧
      Absent (hashRemoveCall s.table b).1 b := by
    intro b
    obtain ⟨htable, hgone⟩ := h.table.hashRemoveCall b
    obtain ⟨hinv, hq⟩ := h.setTable htable (fun c _ ha => absent_hashRemoveCall ha b)
    exact ⟨hinv, hq, hgone⟩
  have hremoved : ∀ b i a rest removal, steps = .loop b i :: rest ∨ steps = .rtcp b i :: rest →
      (s.ipPort b)[i]? = some a → cfg.hashModifyQueueLengthMs = 0 ∧
      HashQueueInv cfg (calltableHashRemove cfg now s removal false) ∧
      Quiet s (calltableHashRemove cfg now s removal false) := by
    intro b i a rest removal hhead ha
    have hlen : cfg.hashModifyQueueLengthMs = 0 := by
      refine hok.resolve_right ?_
      intro hempty
      have hb : cfg.callOf b = k := by
        obtain rfl | rfl := hhead
        · exact hdestroying.own _ List.mem_cons_self
        · exact hdestroying.own _ List.mem_cons_self
      rw [hempty b ((cfg.mem_branchesOf b k).mpr hb)] at ha
      cases ha
    exact ⟨hlen, h.hashRemove now removal false (fun hne => absurd hlen hne)⟩
  cases steps with
  | nil => cases hr
  | cons step rest =>
    cases step with
    | branch b =>
      rw [HashQueue.destroySection] at hr
      split at hr
      · rename_i hlen
        obtain rfl : _ = r := Option.some.inj hr
        obtain ⟨hinv, hq, hgone⟩ := hsweep b
        refine ⟨hinv, hq, hdestroying.next (l := [.loop b 0]) ?_ ?_ (fun _ _ => hgone)⟩
        · simp [DestroyStep.cBranch]
        · exact fun c hc => hq.absent c (hended c hc)
      · rename_i hlen
        obtain rfl : _ = r := Option.some.inj hr
        refine ⟨h, Quiet.refl s, hdestroying.next (l := [.loop b 0]) ?_ (fun _ _ ha => ha) ?_⟩
        · simp [DestroyStep.cBranch]
        · intro hnone _
          exact absurd ⟨rfl, by simpa using hlen⟩ (hnone (.loop b 0) List.mem_cons_self)
    | loop b i =>
      rw [HashQueue.destroySection] at hr
      split at hr
      · rename_i a ha
        obtain rfl : _ = r := Option.some.inj hr
        obtain ⟨hlen, hinv, hq⟩ := hremoved b i a rest (rtpRemoval b a) (Or.inl rfl) ha
        refine ⟨hinv, hq, hdestroying.next
          (l := [if cfg.optRtcp then .rtcp b i else .loop b (i + 1)]) ?_ ?_ ?_⟩
        · intro x hx
          rw [List.mem_singleton.mp hx]
          split <;> rfl
        · exact fun c hc => hq.absent c (hended c hc)
        · intro hnone _
          refine absurd ?_ (hnone _ List.mem_cons_self)
          split <;> exact ⟨rfl, hlen⟩
      · split at hr
        · obtain rfl : _ = r := Option.some.inj hr
          obtain ⟨hinv, hq, hgone⟩ := hsweep b
          refine ⟨hinv, hq, hdestroying.next (l := []) nofun ?_ (fun _ _ => hgone)⟩
          exact fun c hc => hq.absent c (hended c hc)
        · rename_i hlen
          obtain rfl : _ = r := Option.some.inj hr
          refine ⟨h, Quiet.refl s, hdestroying.next (l := []) nofun (fun _ _ ha => ha) ?_⟩
          exact fun _ hpending => absurd hpending.2 hlen
    | rtcp b i =>
      rw [HashQueue.destroySection] at hr
      split at hr
      · rename_i a ha
        obtain rfl : _ = r := Option.some.inj hr
        obtain ⟨hlen, hinv, hq⟩ := hremoved b i a rest (rtcpRemoval b a) (Or.inr rfl) ha
        refine ⟨hinv, hq, hdestroying.next (l := [.loop b (i + 1)]) ?_ ?_ ?_⟩
        · simp [DestroyStep.cBranch]
        · exact fun c hc => hq.absent c (hended c hc)
        · intro hnone _
          exact absurd ⟨rfl, hlen⟩ (hnone (.loop b (i + 1)) List.mem_cons_self)
      · obtain rfl : _ = r := Option.some.inj hr
        refine ⟨h, Quiet.refl s, hdestroying.next (l := [.loop b (i + 1)]) ?_
          (fun _ _ ha => ha) ?_⟩
        · simp [DestroyStep.cBranch]
        · intro hnone hpending
          exact absurd ⟨rfl, hpending.2⟩ (hnone (.loop b (i + 1)) List.mem_cons_self)

lemma HashQueueInv.step (h : HashQueueInv cfg s) {a : HashQueueAct} (hok : DestroyOk cfg s a)
    {s' : HashState} (hs : hashQueueStep cfg s a = some s') : HashQueueInv cfg s' := by
  cases a with
  | hashAdd now e =>
    obtain rfl : _ = s' := Option.some.inj hs
    exact h.hashAdd now e
  | endCall b clock =>
    obtain rfl : _ = s' := Option.some.inj hs
    exact h.endCall b clock
  | closingTest k otherTests =>
    rw [hashQueueStep] at hs
    split at hs
    · rename_i hall
      dsimp only at hs
      split at hs
      · rename_i htest
        obtain rfl : _ = s' := Option.some.inj hs
        apply h.closingTest
        · simpa using hall
        · exact fun hlen hpos => htest.2 ⟨hlen, hpos⟩
      · obtain rfl : _ = s' := Option.some.inj hs
        exact h
    · cases hs
  | destroyCall k =>
    rw [hashQueueStep] at hs
    split at hs
    · rename_i hstart
      obtain rfl : _ = s' := Option.some.inj hs
      apply h.setDestroying hstart.1
      constructor
      · intro x hx
        obtain ⟨b, hb, rfl⟩ := List.mem_map.mp hx
        exact (cfg.mem_branchesOf b k).mp hb
      · intro b hb hpending
        have hmem := List.mem_map_of_mem (f := DestroyStep.branch) ((cfg.mem_branchesOf b k).mpr hb)
        exact absurd rfl (hpending _ hmem)
    · cases hs
  | destroyNext k now =>
    rw [hashQueueStep] at hs
    split at hs
    · cases hs
    rename_i steps hsteps
    obtain ⟨r, hr, rfl⟩ := Option.map_eq_some_iff.mp hs
    obtain ⟨hinv, hq, hdestroying⟩ := h.destroySection hsteps hok hr
    apply hinv.setDestroying _ hdestroying
    rw [hq.closed]
    exact (h.destroying k steps hsteps).1
  | apply now setBegin =>
    obtain rfl : _ = s' := Option.some.inj hs
    unfold applyHashModifyQueue
    split
    · exact (h.apply_ now setBegin).1
    · exact h
  | change b state addrs =>
    obtain rfl : _ = s' := Option.some.inj hs
    apply h.mark _ (fun c hc => hc) _
    intro c hc
    split
    · exact hc
    · exact hc

end Inv

/-- The states of the runs whose sections of `destroyCall` queue nothing. -/
def HashQueueReach (cfg : CallConfig) : HashState → Prop :=
  ReachBy (hashQueueStep cfg) (DestroyOk cfg) {}

lemma HashQueueReach.inv {cfg : CallConfig} {s : HashState} (h : HashQueueReach cfg s) :
    HashQueueInv cfg s :=
  ReachBy.invariant (hashQueueInv_init cfg) (fun _ _ _ hinv ha hs => hinv.step ha hs) h

/-- Neither the table nor the queue refers to the branches of the call. -/
def CallGone (cfg : CallConfig) (s : HashState) (k : CallId) : Prop :=
  ∀ b ∈ cfg.branchesOf k, Absent s.table b ∧ ∀ d ∈ s.hashModifyQueue, d.cBranch ≠ b

/-- Once `destroyCall` has returned, the call is gone and does not come back. -/
theorem destroyed_call_gone (cfg : CallConfig) (s : HashState) (h : HashQueueReach cfg s)
    (k : CallId) (hdestroyed : s.destroying k = some []) : CallGone cfg s k := by
  obtain ⟨hclosed, hdestroying⟩ := h.inv.destroying k [] hdestroyed
  intro b hb
  have hcall : cfg.callOf b = k := (cfg.mem_branchesOf b k).mp hb
  refine ⟨hdestroying.swept b hcall nofun, ?_⟩
  exact (h.inv.closed b (by rw [hcall]; exact hclosed)).notQueued

def oneBranch (hashModifyQueueLengthMs : Nat) : CallConfig where
  hashModifyQueueLengthMs := hashModifyQueueLengthMs
  callOf := fun b => b
  branchesOf := fun k => [k]
  mem_branchesOf := by
    intro b k
    exact List.mem_singleton

def sampleEntry : Entry := { addr := .v4 167772161, port := 5000, cBranch := 1 }

def sections (n : Nat) : List HashQueueAct := List.replicate n (.destroyNext 1 1600)

theorem destroyed_call_gone_example : ∃ s, HashQueueReach (oneBranch 100) s ∧
    s.destroying 1 = some [] ∧ CallGone (oneBranch 100) s 1 := by
  let acts : List HashQueueAct := [.hashAdd 1000 sampleEntry, .endCall 1 (fun _ => 1050),
    .apply 1200 true, .closingTest 1 true, .destroyCall 1] ++ sections 2
  have h : (checkedRun (hashQueueStep (oneBranch 100)) (DestroyOk (oneBranch 100)) {} acts).map 
      (fun s => s.destroying 1) = some (some []) := by
    decide +kernel
  obtain ⟨s, hs, hdestroyed⟩ := Option.map_eq_some_iff.mp h
  have hreach : HashQueueReach (oneBranch 100) s := ReachBy.initial.checkedRun acts hs
  exact ⟨s, hreach, hdestroyed, destroyed_call_gone (oneBranch 100) s hreach 1 hdestroyed⟩

/-- A call with one media address: when it is destroyed, `destroyCall` queues two removals that
refer to its branch after the table has been swept. -/
def leakRun : List HashQueueAct :=
  [.change 1 {} [(.v4 167772161, 5000)], .hashAdd 1000 sampleEntry, .apply 1200 true,
    .endCall 1 (fun _ => 1300), .apply 1500 true, .closingTest 1 true, .destroyCall 1] ++ sections 4

theorem destroyed_call_queued : ∃ s, hashQueueRun (oneBranch 100) {} leakRun = some s ∧
    s.destroying 1 = some [] ∧ ¬CallGone (oneBranch 100) s 1 := by
  have h : (hashQueueRun (oneBranch 100) {} leakRun).map
      (fun s => (s.destroying 1, s.hashModifyQueue.map HashModifyData.cBranch)) =
      some (some [], [1, 1]) := by
    decide +kernel
  obtain ⟨s, hs, hfinal⟩ := Option.map_eq_some_iff.mp h
  obtain ⟨hdestroyed, hqueue⟩ := Prod.mk.inj hfinal
  refine ⟨s, hs, hdestroyed, ?_⟩
  intro hgone
  have hmem : 1 ∈ s.hashModifyQueue.map HashModifyData.cBranch := by
    rw [hqueue]
    exact List.mem_cons_self
  obtain ⟨d, hd, heq⟩ := List.mem_map.mp hmem
  exact (hgone 1 (List.mem_singleton.mpr rfl)).2 d hd heq

end VoipMonitor.HashQueue
