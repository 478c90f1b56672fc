import VoipMonitor.Model.CleanupCalls

/-!
# Which closed calls reach `calls_queue`

The walks erase every call that is due, and the array keeps the first ones for which it has room.
A call in the array is pushed once, unless it was pushed before.
-/

namespace VoipMonitor.CleanupCalls

section Walk
variable (cfg : CleanupConfig) (args : CleanupArgs)

/-- The entries of a registry whose calls are due, tested one after the other. -/
def dueCalls (info : CallId → CallInfo) : List CallId → List CallId
  | [] => []
  | c :: calls =>
    let r := closeCall cfg args (info c)
    let rest := dueCalls (fun k => if k = c then r.1 else info k) calls
    if r.2 then c :: rest else rest

lemma walkCalls_erased (max : Nat) (info : CallId → CallInfo) (closeCalls calls : List CallId) :
    (walkCalls cfg args max info closeCalls calls).erased = dueCalls cfg args info calls := by
  induction calls generalizing info closeCalls with
  | nil => rfl
  | cons c calls ih =>
    rw [walkCalls, dueCalls]
    dsimp only
    split
    · rw [ih]
    · rw [ih]

lemma walkCalls_closeCalls (max : Nat) (info : CallId → CallInfo) (closeCalls calls : List CallId)
    (hroom : closeCalls.length ≤ max) :
    (walkCalls cfg args max info closeCalls calls).closeCalls =
      (closeCalls ++ dueCalls cfg args info calls).take max := by
  induction calls generalizing info closeCalls with
  | nil =>
    rw [walkCalls, dueCalls, List.append_nil, List.take_of_length_le hroom]
  | cons c calls ih =>
    rw [walkCalls, dueCalls]
    split
    · split
      · rename_i hlt
        have hlen : (closeCalls ++ [c]).length ≤ max := by
          rw [List.length_append, List.length_singleton]
          exact hlt
        rw [ih _ _ hlen, List.append_assoc]
        rfl
      · rename_i hfull
        have hmax : closeCalls.length = max := by omega
        rw [ih _ _ hroom, ← hmax, List.take_left, List.take_left]
    · exact ih _ _ hroom

end Walk

lemma count_pushCalls (c : CallId) (closeCalls : List CallId) (s : Registries) :
    (pushCalls closeCalls s).2.count c =
      if c ∈ closeCalls ∧ s.pushCallToCallsQueue c = false then 1 else 0 := by
  induction closeCalls generalizing s with
  | nil => simp [pushCalls]
  | cons k closeCalls ih =>
    rw [pushCalls]
    split
    · rename_i hpushed
      rw [ih]
      by_cases hc : c = k
      · simp [hc, hpushed]
      · simp [hc]
    · rename_i hfresh
      rw [List.count_cons, ih]
      by_cases hc : c = k
      · simp [hc, hfresh]
      · simp [hc, Ne.symm hc]

lemma foldl_otherStep_pushed (acts : List OtherAct) (s : Registries) :
    (acts.foldl otherStep s).pushCallToCallsQueue = s.pushCallToCallsQueue := by
  induction acts generalizing s with
  | nil => rfl
  | cons a acts ih =>
    rw [List.foldl_cons, ih]
    cases a <;> rfl

section Run
variable (cfg : CleanupConfig) (args : CleanupArgs) (o : Interleaving) (s : Registries)

lemma atPush_pushed : (atPush cfg args o s).pushCallToCallsQueue = s.pushCallToCallsQueue := by
  rw [atPush, foldl_otherStep_pushed]
  change (atMgcp cfg args o s).pushCallToCallsQueue = _
  rw [atMgcp, foldl_otherStep_pushed]
  change (atInvite o s).pushCallToCallsQueue = _
  rw [atInvite, foldl_otherStep_pushed]

def dueInRun : List CallId :=
  dueCalls cfg args (atInvite o s).info (atInvite o s).invite ++
    dueCalls cfg args (atMgcp cfg args o s).info (atMgcp cfg args o s).mgcp

lemma erased_eq (hrun : skipped cfg args o s = false) :
    (cleanupCalls cfg args o s).erased = dueInRun cfg args o s := by
  rw [cleanupCalls, if_neg (by simp [hrun])]
  rw [inviteWalk, mgcpWalk, walkCalls_erased, walkCalls_erased]
  rfl

lemma closeCalls_eq : (mgcpWalk cfg args o s).closeCalls =
    (dueInRun cfg args o s).take (closeCallsMax (getCountCalls o s)) := by
  have hinvite : (inviteWalk cfg args o s).closeCalls =
      (dueCalls cfg args (atInvite o s).info (atInvite o s).invite).take
        (closeCallsMax (getCountCalls o s)) := by
    rw [inviteWalk, walkCalls_closeCalls _ _ _ _ _ _ (Nat.zero_le _), List.nil_append]
  have hroom : (inviteWalk cfg args o s).closeCalls.length ≤ closeCallsMax (getCountCalls o s) := by
    rw [hinvite]
    exact List.length_take_le _ _
  rw [mgcpWalk, walkCalls_closeCalls _ _ _ _ _ _ hroom, hinvite, dueInRun]
  -- what the first walk left out does not come back
  rw [List.take_append, List.take_take, Nat.min_self, List.take_append, List.length_take]
  congr 1
  congr 1
  omega

lemma count_pushed (hrun : skipped cfg args o s = false) (c : CallId) :
    (cleanupCalls cfg args o s).pushed.count c =
      if c ∈ (dueInRun cfg args o s).take (closeCallsMax (getCountCalls o s)) ∧
        s.pushCallToCallsQueue c = false then 1 else 0 := by
  rw [cleanupCalls, if_neg (by simp [hrun])]
  rw [count_pushCalls, closeCalls_eq, atPush_pushed]

/-- Every erased call is pushed exactly once if and only if the run looks at no call, or each call
that is due is among the first ones that the array has room for and was not pushed before. -/
theorem cleanupCalls_pushed_once_iff :
    (∀ c ∈ (cleanupCalls cfg args o s).erased, (cleanupCalls cfg args o s).pushed.count c = 1) ↔
      skipped cfg args o s = true ∨ ∀ c ∈ dueInRun cfg args o s,
        c ∈ (dueInRun cfg args o s).take (closeCallsMax (getCountCalls o s)) ∧
          s.pushCallToCallsQueue c = false := by
  cases hrun : skipped cfg args o s with
  | true =>
    have hnil : (cleanupCalls cfg args o s).erased = [] := by rw [cleanupCalls, if_pos hrun]
    rw [hnil]
    simp
  | false =>
    rw [erased_eq cfg args o s hrun]
    constructor
    · intro h
      refine Or.inr ?_
      intro c hc
      have hcount := h c hc
      rw [count_pushed cfg args o s hrun] at hcount
      by_cases hok : c ∈ (dueInRun cfg args o s).take (closeCallsMax (getCountCalls o s)) ∧
          s.pushCallToCallsQueue c = false
      · exact hok
      · rw [if_neg hok] at hcount
        cases hcount
    · rintro (hskip | h)
      · cases hskip
      · intro c hc
        rw [count_pushed cfg args o s hrun, if_pos (h c hc)]

end Run

/-- One call is counted, another one arrives before the registries are locked, and both are closed
by the command that closes all calls: the second one is erased and never pushed. -/
theorem cleanupCalls_loses_call : ∃ (o : Interleaving) (s : Registries),
    2 ∈ (cleanupCalls {} { closeAll := true } o s).erased ∧
      (cleanupCalls {} { closeAll := true } o s).pushed.count 2 = 0 := by
  refine ⟨{ beforeInvite := [.addInvite 1 2] }, { invite := [1] }, ?_, ?_⟩
  · decide
  · decide

end VoipMonitor.CleanupCalls
