import Mathlib.Algebra.BigOperators.Group.Finset.Basic
import Mathlib.Algebra.Order.BigOperators.Group.Finset
import Mathlib.Tactic.Linarith
import VoipMonitor.Model.CallsHash

/-!
# The RTP table stays consistent

Every change of the lists changes the counters of the branches by the entries that come and go.
The sweep over the table relies on this: a branch whose counter is 0 has no entry.
-/

namespace VoipMonitor.CallsHash

def branches (calls : List NodeCallRtp) : List BranchId := calls.map NodeCallRtp.cBranch

def entries (calls : List NodeCallRtp) (c : BranchId) : Nat := (branches calls).count c

def bucketEntries (nodes : List NodeCallRtpIpPort) (c : BranchId) : Nat :=
  (nodes.map (fun node => entries node.calls c)).sum

def tableEntries (t : Table) (c : BranchId) : Nat :=
  ∑ h ∈ Finset.range maxNode, bucketEntries (t.callsHash h) c

def Balanced (n n' : Counters) (before after : BranchId → Nat) : Prop :=
  ∀ c, n' c + before c = n c + after c

lemma Balanced.refl (n : Counters) (before : BranchId → Nat) : Balanced n n before before :=
  fun _ => rfl

lemma Balanced.trans {n n' n'' : Counters} {a b c : BranchId → Nat} (h : Balanced n n' a b)
    (h' : Balanced n' n'' b c) : Balanced n n'' a c := by
  intro k
  have h1 := h k
  have h2 := h' k
  omega

lemma entries_cons (nodeCall : NodeCallRtp) (calls : List NodeCallRtp) (c : BranchId) :
    entries (nodeCall :: calls) c = entries calls c + if nodeCall.cBranch = c then 1 else 0 := by
  simp [entries, branches, List.count_cons]

lemma bucketEntries_cons (node : NodeCallRtpIpPort) (nodes : List NodeCallRtpIpPort)
    (c : BranchId) :
    bucketEntries (node :: nodes) c = entries node.calls c + bucketEntries nodes c := by
  simp [bucketEntries]

lemma balanced_dec (n : Counters) (nodeCall : NodeCallRtp) (calls : List NodeCallRtp) :
    Balanced n (n.dec nodeCall.cBranch) (entries (nodeCall :: calls)) (entries calls) := by
  intro c
  rw [entries_cons, Counters.dec]
  by_cases hc : c = nodeCall.cBranch
  · rw [if_pos hc, if_pos hc.symm]
    push_cast
    omega
  · rw [if_neg hc, if_neg (Ne.symm hc)]
    rfl

lemma balanced_inc (n : Counters) (nodeCall : NodeCallRtp) (calls : List NodeCallRtp) :
    Balanced n (n.inc nodeCall.cBranch) (entries calls) (entries (nodeCall :: calls)) := by
  intro c
  rw [entries_cons, Counters.inc]
  by_cases hc : c = nodeCall.cBranch
  · rw [if_pos hc, if_pos hc.symm]
    push_cast
    omega
  · rw [if_neg hc, if_neg (Ne.symm hc)]
    rfl

lemma balanced_cons {n n' : Counters} {calls calls' : List NodeCallRtp}
    (h : Balanced n n' (entries calls) (entries calls')) {nodeCall nodeCall' : NodeCallRtp}
    (hbranch : nodeCall'.cBranch = nodeCall.cBranch) :
    Balanced n n' (entries (nodeCall :: calls)) (entries (nodeCall' :: calls')) := by
  intro c
  have h1 := h c
  rw [entries_cons, entries_cons, hbranch]
  push_cast
  omega

section Calls
variable (env : BranchId → BranchState) (e : Entry)

lemma walkCalls_spec (calls : List NodeCallRtp) (n : Counters) :
    (branches (walkCalls env e n calls).calls).Sublist (branches calls) ∧
      (walkCalls env e n calls).count = (walkCalls env e n calls).calls.length ∧
      ((walkCalls env e n calls).found = true ↔
        e.cBranch ∈ branches (walkCalls env e n calls).calls) ∧
      Balanced n (walkCalls env e n calls).counters (entries calls)
        (entries (walkCalls env e n calls).calls) := by
  induction calls generalizing n with
  | nil => exact ⟨.slnil, rfl, by simp [walkCalls, branches], Balanced.refl _ _⟩
  | cons nodeCall calls ih =>
    rw [walkCalls]
    split
    · obtain ⟨hsub, hcount, hfound, hbal⟩ := ih (n.dec nodeCall.cBranch)
      exact ⟨hsub.cons _, hcount, hfound, (balanced_dec n nodeCall calls).trans hbal⟩
    · obtain ⟨hsub, hcount, hfound, hbal⟩ := ih n
      split
      · rename_i heq
        refine ⟨hsub.cons_cons _, congrArg (· + 1) hcount, ?_, balanced_cons hbal rfl⟩
        simp [branches, heq]
      · rename_i hne
        refine ⟨hsub.cons_cons _, congrArg (· + 1) hcount, ?_, balanced_cons hbal rfl⟩
        rw [hfound]
        simp [branches, Ne.symm hne]

structure CallsOk (sdpMultiplication : Nat) (calls : List NodeCallRtp) : Prop where
  nodup : (branches calls).Nodup
  length_le : calls.length ≤ max 1 sdpMultiplication

lemma length_branches (calls : List NodeCallRtp) : (branches calls).length = calls.length :=
  List.length_map _

lemma CallsOk.sublist {opt : Nat} {calls calls' : List NodeCallRtp} (h : CallsOk opt calls)
    (hsub : (branches calls').Sublist (branches calls)) : CallsOk opt calls' := by
  refine ⟨h.nodup.sublist hsub, ?_⟩
  have hle := hsub.length_le
  rw [length_branches, length_branches] at hle
  exact hle.trans h.length_le

lemma addToCalls_spec {opt : Nat} {calls : List NodeCallRtp} (hcalls : CallsOk opt calls)
    (n : Counters) :
    CallsOk opt (addToCalls opt env e n calls).1 ∧ (addToCalls opt env e n calls).1 ≠ [] ∧
      Balanced n (addToCalls opt env e n calls).2 (entries calls)
        (entries (addToCalls opt env e n calls).1) := by
  obtain ⟨hsub, hcount, hfound, hbal⟩ := walkCalls_spec env e calls n
  unfold addToCalls
  generalize walkCalls env e n calls = w at hsub hcount hfound hbal ⊢
  have hw := hcalls.sublist hsub
  dsimp only
  split
  · rename_i h
    refine ⟨hw, ?_, hbal⟩
    intro (hnil : w.calls = [])
    rw [h, hnil] at hfound
    simp [branches] at hfound
  rename_i hnot
  have hnew : e.cBranch ∉ branches w.calls := fun h => hnot (hfound.mpr h)
  split
  · -- the only call is replaced
    rename_i first rest heq hone
    have hlen := hcount
    rw [hone, List.length_cons] at hlen
    obtain rfl : rest = [] := by
      apply List.eq_nil_of_length_eq_zero
      have := (decide_eq_true_iff.mp heq).2
      omega
    refine ⟨⟨by simp [branches], by simp⟩, by simp, ?_⟩
    have hinc : Balanced w.counters (w.counters.inc e.cBranch) (entries []) (entries [e.nodeCall]) :=
      balanced_inc w.counters e.nodeCall []
    have hdec := balanced_dec (w.counters.inc e.cBranch) first []
    rw [hone] at hbal
    intro c
    have h1 := hbal c
    have h2 := hinc c
    have h3 := hdec c
    dsimp only [replaceNodeCall]
    omega
  · rename_i hreplace
    split
    · rename_i hlimit
      refine ⟨hw, ?_, hbal⟩
      intro (hnil : w.calls = [])
      rw [hcount, hnil, List.length_nil] at hlimit
      omega
    · rename_i hlimit
      refine ⟨⟨?_, ?_⟩, by simp [insertNodeCall],
        hbal.trans (balanced_inc w.counters e.nodeCall w.calls)⟩
      · simpa [insertNodeCall, branches, Entry.nodeCall] using ⟨by simpa [branches] using hnew, hw.nodup⟩
      · -- without a limit of its own the node was empty
        have hroom : w.calls.length < max 1 opt := by
          by_cases hopt : opt = 0
          · rcases hlist : w.calls with _ | ⟨first, rest⟩
            · simp
            · exfalso
              have hle := hw.length_le
              rw [hlist, List.length_cons, hopt] at hle
              refine hreplace first rest ?_ hlist
              rw [hcount, hlist, List.length_cons]
              simpa [hopt] using hle
          · have hlt : w.count < opt := by
              by_contra hge
              exact hlimit ⟨by omega, by omega⟩
            omega
        change w.calls.length + 1 ≤ max 1 opt
        omega

lemma removeFromCalls_spec (r : Removal) (calls : List NodeCallRtp) (n : Counters) :
    (branches (removeFromCalls r n calls).1).Sublist (branches calls) ∧
      Balanced n (removeFromCalls r n calls).2.1 (entries calls)
        (entries (removeFromCalls r n calls).1) := by
  induction calls with
  | nil => exact ⟨.slnil, Balanced.refl _ _⟩
  | cons nodeCall calls ih =>
    rw [removeFromCalls]
    split
    · exact ⟨(List.Sublist.refl _).cons _, balanced_dec n nodeCall calls⟩
    · exact ⟨ih.1.cons_cons _, balanced_cons ih.2 rfl⟩

lemma sweepCalls_spec (c : BranchId) (calls : List NodeCallRtp) (n : Counters) :
    (branches (sweepCalls c n calls).1).Sublist (branches calls) ∧
      c ∉ branches (sweepCalls c n calls).1 ∧
      Balanced n (sweepCalls c n calls).2.1 (entries calls)
        (entries (sweepCalls c n calls).1) := by
  induction calls generalizing n with
  | nil => exact ⟨.slnil, by simp [sweepCalls, branches], Balanced.refl _ _⟩
  | cons nodeCall calls ih =>
    rw [sweepCalls]
    split
    · obtain ⟨hsub, hnot, hbal⟩ := ih (n.dec nodeCall.cBranch)
      exact ⟨hsub.cons _, hnot, (balanced_dec n nodeCall calls).trans hbal⟩
    · rename_i hne
      obtain ⟨hsub, hnot, hbal⟩ := ih n
      refine ⟨hsub.cons_cons _, ?_, balanced_cons hbal rfl⟩
      simp only [branches, List.map_cons, List.mem_cons, not_or]
      exact ⟨Ne.symm hne, hnot⟩

end Calls

def NodeCallRtpIpPort.key (node : NodeCallRtpIpPort) : VmIP × VmPort := (node.addr, node.port)

structure BucketOk (sdpMultiplication h : Nat) (nodes : List NodeCallRtpIpPort) : Prop where
  placed : ∀ node ∈ nodes, tuplehash node.addr.getHashNumber node.port = h
  nonempty : ∀ node ∈ nodes, node.calls ≠ []
  calls : ∀ node ∈ nodes, CallsOk sdpMultiplication node.calls
  keys : (nodes.map NodeCallRtpIpPort.key).Nodup

section Bucket
variable {opt h : Nat}

lemma bucketOk_nil : BucketOk opt h [] := ⟨nofun, nofun, nofun, List.nodup_nil⟩

lemma bucketOk_cons {node : NodeCallRtpIpPort} {nodes : List NodeCallRtpIpPort} :
    BucketOk opt h (node :: nodes) ↔
      tuplehash node.addr.getHashNumber node.port = h ∧ node.calls ≠ [] ∧
        CallsOk opt node.calls ∧ node.key ∉ nodes.map NodeCallRtpIpPort.key ∧
        BucketOk opt h nodes := by
  constructor
  · intro hb
    have hkeys := List.nodup_cons.mp hb.keys
    refine ⟨hb.placed _ List.mem_cons_self, hb.nonempty _ List.mem_cons_self,
      hb.calls _ List.mem_cons_self, hkeys.1, ?_⟩
    exact ⟨fun k hk => hb.placed k (List.mem_cons_of_mem _ hk),
      fun k hk => hb.nonempty k (List.mem_cons_of_mem _ hk),
      fun k hk => hb.calls k (List.mem_cons_of_mem _ hk), hkeys.2⟩
  · rintro ⟨hplaced, hne, hcalls, hkey, hb⟩
    refine ⟨?_, ?_, ?_, List.nodup_cons.mpr ⟨hkey, hb.keys⟩⟩
    · exact List.forall_mem_cons.mpr ⟨hplaced, hb.placed⟩
    · exact List.forall_mem_cons.mpr ⟨hne, hb.nonempty⟩
    · exact List.forall_mem_cons.mpr ⟨hcalls, hb.calls⟩

lemma balanced_tail {n n' : Counters} {nodes nodes' : List NodeCallRtpIpPort}
    (hbal : Balanced n n' (bucketEntries nodes) (bucketEntries nodes'))
    (node : NodeCallRtpIpPort) :
    Balanced n n' (bucketEntries (node :: nodes)) (bucketEntries (node :: nodes')) := by
  intro c
  have h1 := hbal c
  rw [bucketEntries_cons, bucketEntries_cons]
  push_cast
  omega

lemma balanced_head {n n' : Counters} {node node' : NodeCallRtpIpPort}
    (hbal : Balanced n n' (entries node.calls) (entries node'.calls))
    (nodes : List NodeCallRtpIpPort) :
    Balanced n n' (bucketEntries (node :: nodes)) (bucketEntries (node' :: nodes)) := by
  intro c
  have h1 := hbal c
  rw [bucketEntries_cons, bucketEntries_cons]
  push_cast
  omega

lemma balanced_drop {n n' : Counters} {node : NodeCallRtpIpPort}
    (hbal : Balanced n n' (entries node.calls) (entries []))
    (nodes : List NodeCallRtpIpPort) :
    Balanced n n' (bucketEntries (node :: nodes)) (bucketEntries nodes) := by
  intro c
  have h1 := hbal c
  rw [bucketEntries_cons]
  have h2 : entries [] c = 0 := rfl
  rw [h2] at h1
  push_cast
  omega

lemma addToBucket_some (env : BranchId → BranchState) (e : Entry) (n : Counters)
    {nodes : List NodeCallRtpIpPort} (hb : BucketOk opt h nodes)
    {r : List NodeCallRtpIpPort × Counters} (hr : addToBucket opt env e n nodes = some r) :
    BucketOk opt h r.1 ∧
      r.1.map NodeCallRtpIpPort.key = nodes.map NodeCallRtpIpPort.key ∧
      Balanced n r.2 (bucketEntries nodes) (bucketEntries r.1) := by
  induction nodes generalizing r with
  | nil => cases hr
  | cons node nodes ih =>
    obtain ⟨hplaced, hne, hcalls, hkey, hrest⟩ := bucketOk_cons.mp hb
    rw [addToBucket] at hr
    split at hr
    · obtain rfl : _ = r := Option.some.inj hr
      obtain ⟨hok, hne', hbal⟩ := addToCalls_spec env e hcalls n
      exact ⟨bucketOk_cons.mpr ⟨hplaced, hne', hok, hkey, hrest⟩, rfl, balanced_head hbal nodes⟩
    · obtain ⟨q, hq, rfl⟩ := Option.map_eq_some_iff.mp hr
      obtain ⟨hok, hkeys, hbal⟩ := ih hrest hq
      refine ⟨bucketOk_cons.mpr ⟨hplaced, hne, hcalls, ?_, hok⟩, ?_, balanced_tail hbal node⟩
      · rw [hkeys]
        exact hkey
      · rw [List.map_cons, List.map_cons, hkeys]

lemma addToBucket_none (env : BranchId → BranchState) (e : Entry) (n : Counters)
    {nodes : List NodeCallRtpIpPort} (hnone : addToBucket opt env e n nodes = none) :
    (e.addr, e.port) ∉ nodes.map NodeCallRtpIpPort.key := by
  induction nodes with
  | nil => simp
  | cons node nodes ih =>
    rw [addToBucket] at hnone
    split at hnone
    · cases hnone
    · rename_i hother
      have hrest := ih (Option.map_eq_none_iff.mp hnone)
      rw [List.map_cons, List.mem_cons, not_or]
      refine ⟨?_, hrest⟩
      intro heq
      obtain ⟨haddr, hport⟩ := Prod.mk.inj heq
      exact hother ⟨hport.symm, haddr.symm⟩

lemma removeFromBucket_spec (r : Removal) (n : Counters) {nodes : List NodeCallRtpIpPort}
    (hb : BucketOk opt h nodes) :
    BucketOk opt h (removeFromBucket r n nodes).1 ∧
      (∀ key ∈ (removeFromBucket r n nodes).1.map NodeCallRtpIpPort.key,
        key ∈ nodes.map NodeCallRtpIpPort.key) ∧
      Balanced n (removeFromBucket r n nodes).2.1 (bucketEntries nodes)
        (bucketEntries (removeFromBucket r n nodes).1) := by
  induction nodes with
  | nil => exact ⟨bucketOk_nil, fun _ hk => hk, Balanced.refl _ _⟩
  | cons node nodes ih =>
    obtain ⟨hplaced, hne, hcalls, hkey, hrest⟩ := bucketOk_cons.mp hb
    rw [removeFromBucket]
    split
    · obtain ⟨hsub, hbal⟩ := removeFromCalls_spec r node.calls n
      dsimp only
      split
      · rename_i hempty
        rw [hempty] at hbal
        exact ⟨hrest, fun k hk => List.mem_cons_of_mem _ hk, balanced_drop hbal nodes⟩
      · rename_i hleft
        exact ⟨bucketOk_cons.mpr ⟨hplaced, hleft, hcalls.sublist hsub, hkey, hrest⟩,
          fun _ hk => hk, balanced_head hbal nodes⟩
    · obtain ⟨hok, hkeys, hbal⟩ := ih hrest
      refine ⟨bucketOk_cons.mpr ⟨hplaced, hne, hcalls, fun hk => hkey (hkeys _ hk), hok⟩, ?_,
        balanced_tail hbal node⟩
      intro k hk
      rcases List.mem_cons.mp hk with hk | hk
      · exact List.mem_cons.mpr (Or.inl hk)
      · exact List.mem_cons.mpr (Or.inr (hkeys k hk))

lemma sweepBucket_spec (c : BranchId) {nodes : List NodeCallRtpIpPort}
    (hb : BucketOk opt h nodes) (n : Counters) :
    BucketOk opt h (sweepBucket c n nodes).1 ∧
      (∀ key ∈ (sweepBucket c n nodes).1.map NodeCallRtpIpPort.key,
        key ∈ nodes.map NodeCallRtpIpPort.key) ∧
      (∀ node ∈ (sweepBucket c n nodes).1, c ∉ branches node.calls) ∧
      Balanced n (sweepBucket c n nodes).2.1 (bucketEntries nodes)
        (bucketEntries (sweepBucket c n nodes).1) := by
  induction nodes generalizing n with
  | nil => exact ⟨bucketOk_nil, fun _ hk => hk, nofun, Balanced.refl _ _⟩
  | cons node nodes ih =>
    obtain ⟨hplaced, hne, hcalls, hkey, hrest⟩ := bucketOk_cons.mp hb
    obtain ⟨hsub, hnot, hbal⟩ := sweepCalls_spec c node.calls n
    obtain ⟨hok, hkeys, hgone, hbal'⟩ := ih hrest (sweepCalls c n node.calls).2.1
    rw [sweepBucket]
    split
    · rename_i hempty
      rw [hempty] at hbal
      exact ⟨hok, fun k hk => List.mem_cons_of_mem _ (hkeys k hk), hgone,
        (balanced_drop hbal nodes).trans hbal'⟩
    · rename_i hleft
      refine ⟨bucketOk_cons.mpr ⟨hplaced, hleft, hcalls.sublist hsub,
        fun hk => hkey (hkeys _ hk), hok⟩, ?_, List.forall_mem_cons.mpr ⟨hnot, hgone⟩,
        (balanced_head hbal nodes).trans (balanced_tail hbal' _)⟩
      intro k hk
      rcases List.mem_cons.mp hk with hk | hk
      · exact List.mem_cons.mpr (Or.inl hk)
      · exact List.mem_cons.mpr (Or.inr (hkeys k hk))

end Bucket

lemma tuplehash_lt (addr : UInt32) (port : UInt16) : tuplehash addr port < maxNode :=
  Nat.mod_lt _ (by decide)

structure TableInv (sdpMultiplication : Nat) (t : Table) : Prop where
  buckets : ∀ h, BucketOk sdpMultiplication h (t.callsHash h)
  counter : ∀ c, t.rtpIpPortCounter c = tableEntries t c

lemma tableInv_empty (opt : Nat) : TableInv opt {} where
  buckets := fun _ => bucketOk_nil
  counter := by
    intro c
    simp [tableEntries, bucketEntries]

section Table
variable {opt : Nat} {t : Table}

@[simp] lemma setBucket_self (t : Table) (h : Nat) (nodes : List NodeCallRtpIpPort)
    (n : Counters) : (t.setBucket h nodes n).callsHash h = nodes := if_pos rfl

lemma setBucket_of_ne (t : Table) {h k : Nat} (hk : k ≠ h) (nodes : List NodeCallRtpIpPort)
    (n : Counters) : (t.setBucket h nodes n).callsHash k = t.callsHash k := if_neg hk

lemma tableEntries_setBucket (t : Table) {h : Nat} (hh : h < maxNode)
    (nodes : List NodeCallRtpIpPort) (n : Counters) (c : BranchId) :
    tableEntries (t.setBucket h nodes n) c + bucketEntries (t.callsHash h) c =
      tableEntries t c + bucketEntries nodes c := by
  have hmem : h ∈ Finset.range maxNode := Finset.mem_range.mpr hh
  have hrest : ∑ k ∈ (Finset.range maxNode).erase h,
      bucketEntries ((t.setBucket h nodes n).callsHash k) c =
      ∑ k ∈ (Finset.range maxNode).erase h, bucketEntries (t.callsHash k) c := by
    apply Finset.sum_congr rfl
    intro k hk
    rw [setBucket_of_ne t (Finset.ne_of_mem_erase hk)]
  unfold tableEntries
  rw [← Finset.add_sum_erase _ _ hmem, ← Finset.add_sum_erase _ _ hmem, hrest, setBucket_self]
  omega

lemma TableInv.setBucket (ht : TableInv opt t) {h : Nat} (hh : h < maxNode)
    {nodes : List NodeCallRtpIpPort} {n : Counters} (hb : BucketOk opt h nodes)
    (hbal : Balanced t.rtpIpPortCounter n (bucketEntries (t.callsHash h)) (bucketEntries nodes)) :
    TableInv opt (t.setBucket h nodes n) := by
  constructor
  · intro k
    by_cases hk : k = h
    · rw [hk, setBucket_self]
      exact hb
    · rw [setBucket_of_ne t hk]
      exact ht.buckets k
  · intro c
    change n c = _
    have h1 := hbal c
    have h2 := tableEntries_setBucket t hh nodes n c
    have h3 := ht.counter c
    omega

lemma TableInv.hashAdd (ht : TableInv opt t) (env : BranchId → BranchState) (e : Entry) :
    TableInv opt (hashAdd opt env t e) := by
  unfold CallsHash.hashAdd
  split
  · exact ht
  dsimp only
  have hh := tuplehash_lt e.addr.getHashNumber e.port
  have hb := ht.buckets (tuplehash e.addr.getHashNumber e.port)
  split
  · rename_i r hr
    obtain ⟨hok, -, hbal⟩ := addToBucket_some env e _ hb hr
    exact ht.setBucket hh hok hbal
  · rename_i hnone
    apply ht.setBucket hh
    · refine bucketOk_cons.mpr ⟨rfl, by simp [insertNodeCall], ⟨?_, ?_⟩,
        addToBucket_none env e _ hnone, hb⟩
      · simp [insertNodeCall, branches]
      · simp [insertNodeCall]
    · intro c
      have hinc := balanced_inc t.rtpIpPortCounter e.nodeCall [] c
      have hzero : entries [] c = 0 := rfl
      rw [bucketEntries_cons]
      change t.rtpIpPortCounter.inc e.cBranch c + _ = _
      change t.rtpIpPortCounter.inc e.cBranch c + _ = _ at hinc
      dsimp only [insertNodeCall]
      push_cast
      omega

lemma TableInv.hashRemove (ht : TableInv opt t) (r : Removal) :
    TableInv opt (hashRemove t r).1 := by
  have hh := tuplehash_lt r.addr.getHashNumber r.port
  obtain ⟨hok, -, hbal⟩ := removeFromBucket_spec r t.rtpIpPortCounter
    (ht.buckets (tuplehash r.addr.getHashNumber r.port))
  exact ht.setBucket hh hok hbal

/-- A branch has no entry in the table. -/
def Absent (t : Table) (c : BranchId) : Prop :=
  ∀ h, ∀ node ∈ t.callsHash h, c ∉ branches node.calls

lemma TableInv.sweepTable (ht : TableInv opt t) (c : BranchId) {k : Nat} (hk : k ≤ maxNode) :
    TableInv opt (sweepTable c t k).1 ∧
      ∀ h < k, ∀ node ∈ (CallsHash.sweepTable c t k).1.callsHash h, c ∉ branches node.calls := by
  induction k with
  | zero => exact ⟨ht, nofun⟩
  | succ k ih =>
    obtain ⟨hinv, hgone⟩ := ih (by omega)
    obtain ⟨hok, -, hgone', hbal⟩ := sweepBucket_spec c (hinv.buckets k)
      (CallsHash.sweepTable c t k).1.rtpIpPortCounter
    refine ⟨hinv.setBucket hk hok hbal, ?_⟩
    intro h hlt
    rw [CallsHash.sweepTable]
    by_cases heq : h = k
    · rw [heq, setBucket_self]
      exact hgone'
    · rw [setBucket_of_ne _ heq]
      exact hgone h (by omega)

lemma TableInv.bucket_lt (ht : TableInv opt t) {h : Nat} {node : NodeCallRtpIpPort}
    (hnode : node ∈ t.callsHash h) : h < maxNode := by
  rw [← (ht.buckets h).placed node hnode]
  exact tuplehash_lt _ _

lemma TableInv.absent_of_counter (ht : TableInv opt t) {c : BranchId}
    (hc : t.rtpIpPortCounter c = 0) : Absent t c := by
  have htotal : tableEntries t c = 0 := by
    have := ht.counter c
    omega
  intro h node hnode hmem
  have hbucket : bucketEntries (t.callsHash h) c = 0 := by
    exact Finset.sum_eq_zero_iff.mp htotal h (Finset.mem_range.mpr (ht.bucket_lt hnode))
  have hzero : entries node.calls c = 0 :=
    List.sum_eq_zero_iff.mp hbucket _ (List.mem_map_of_mem hnode)
  exact (List.count_eq_zero.mp hzero) hmem

lemma TableInv.hashRemoveCall (ht : TableInv opt t) (c : BranchId) :
    TableInv opt (hashRemoveCall t c).1 ∧ Absent (CallsHash.hashRemoveCall t c).1 c := by
  unfold CallsHash.hashRemoveCall
  split
  · obtain ⟨hinv, hgone⟩ := ht.sweepTable c le_rfl
    exact ⟨hinv, fun h node hnode => hgone h (hinv.bucket_lt hnode) node hnode⟩
  · rename_i hc
    exact ⟨ht, ht.absent_of_counter (by simpa using hc)⟩

lemma TableInv.hashStep (ht : TableInv opt t) (a : HashAct) : TableInv opt (hashStep opt t a) := by
  cases a with
  | add env e => exact ht.hashAdd env e
  | remove r => exact ht.hashRemove r
  | removeCall c => exact (ht.hashRemoveCall c).1

lemma tableInv_run (opt : Nat) (acts : List HashAct) :
    TableInv opt (acts.foldl (hashStep opt) {}) := by
  suffices h : ∀ t, TableInv opt t → TableInv opt (acts.foldl (hashStep opt) t) from
    h {} (tableInv_empty opt)
  induction acts with
  | nil => exact fun _ ht => ht
  | cons a acts ih => exact fun t ht => ih _ (ht.hashStep a)

end Table

/-- What the users of the table rely on. -/
structure Consistent (sdpMultiplication : Nat) (t : Table) : Prop where
  placed : ∀ h, ∀ node ∈ t.callsHash h, tuplehash node.addr.getHashNumber node.port = h
  unique : ∀ h, ((t.callsHash h).map NodeCallRtpIpPort.key).Nodup
  nonempty : ∀ h, ∀ node ∈ t.callsHash h, node.calls ≠ []
  once : ∀ h, ∀ node ∈ t.callsHash h, (branches node.calls).Nodup
  limit : ∀ h, ∀ node ∈ t.callsHash h, node.calls.length ≤ max 1 sdpMultiplication
  counter : ∀ c, t.rtpIpPortCounter c =
    ∑ h ∈ Finset.range maxNode, (t.callsHash h).countP (fun node => c ∈ branches node.calls)

lemma bucketEntries_eq_countP {opt h : Nat} {nodes : List NodeCallRtpIpPort}
    (hb : BucketOk opt h nodes) (c : BranchId) :
    bucketEntries nodes c = nodes.countP (fun node => c ∈ branches node.calls) := by
  induction nodes with
  | nil => rfl
  | cons node nodes ih =>
    obtain ⟨-, -, hcalls, -, hrest⟩ := bucketOk_cons.mp hb
    rw [bucketEntries_cons, List.countP_cons, ih hrest, entries, hcalls.nodup.count, Nat.add_comm]
    simp

lemma TableInv.consistent {opt : Nat} {t : Table} (ht : TableInv opt t) : Consistent opt t where
  placed := fun h => (ht.buckets h).placed
  unique := fun h => (ht.buckets h).keys
  nonempty := fun h => (ht.buckets h).nonempty
  once := fun h node hnode => ((ht.buckets h).calls node hnode).nodup
  limit := fun h node hnode => ((ht.buckets h).calls node hnode).length_le
  counter := by
    intro c
    have hcount : ∀ h ∈ Finset.range maxNode, bucketEntries (t.callsHash h) c =
        (t.callsHash h).countP (fun node => c ∈ branches node.calls) :=
      fun h _ => bucketEntries_eq_countP (ht.buckets h) c
    rw [ht.counter c, tableEntries, Finset.sum_congr rfl hcount]

/-- The table stays consistent under every sequence of operations, and a branch that is removed
has no entry left. -/
theorem callsHash_consistent (sdpMultiplication : Nat) (acts : List HashAct) :
    Consistent sdpMultiplication (acts.foldl (hashStep sdpMultiplication) {}) ∧
      ∀ c, Absent (hashRemoveCall (acts.foldl (hashStep sdpMultiplication) {}) c).1 c := by
  have hinv := tableInv_run sdpMultiplication acts
  exact ⟨hinv.consistent, fun c => (hinv.hashRemoveCall c).2⟩

theorem Consistent.hashfindByIpPort {opt : Nat} {t : Table} (ht : Consistent opt t) (addr : VmIP)
    (port : VmPort) (calls : List NodeCallRtp) :
    hashfindByIpPort t addr port = some calls ↔
      ∃ h, ∃ node ∈ t.callsHash h, node.addr = addr ∧ node.port = port ∧ node.calls = calls := by
  unfold CallsHash.hashfindByIpPort
  constructor
  · intro hfind
    obtain ⟨node, hnode, rfl⟩ := Option.map_eq_some_iff.mp hfind
    have hkey := List.find?_some hnode
    simp only [decide_eq_true_eq] at hkey
    exact ⟨_, node, List.mem_of_find?_eq_some hnode, hkey.2, hkey.1, rfl⟩
  · rintro ⟨h, node, hnode, rfl, rfl, rfl⟩
    have hplaced := ht.placed h node hnode
    rw [hplaced]
    obtain ⟨found, hfound⟩ : ∃ found, (t.callsHash h).find?
        (fun k => decide (k.port = node.port ∧ k.addr = node.addr)) = some found := by
      rw [← Option.isSome_iff_exists, List.find?_isSome]
      exact ⟨node, hnode, by simp⟩
    have hkey := List.find?_some hfound
    simp only [decide_eq_true_eq] at hkey
    have heq : found = node := by
      apply List.inj_on_of_nodup_map (ht.unique h) (List.mem_of_find?_eq_some hfound) hnode
      simp [NodeCallRtpIpPort.key, hkey.1, hkey.2]
    rw [hfound, heq]
    rfl

end VoipMonitor.CallsHash
