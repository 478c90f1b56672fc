import VoipMonitor.Model.SdpPorts
import VoipMonitor.Proofs.CallsHashTable

/-!
# SDP addresses and their RTP entries

The table of a branch that is alone in it is a map from addresses and ports to calls. An entry
of `ip_port` that is not canceled is in the map, unless the step that moved or canceled another
entry has taken it away.
-/

namespace VoipMonitor.SdpPorts
open VoipMonitor.Library VoipMonitor.CallsHash

abbrev Key := VmIP × VmPort

/-! ## The table of one branch as a map -/

def bucketHeld (nodes : List NodeCallRtpIpPort) (k : Key) : Option NodeCallRtp :=
  (nodes.find? (fun node => node.port = k.2 ∧ node.addr = k.1)).bind (fun node => node.calls.head?)

def held (t : Table) (k : Key) : Option NodeCallRtp :=
  bucketHeld (t.callsHash (tuplehash k.1.getHashNumber k.2)) k

def addedCall (env : BranchId → BranchState) (e : Entry) : Option NodeCallRtp → NodeCallRtp
  | some n => if expired env e.timeS n.cBranch then e.nodeCall else { n with sdpFlags := e.sdpFlags }
  | none => e.nodeCall

def BucketSole (b : BranchId) (nodes : List NodeCallRtpIpPort) : Prop :=
  ∀ node ∈ nodes, ∃ n, node.calls = [n] ∧ n.cBranch = b

structure Sole (opt : Nat) (b : BranchId) (t : Table) : Prop where
  inv : TableInv opt t
  bucket : ∀ h, BucketSole b (t.callsHash h)

section Map
variable {opt : Nat} {b : BranchId} {t : Table}

lemma bucketHeld_cons (node : NodeCallRtpIpPort) (nodes : List NodeCallRtpIpPort) (k : Key) :
    bucketHeld (node :: nodes) k = if node.key = k then node.calls.head? else bucketHeld nodes k := by
  have hkey : node.key = k ↔ node.port = k.2 ∧ node.addr = k.1 := by
    rw [NodeCallRtpIpPort.key, Prod.ext_iff]
    exact and_comm
  unfold bucketHeld
  rw [List.find?_cons]
  by_cases h : node.key = k
  · simp [h, hkey.mp h]
  · have h' := mt hkey.mpr h
    simp [h, h']

lemma bucketHeld_eq_none {nodes : List NodeCallRtpIpPort} {k : Key}
    (h : k ∉ nodes.map NodeCallRtpIpPort.key) : bucketHeld nodes k = none := by
  induction nodes with
  | nil => rfl
  | cons node nodes ih =>
    rw [List.map_cons, List.mem_cons, not_or] at h
    rw [bucketHeld_cons, if_neg (Ne.symm h.1), ih h.2]

lemma bucketHeld_change_here (change : Option NodeCallRtp → Option NodeCallRtp) {key : Key}
    {node : NodeCallRtpIpPort} {calls : List NodeCallRtp} (nodes : List NodeCallRtpIpPort)
    (hkey : node.key = key) (hcalls : calls.head? = change node.calls.head?) (k : Key) :
    bucketHeld ({ node with calls := calls } :: nodes) k =
      if k = key then change (bucketHeld (node :: nodes) k) else bucketHeld (node :: nodes) k := by
  rw [bucketHeld_cons, bucketHeld_cons]
  change (if node.key = k then _ else _) = _
  by_cases hk : node.key = k
  · rw [if_pos hk, if_pos hk, if_pos (hk.symm.trans hkey), hcalls]
  · rw [if_neg hk, if_neg hk, if_neg (fun h => hk (hkey.trans h.symm))]

lemma bucketHeld_change_behind (change : Option NodeCallRtp → Option NodeCallRtp) {key : Key}
    {node : NodeCallRtpIpPort} {nodes nodes' : List NodeCallRtpIpPort} (hkey : node.key ≠ key)
    (hheld : ∀ k, bucketHeld nodes' k =
      if k = key then change (bucketHeld nodes k) else bucketHeld nodes k) (k : Key) :
    bucketHeld (node :: nodes') k =
      if k = key then change (bucketHeld (node :: nodes) k) else bucketHeld (node :: nodes) k := by
  rw [bucketHeld_cons, bucketHeld_cons, hheld]
  by_cases hk : node.key = k
  · rw [if_pos hk, if_pos hk, if_neg (fun h => hkey (hk.trans h))]
  · rw [if_neg hk, if_neg hk]

lemma addToCalls_one (opt : Nat) (env : BranchId → BranchState) (e : Entry) (n : Counters) (x : NodeCallRtp)
    (hx : x.cBranch = e.cBranch) :
    (addToCalls opt env e n [x]).1 = [addedCall env e (some x)] := by
  unfold addToCalls addedCall
  by_cases hexp : expired env e.timeS x.cBranch
  · simp [walkCalls, hexp, insertNodeCall, Nat.pos_iff_ne_zero]
  · rw [hx] at hexp
    simp [walkCalls, hexp, hx]

lemma addToBucket_held (env : BranchId → BranchState) (e : Entry) (n : Counters)
    {nodes : List NodeCallRtpIpPort} (hsole : BucketSole e.cBranch nodes)
    {r : List NodeCallRtpIpPort × Counters} (hr : addToBucket opt env e n nodes = some r) :
    BucketSole e.cBranch r.1 ∧ ∀ k, bucketHeld r.1 k =
      if k = (e.addr, e.port) then some (addedCall env e (bucketHeld nodes k))
      else bucketHeld nodes k := by
  induction nodes generalizing r with
  | nil => cases hr
  | cons node nodes ih =>
    obtain ⟨⟨x, hx, hxb⟩, hrest⟩ := List.forall_mem_cons.mp hsole
    have hnew : (addedCall env e (some x)).cBranch = e.cBranch := by
      unfold addedCall
      dsimp only
      split
      · rfl
      · exact hxb
    rw [addToBucket] at hr
    split at hr
    · rename_i hhere
      obtain rfl : _ = r := Option.some.inj hr
      have hcalls := addToCalls_one opt env e n x hxb
      rw [hx]
      rw [hcalls]
      refine ⟨List.forall_mem_cons.mpr ⟨⟨_, rfl, hnew⟩, hrest⟩, ?_⟩
      have hkey : node.key = (e.addr, e.port) := Prod.ext hhere.2 hhere.1
      apply bucketHeld_change_here (fun x => some (addedCall env e x)) nodes hkey
      rw [hx]
      rfl
    · rename_i hother
      obtain ⟨q, hq, rfl⟩ := Option.map_eq_some_iff.mp hr
      obtain ⟨hsole', hheld⟩ := ih hrest hq
      refine ⟨List.forall_mem_cons.mpr ⟨⟨x, hx, hxb⟩, hsole'⟩, ?_⟩
      apply bucketHeld_change_behind (fun x => some (addedCall env e x)) _ hheld
      exact fun h => hother ⟨congrArg Prod.snd h, congrArg Prod.fst h⟩

lemma held_setBucket (t : Table) (key : Key) (change : Option NodeCallRtp → Option NodeCallRtp)
    {nodes : List NodeCallRtpIpPort} (n : Counters)
    (hheld : ∀ k, bucketHeld nodes k =
      if k = key then change (bucketHeld (t.callsHash (tuplehash key.1.getHashNumber key.2)) k)
      else bucketHeld (t.callsHash (tuplehash key.1.getHashNumber key.2)) k) (k : Key) :
    held (t.setBucket (tuplehash key.1.getHashNumber key.2) nodes n) k =
      if k = key then change (held t k) else held t k := by
  rw [held]
  by_cases hk : tuplehash k.1.getHashNumber k.2 = tuplehash key.1.getHashNumber key.2
  · rw [hk, setBucket_self, hheld, ← hk]
    rfl
  · have hne : k ≠ key := fun h => hk (by rw [h])
    rw [setBucket_of_ne t hk, if_neg hne]
    rfl

lemma Sole.setBucket (hs : Sole opt b t) {h : Nat} {nodes : List NodeCallRtpIpPort} {n : Counters}
    (hinv : TableInv opt (t.setBucket h nodes n)) (hsole : BucketSole b nodes) :
    Sole opt b (t.setBucket h nodes n) := by
  refine ⟨hinv, fun k => ?_⟩
  by_cases hk : k = h
  · rw [hk, setBucket_self]
    exact hsole
  · rw [setBucket_of_ne t hk]
    exact hs.bucket k

lemma Sole.hashAdd {env : BranchId → BranchState} {e : Entry} (hs : Sole opt e.cBranch t)
    (henv : (env e.cBranch).endCallRtp = false) :
    Sole opt e.cBranch (hashAdd opt env t e) ∧ ∀ k, held (CallsHash.hashAdd opt env t e) k =
      if k = (e.addr, e.port) then some (addedCall env e (held t k)) else held t k := by
  have hinv := hs.inv.hashAdd env e
  unfold CallsHash.hashAdd at hinv ⊢
  rw [henv] at hinv ⊢
  rw [if_neg Bool.false_ne_true] at hinv ⊢
  dsimp only at hinv ⊢
  split at hinv
  · rename_i r hr
    obtain ⟨hsole, hheld⟩ := addToBucket_held env e _ (hs.bucket _) hr
    refine ⟨hs.setBucket hinv hsole, fun k => ?_⟩
    exact held_setBucket t (e.addr, e.port) (fun x => some (addedCall env e x)) _ hheld k
  · rename_i hnone
    have hnot := bucketHeld_eq_none (addToBucket_none env e _ hnone)
    refine ⟨hs.setBucket hinv ?_, fun k => ?_⟩
    · exact List.forall_mem_cons.mpr ⟨⟨e.nodeCall, rfl, rfl⟩, hs.bucket _⟩
    apply held_setBucket t (e.addr, e.port) (fun x => some (addedCall env e x))
    intro k
    rw [bucketHeld_cons]
    change (if (e.addr, e.port) = k then some e.nodeCall else _) = _
    by_cases hk : k = (e.addr, e.port)
    · rw [if_pos hk, if_pos hk.symm, hk, hnot]
      rfl
    · rw [if_neg hk, if_neg (Ne.symm hk)]

lemma removeFromBucket_held (r : Removal) (n : Counters) {nodes : List NodeCallRtpIpPort}
    (hsole : BucketSole b nodes) (hkeys : (nodes.map NodeCallRtpIpPort.key).Nodup) :
    BucketSole b (removeFromBucket r n nodes).1 ∧
      ∀ k, bucketHeld (removeFromBucket r n nodes).1 k =
        if k = (r.addr, r.port) then (bucketHeld nodes k).filter (fun x => !r.matches x)
        else bucketHeld nodes k := by
  induction nodes with
  | nil =>
    refine ⟨nofun, fun k => ?_⟩
    by_cases hk : k = (r.addr, r.port)
    · rw [if_pos hk]
      rfl
    · rw [if_neg hk]
      rfl
  | cons node nodes ih =>
    obtain ⟨⟨x, hx, hxb⟩, hrest⟩ := List.forall_mem_cons.mp hsole
    obtain ⟨hnew, hnodup⟩ := List.nodup_cons.mp hkeys
    rw [removeFromBucket]
    split
    · rename_i hhere
      have hkey : node.key = (r.addr, r.port) := Prod.ext hhere.2 hhere.1
      rw [hx]
      dsimp only
      by_cases hmatch : r.matches x
      · have hcalls : (removeFromCalls r n [x]).1 = [] := by rw [removeFromCalls, if_pos hmatch]
        rw [hcalls, if_pos rfl]
        refine ⟨hrest, fun k => ?_⟩
        rw [bucketHeld_cons]
        by_cases hk : k = (r.addr, r.port)
        · rw [if_pos hk, if_pos (hkey.trans hk.symm), hx, hk, ← hkey, bucketHeld_eq_none hnew,
            List.head?_cons, Option.filter_some, hmatch]
          rfl
        · rw [if_neg hk, if_neg (fun h => hk (h.symm.trans hkey))]
      · have hcalls : (removeFromCalls r n [x]).1 = [x] := by rw [removeFromCalls, if_neg hmatch]; rfl
        rw [hcalls, if_neg (List.cons_ne_nil _ _)]
        refine ⟨List.forall_mem_cons.mpr ⟨⟨x, rfl, hxb⟩, hrest⟩, ?_⟩
        apply bucketHeld_change_here (fun x => x.filter (fun y => !r.matches y)) nodes hkey
        rw [hx, List.head?_cons, Option.filter_some, Bool.eq_false_of_not_eq_true hmatch]
        rfl
    · rename_i hother
      obtain ⟨hsole', hheld⟩ := ih hrest hnodup
      refine ⟨List.forall_mem_cons.mpr ⟨⟨x, hx, hxb⟩, hsole'⟩, ?_⟩
      apply bucketHeld_change_behind (fun x => x.filter (fun y => !r.matches y)) _ hheld
      exact fun h => hother ⟨congrArg Prod.snd h, congrArg Prod.fst h⟩

lemma Sole.hashRemove (hs : Sole opt b t) (r : Removal) :
    Sole opt b (hashRemove t r).1 ∧ ∀ k, held (CallsHash.hashRemove t r).1 k =
      if k = (r.addr, r.port) then (held t k).filter (fun x => !r.matches x) else held t k := by
  obtain ⟨hsole, hheld⟩ := removeFromBucket_held r t.rtpIpPortCounter (hs.bucket _)
    (hs.inv.buckets (tuplehash r.addr.getHashNumber r.port)).keys
  refine ⟨hs.setBucket (hs.inv.hashRemove r) hsole, ?_⟩
  exact held_setBucket t (r.addr, r.port) (fun x => x.filter (fun y => !r.matches y)) _ hheld

lemma branches_flag (b : BranchId) (flags : SdpFlags) (calls : List NodeCallRtp) :
    branches (calls.map (fun nodeCall =>
      if nodeCall.cBranch = b then { nodeCall with sdpFlags := flags } else nodeCall)) =
      branches calls := by
  unfold branches
  rw [List.map_map]
  apply List.map_congr_left
  intro x _
  change NodeCallRtp.cBranch (if x.cBranch = b then _ else _) = _
  split <;> rfl

lemma flagBucket_keys (addr : VmIP) (port : VmPort) (flags : SdpFlags)
    (nodes : List NodeCallRtpIpPort) :
    (flagBucket b addr port flags nodes).map NodeCallRtpIpPort.key =
      nodes.map NodeCallRtpIpPort.key := by
  induction nodes with
  | nil => rfl
  | cons node nodes ih =>
    rw [flagBucket]
    split
    · rfl
    · rw [List.map_cons, List.map_cons, ih]

lemma flagBucket_spec {h : Nat} (addr : VmIP) (port : VmPort) (flags : SdpFlags)
    {nodes : List NodeCallRtpIpPort} (hb : BucketOk opt h nodes) (hsole : BucketSole b nodes) :
    BucketOk opt h (flagBucket b addr port flags nodes) ∧
      BucketSole b (flagBucket b addr port flags nodes) ∧
      bucketEntries (flagBucket b addr port flags nodes) = bucketEntries nodes ∧
      ∀ k, bucketHeld (flagBucket b addr port flags nodes) k =
        if k = (addr, port) then
          (bucketHeld nodes k).map (fun x => { x with sdpFlags := flags })
        else bucketHeld nodes k := by
  induction nodes with
  | nil =>
    refine ⟨bucketOk_nil, nofun, rfl, fun k => ?_⟩
    by_cases hk : k = (addr, port)
    · rw [if_pos hk]
      rfl
    · rw [if_neg hk]
      rfl
  | cons node nodes ih =>
    obtain ⟨hplaced, hne, hcalls, hkey, hok⟩ := bucketOk_cons.mp hb
    obtain ⟨⟨x, hx, hxb⟩, hrest⟩ := List.forall_mem_cons.mp hsole
    obtain ⟨hok', hsole', hentries, hheld⟩ := ih hok hrest
    have hbranches := branches_flag b flags node.calls
    rw [flagBucket]
    split
    · rename_i hhere
      have hnode : node.key = (addr, port) := Prod.ext hhere.2 hhere.1
      refine ⟨bucketOk_cons.mpr ⟨hplaced, ?_, ?_, hkey, hok⟩,
        List.forall_mem_cons.mpr ⟨?_, hrest⟩, ?_, ?_⟩
      · simpa using hne
      · exact hcalls.sublist (by rw [hbranches])
      · refine ⟨{ x with sdpFlags := flags }, ?_, hxb⟩
        simp [hx, hxb]
      · funext c
        rw [bucketEntries_cons, bucketEntries_cons]
        simp only [entries, hbranches]
      · apply bucketHeld_change_here (fun x => x.map (fun y => { y with sdpFlags := flags })) nodes
          hnode
        simp [hx, hxb]
    · rename_i hother
      refine ⟨bucketOk_cons.mpr ⟨hplaced, hne, hcalls, ?_, hok'⟩,
        List.forall_mem_cons.mpr ⟨⟨x, hx, hxb⟩, hsole'⟩, ?_, ?_⟩
      · rw [flagBucket_keys]
        exact hkey
      · funext c
        rw [bucketEntries_cons, bucketEntries_cons, hentries]
      · apply bucketHeld_change_behind (fun x => x.map (fun y => { y with sdpFlags := flags })) _
          hheld
        exact fun h => hother ⟨congrArg Prod.snd h, congrArg Prod.fst h⟩

lemma Sole.flagTable (hs : Sole opt b t) (addr : VmIP) (port : VmPort) (flags : SdpFlags) :
    Sole opt b (flagTable b addr port flags t) ∧
      ∀ k, held (SdpPorts.flagTable b addr port flags t) k =
        if k = (addr, port) then (held t k).map (fun x => { x with sdpFlags := flags })
        else held t k := by
  obtain ⟨hok, hsole, hentries, hheld⟩ := flagBucket_spec addr port flags
    (hs.inv.buckets (tuplehash addr.getHashNumber port)) (hs.bucket _)
  refine ⟨hs.setBucket (hs.inv.setBucket (tuplehash_lt _ _) hok ?_) hsole, ?_⟩
  · rw [hentries]
    exact Balanced.refl _ _
  exact held_setBucket t (addr, port) (fun x => x.map (fun y => { y with sdpFlags := flags })) _
    hheld

lemma bucketHeld_of_mem {h : Nat} {nodes : List NodeCallRtpIpPort} (hb : BucketOk opt h nodes)
    {node : NodeCallRtpIpPort} (hnode : node ∈ nodes) :
    bucketHeld nodes node.key = node.calls.head? := by
  induction nodes with
  | nil => cases hnode
  | cons first rest ih =>
    obtain ⟨-, -, -, hkey, hok⟩ := bucketOk_cons.mp hb
    rw [bucketHeld_cons]
    rcases List.mem_cons.mp hnode with rfl | hmem
    · rw [if_pos rfl]
    · rw [if_neg, ih hok hmem]
      intro heq
      exact hkey (heq ▸ List.mem_map_of_mem hmem)

lemma bucketHeld_some {nodes : List NodeCallRtpIpPort} (hsole : BucketSole b nodes) {k : Key}
    {x : NodeCallRtp} (h : bucketHeld nodes k = some x) :
    x.cBranch = b ∧ ∃ node ∈ nodes, node.key = k ∧ node.calls = [x] := by
  induction nodes with
  | nil => cases h
  | cons node nodes ih =>
    obtain ⟨⟨y, hy, hyb⟩, hrest⟩ := List.forall_mem_cons.mp hsole
    rw [bucketHeld_cons] at h
    split at h
    · rename_i hk
      rw [hy] at h
      obtain rfl : y = x := Option.some.inj h
      exact ⟨hyb, node, List.mem_cons_self, hk, hy⟩
    · obtain ⟨hxb, node', hmem, hk⟩ := ih hrest h
      exact ⟨hxb, node', List.mem_cons_of_mem _ hmem, hk⟩

lemma Sole.held_node (hs : Sole opt b t) {h : Nat} {node : NodeCallRtpIpPort}
    (hnode : node ∈ t.callsHash h) : held t node.key = node.calls.head? := by
  have hb := hs.inv.buckets h
  rw [held, show tuplehash node.key.1.getHashNumber node.key.2 = h from hb.placed node hnode]
  exact bucketHeld_of_mem hb hnode

lemma Sole.held_some (hs : Sole opt b t) {k : Key} {x : NodeCallRtp} (h : held t k = some x) :
    x.cBranch = b ∧ hashfindByIpPort t k.1 k.2 = some [x] := by
  obtain ⟨hxb, node, hnode, rfl, hcalls⟩ := bucketHeld_some (hs.bucket _) h
  exact ⟨hxb, (hs.inv.consistent.hashfindByIpPort _ _ _).mpr ⟨_, node, hnode, rfl, rfl, hcalls⟩⟩

end Map

/-! ## What a step takes from the table -/

def IpPortCallInfo.key (e : IpPortCallInfo) : Key := (e.addr, e.port)

def IpPortCallInfo.rtcpKey (e : IpPortCallInfo) : Key := (e.addr, e.port + 1)

def Offer.key (o : Offer) : Key := (o.addr, o.port)

def Offer.rtcpKey (o : Offer) : Key := (o.addr, o.port + 1)

def Offer.addsRtcp (o : Offer) : Prop :=
  o.sdpFlags.rtcpMux = false ∧ SdpFlags.isApplication o.sdpFlags = false

instance (o : Offer) : Decidable o.addsRtcp := inferInstanceAs (Decidable (_ ∧ _))

def IsRtcpCall (x : NodeCallRtp) : Prop := x.isRtcp ≠ 0 ∨ x.sdpFlags.rtcpMux = false

/-- A move takes the old port and adds the new one, then takes the old RTCP port, which may be
the new port. -/
def MoveRemoves (t : Table) (env : BranchId → BranchState) (e : IpPortCallInfo) (o : Offer)
    (k : Key) : Prop :=
  k = e.key ∧ k ≠ o.key ∨
    k = e.rtcpKey ∧ k ≠ o.key ∧ (∃ x, held t k = some x ∧ IsRtcpCall x) ∨
    k = e.rtcpKey ∧ k = o.key ∧ (o.sdpFlags.rtcpMux = false ∨
      ∃ x, held t k = some x ∧ expired env o.timeS x.cBranch = false ∧ x.isRtcp ≠ 0)

def MoveTakes (t : Table) (env : BranchId → BranchState) (e : IpPortCallInfo) (o : Offer)
    (k : Key) : Prop :=
  MoveRemoves t env e o k ∧ ¬(o.addsRtcp ∧ k = o.rtcpKey)

def CancelTakes (t : Table) (e : IpPortCallInfo) (k : Key) : Prop :=
  k = e.key ∨ k = e.rtcpKey ∧ ∃ x, held t k = some x ∧ IsRtcpCall x

def Offer.moved (o : Offer) (e : IpPortCallInfo) : IpPortCallInfo :=
  { e with addr := o.addr, port := o.port, iscaller := Int.bmod o.iscaller (2 ^ 8) }

def Spares (b : BranchId) (s : SdpState) : SdpAct → Prop
  | .addIpPortHash env o => (env b).endCallRtp = false ∧
      ∀ i e, o.sessidIndex s = some i → s.ipPort[i]? = some e → o.moves e = true →
        ∀ x ∈ s.ipPort.set i (o.moved e), x.canceled = false → ¬MoveTakes s.table env e o x.key
  | .cancelIpPortHash c => ∀ e ∈ s.ipPort, c.matches e = true →
      ∀ x ∈ s.ipPort, x.canceled = false → c.matches x = false → ¬CancelTakes s.table e x.key

def Owned (ipPort : List IpPortCallInfo) (k : Key) (isRtcp : Nat) : Prop :=
  ∃ e ∈ ipPort, k = if isRtcp = 0 then e.key else e.rtcpKey

structure SdpInv (opt : Nat) (b : BranchId) (s : SdpState) : Prop where
  sole : Sole opt b s.table
  owned : ∀ k x, held s.table k = some x → Owned s.ipPort k x.isRtcp
  found : ∀ e ∈ s.ipPort, e.canceled = false → (held s.table e.key).isSome

section Steps
variable {opt : Nat} {b : BranchId} {t : Table}

lemma port_ne (p : VmPort) : p + 1 ≠ p := by
  intro h
  have := congrArg UInt16.toNat h
  rw [UInt16.toNat_add, UInt16.toNat_one] at this
  omega

lemma Sole.isSome_hashAdd {env : BranchId → BranchState} {e : Entry} (hs : Sole opt e.cBranch t)
    (henv : (env e.cBranch).endCallRtp = false) (k : Key) :
    (held (CallsHash.hashAdd opt env t e) k).isSome ↔ k = (e.addr, e.port) ∨ (held t k).isSome := by
  rw [(hs.hashAdd henv).2]
  by_cases hk : k = (e.addr, e.port)
  · simp [hk]
  · simp [hk]

lemma matches_rtp {x : NodeCallRtp} (hx : x.cBranch = b) (addr : VmIP) (port : VmPort) :
    Removal.matches { cBranch := b, addr := addr, port := port } x = true := by
  simp [Removal.matches, hx]

lemma matches_rtcp {x : NodeCallRtp} (hx : x.cBranch = b) (addr : VmIP) (port : VmPort) :
    Removal.matches { cBranch := b, addr := addr, port := port, rtcp := true } x = true ↔
      IsRtcpCall x := by
  simp [Removal.matches, hx, IsRtcpCall]

lemma Sole.held_removeRtp (hs : Sole opt b t) (addr : VmIP) (port : VmPort) (k : Key) :
    held (CallsHash.hashRemove t { cBranch := b, addr := addr, port := port }).1 k =
      if k = (addr, port) then none else held t k := by
  rw [(hs.hashRemove _).2]
  by_cases hk : k = (addr, port)
  · rw [if_pos hk, if_pos hk, Option.filter_eq_none_iff]
    intro x hx
    rw [matches_rtp (hs.held_some hx).1]
    simp
  · rw [if_neg hk, if_neg hk]

lemma Sole.held_removeRtcp (hs : Sole opt b t) (addr : VmIP) (port : VmPort) (k : Key)
    (x : NodeCallRtp) :
    held (CallsHash.hashRemove t { cBranch := b, addr := addr, port := port, rtcp := true }).1 k =
      some x ↔ held t k = some x ∧ ¬(k = (addr, port) ∧ IsRtcpCall x) := by
  rw [(hs.hashRemove _).2]
  by_cases hk : k = (addr, port)
  · rw [if_pos hk, Option.filter_eq_some_iff]
    apply and_congr_right
    intro hx
    have := matches_rtcp (hs.held_some hx).1 addr port
    simp only [hk, true_and, ← this]
    simp
  · rw [if_neg hk]
    simp [hk]

lemma Sole.owned_hashAdd {env : BranchId → BranchState} {e : Entry} (hs : Sole opt e.cBranch t)
    (henv : (env e.cBranch).endCallRtp = false) (own : Key → Nat → Prop)
    (hown : ∀ k x, held t k = some x → own k x.isRtcp)
    (hnew : own (e.addr, e.port) e.nodeCall.isRtcp) (k : Key) (x : NodeCallRtp)
    (hx : held (CallsHash.hashAdd opt env t e) k = some x) : own k x.isRtcp := by
  rw [(hs.hashAdd henv).2] at hx
  split at hx
  · rename_i hk
    obtain rfl : _ = x := Option.some.inj hx
    rw [hk]
    cases hheld : held t (e.addr, e.port) with
    | none => exact hnew
    | some y =>
      unfold addedCall
      dsimp only
      split
      · exact hnew
      · exact hown _ y hheld
  · exact hown k x hx

lemma mem_set_or {α : Type} {l : List α} {i : Nat} {a x : α} (y : α) (hi : l[i]? = some a)
    (hx : x ∈ l) : x = a ∨ x ∈ l.set i y := by
  obtain ⟨j, hj, rfl⟩ := List.getElem_of_mem hx
  by_cases hij : i = j
  · left
    rw [hij, List.getElem?_eq_getElem hj] at hi
    exact Option.some.inj hi
  · right
    have hlt : j < (l.set i y).length := by rwa [List.length_set]
    have heq : (l.set i y)[j] = l[j] := List.getElem_set_ne hij hlt
    rw [← heq]
    exact List.getElem_mem hlt

section Move
variable (cfg : SdpConfig) {env : BranchId → BranchState} (e : IpPortCallInfo) (o : Offer)

def moveRtp (cfg : SdpConfig) (b : BranchId) (env : BranchId → BranchState) (t : Table)
    (e : IpPortCallInfo) (o : Offer) : Table :=
  hashAdd cfg.sdpMultiplication env
    (hashRemove t { cBranch := b, addr := e.addr, port := e.port }).1 (o.rtpEntry b)

lemma moveEntries_eq (hrtcp : cfg.optRtcp = true) :
    moveEntries cfg b env t e o =
      let t := (hashRemove (moveRtp cfg b env t e o)
        { cBranch := b, addr := e.addr, port := e.port + 1, rtcp := true }).1
      if o.addsRtcp then hashAdd cfg.sdpMultiplication env t (o.rtcpEntry b) else t := by
  have hadds : (!o.sdpFlags.rtcpMux && !SdpFlags.isApplication o.sdpFlags) = decide o.addsRtcp := by
    rw [Bool.eq_iff_iff, decide_eq_true_iff, Bool.and_eq_true, Bool.not_eq_true',
      Bool.not_eq_true']
    rfl
  rw [moveEntries, if_pos hrtcp, hadds]
  simp only [decide_eq_true_eq, moveRtp]

lemma Sole.moveRtp (hs : Sole cfg.sdpMultiplication b t) (henv : (env b).endCallRtp = false) :
    Sole cfg.sdpMultiplication b (moveRtp cfg b env t e o) :=
  (Sole.hashAdd (e := o.rtpEntry b) (hs.hashRemove _).1 henv).1

lemma Sole.held_moveRtp (hs : Sole cfg.sdpMultiplication b t) (henv : (env b).endCallRtp = false)
    (k : Key) : held (SdpPorts.moveRtp cfg b env t e o) k =
      if k = o.key then
        some (addedCall env (o.rtpEntry b) (if k = e.key then none else held t k))
      else if k = e.key then none else held t k := by
  have h := (Sole.hashAdd (e := o.rtpEntry b)
    (hs.hashRemove { cBranch := b, addr := e.addr, port := e.port }).1 henv).2 k
  rw [hs.held_removeRtp] at h
  exact h

lemma Sole.moveEntries (hs : Sole cfg.sdpMultiplication b t) (henv : (env b).endCallRtp = false)
    (hrtcp : cfg.optRtcp = true) : Sole cfg.sdpMultiplication b (moveEntries cfg b env t e o) := by
  rw [moveEntries_eq cfg e o hrtcp]
  have hs' := ((hs.moveRtp cfg e o henv).hashRemove
    { cBranch := b, addr := e.addr, port := e.port + 1, rtcp := true }).1
  split
  · exact (Sole.hashAdd (e := o.rtcpEntry b) hs' henv).1
  · exact hs'

lemma isRtcpCall_addedCall (m : Option NodeCallRtp) :
    IsRtcpCall (addedCall env (o.rtpEntry b) m) ↔ o.sdpFlags.rtcpMux = false ∨
      ∃ x, m = some x ∧ expired env o.timeS x.cBranch = false ∧ x.isRtcp ≠ 0 := by
  cases m with
  | none => simp [addedCall, IsRtcpCall, Entry.nodeCall, Offer.rtpEntry]
  | some x =>
    by_cases hexp : expired env o.timeS x.cBranch = true
    · simp [addedCall, IsRtcpCall, Entry.nodeCall, Offer.rtpEntry, hexp]
    · simp [addedCall, IsRtcpCall, Offer.rtpEntry, hexp, or_comm]

lemma IpPortCallInfo.rtcpKey_ne : e.rtcpKey ≠ e.key := by
  intro h
  exact port_ne e.port (congrArg Prod.snd h)

lemma Sole.isSome_removeRtcp (hs : Sole opt b t) (k : Key) :
    (held (CallsHash.hashRemove t
        { cBranch := b, addr := e.addr, port := e.port + 1, rtcp := true }).1 k).isSome ↔
      ∃ x, held t k = some x ∧ ¬(k = e.rtcpKey ∧ IsRtcpCall x) := by
  rw [Option.isSome_iff_exists]
  exact exists_congr (hs.held_removeRtcp _ _ k)

lemma Sole.isSome_moved (hs : Sole cfg.sdpMultiplication b t)
    (henv : (env b).endCallRtp = false) (k : Key) :
    (∃ x, held (SdpPorts.moveRtp cfg b env t e o) k = some x ∧ ¬(k = e.rtcpKey ∧ IsRtcpCall x)) ↔
      ((held t k).isSome ∨ k = o.key) ∧ ¬MoveRemoves t env e o k := by
  have hne := e.rtcpKey_ne
  rw [hs.held_moveRtp cfg e o henv]
  unfold MoveRemoves
  by_cases hnew : k = o.key
  · by_cases hold : k = e.rtcpKey
    · have hkey : k ≠ e.key := fun h => hne (hold.symm.trans h)
      simp only [ne_eq, eq_true hnew, eq_true hold, eq_false hkey]
      simp [isRtcpCall_addedCall]
    · simp only [ne_eq, eq_true hnew, eq_false hold]
      simp
  · by_cases hkey : k = e.key
    · simp only [ne_eq, eq_false hnew, eq_true hkey]
      simp
    · by_cases hold : k = e.rtcpKey
      · simp only [ne_eq, eq_false hnew, eq_false hkey, eq_true hold, Option.isSome_iff_exists]
        cases held t k <;> simp
      · simp only [ne_eq, eq_false hnew, eq_false hkey, eq_false hold, Option.isSome_iff_exists]
        simp

lemma Sole.isSome_moveEntries (hs : Sole cfg.sdpMultiplication b t)
    (henv : (env b).endCallRtp = false) (hrtcp : cfg.optRtcp = true) (k : Key) :
    (held (SdpPorts.moveEntries cfg b env t e o) k).isSome ↔
      ((held t k).isSome ∨ k = o.key ∨ o.addsRtcp ∧ k = o.rtcpKey) ∧ ¬MoveTakes t env e o k := by
  have hs2 := hs.moveRtp cfg e o henv
  have hmoved := (hs2.isSome_removeRtcp e k).trans (hs.isSome_moved cfg e o henv k)
  have hs3 := (hs2.hashRemove
    { cBranch := b, addr := e.addr, port := e.port + 1, rtcp := true }).1
  rw [moveEntries_eq cfg e o hrtcp]
  unfold MoveTakes
  split
  · rename_i hadds
    rw [Sole.isSome_hashAdd (e := o.rtcpEntry b) hs3 henv, hmoved]
    change k = o.rtcpKey ∨ _ ↔ _
    by_cases hk : k = o.rtcpKey
    · simp only [eq_true hk, eq_true hadds, true_or, true_and, or_true, not_true_eq_false, and_false,
        not_false_eq_true]
    · simp only [eq_false hk, false_or, and_false, or_false, not_false_eq_true, and_true]
  · rename_i hadds
    rw [hmoved]
    simp only [hadds, false_and, or_false, not_false_eq_true, and_true]

lemma Sole.owned_moveEntries (hs : Sole cfg.sdpMultiplication b t)
    (henv : (env b).endCallRtp = false) (hrtcp : cfg.optRtcp = true)
    {ipPort ipPort' : List IpPortCallInfo} (hsub : ∀ x ∈ ipPort, x = e ∨ x ∈ ipPort')
    (hnew : o.moved e ∈ ipPort') (hown : ∀ k x, held t k = some x → Owned ipPort k x.isRtcp)
    (k : Key) (x : NodeCallRtp) (hx : held (SdpPorts.moveEntries cfg b env t e o) k = some x) :
    Owned ipPort' k x.isRtcp := by
  have hs1 := (hs.hashRemove { cBranch := b, addr := e.addr, port := e.port }).1
  have hs2 := hs.moveRtp cfg e o henv
  have hs3 := (hs2.hashRemove
    { cBranch := b, addr := e.addr, port := e.port + 1, rtcp := true }).1
  -- between the two removals the old RTCP port may still be there
  have h1 : ∀ k x, held (CallsHash.hashRemove t { cBranch := b, addr := e.addr, port := e.port }).1 k =
      some x → Owned ipPort' k x.isRtcp ∨ x.isRtcp ≠ 0 ∧ k = e.rtcpKey := by
    intro k x hx
    rw [hs.held_removeRtp] at hx
    split at hx
    · cases hx
    rename_i hk
    obtain ⟨a, ha, hka⟩ := hown k x hx
    rcases hsub a ha with rfl | ha'
    · by_cases hr : x.isRtcp = 0
      · rw [if_pos hr] at hka
        exact absurd hka hk
      · rw [if_neg hr] at hka
        exact Or.inr ⟨hr, hka⟩
    · exact Or.inl ⟨a, ha', hka⟩
  have h2 := Sole.owned_hashAdd (e := o.rtpEntry b) hs1 henv
    (fun k r => Owned ipPort' k r ∨ r ≠ 0 ∧ k = e.rtcpKey) h1
    (Or.inl ⟨_, hnew, rfl⟩)
  have h3 : ∀ k x, held (CallsHash.hashRemove (SdpPorts.moveRtp cfg b env t e o)
      { cBranch := b, addr := e.addr, port := e.port + 1, rtcp := true }).1 k = some x →
      Owned ipPort' k x.isRtcp := by
    intro k x hx
    obtain ⟨hx, hleft⟩ := (hs2.held_removeRtcp _ _ k x).mp hx
    rcases h2 k x hx with h | ⟨hr, hk⟩
    · exact h
    · exact absurd ⟨hk, Or.inl hr⟩ hleft
  rw [moveEntries_eq cfg e o hrtcp] at hx
  split at hx
  · exact Sole.owned_hashAdd (e := o.rtcpEntry b) hs3 henv (Owned ipPort') h3 ⟨_, hnew, rfl⟩ k x hx
  · exact h3 k x hx

end Move

/-! ## Steps -/

section Inv
variable {cfg : SdpConfig} {s s' : SdpState}

lemma owned_mono {ipPort ipPort' : List IpPortCallInfo}
    (h : ∀ x ∈ ipPort, ∃ y ∈ ipPort', y.key = x.key) {k : Key} {r : Nat} (hown : Owned ipPort k r) :
    Owned ipPort' k r := by
  obtain ⟨x, hx, hk⟩ := hown
  obtain ⟨y, hy, hkey⟩ := h x hx
  obtain ⟨haddr, hport⟩ := Prod.mk.inj hkey
  refine ⟨y, hy, ?_⟩
  rw [hk, IpPortCallInfo.key, IpPortCallInfo.rtcpKey, IpPortCallInfo.key, IpPortCallInfo.rtcpKey,
    haddr, hport]

lemma refreshDataIpPort_spec {o : Offer} (hs : Sole opt b s.table)
    (h : refreshDataIpPort b s o = some s') :
    Sole opt b s'.table ∧
      (∀ k x, held s'.table k = some x → ∃ y, held s.table k = some y ∧ y.isRtcp = x.isRtcp) ∧
      (∀ k, (held s'.table k).isSome = (held s.table k).isSome) ∧
      (∀ x ∈ s.ipPort, ∃ y ∈ s'.ipPort, y.key = x.key) ∧
      (∀ y ∈ s'.ipPort, ∃ x ∈ s.ipPort, y.key = x.key ∧ y.canceled = x.canceled) ∧
      ∃ y ∈ s'.ipPort, y.key = o.key := by
  unfold refreshDataIpPort at h
  split at h
  · cases h
  rename_i i hfind
  split at h
  · cases h
  rename_i e hi
  have hkey : e.key = o.key := by
    obtain ⟨hlt, hp, -⟩ := List.findIdx?_eq_some_iff_getElem.mp hfind
    rw [List.getElem?_eq_getElem hlt] at hi
    rw [Option.some.inj hi] at hp
    simp only [Bool.and_eq_true, decide_eq_true_eq] at hp
    exact Prod.ext hp.1 hp.2
  have hmem : e ∈ s.ipPort := List.mem_of_getElem? hi
  split at h
  · obtain rfl : _ = s' := Option.some.inj h
    generalize hflags : (if SdpFlags.isImage e.sdpFlags = true then
      { o.sdpFlags with mediaType := o.sdpFlags.mediaType ||| 2 } else o.sdpFlags) = flags
    obtain ⟨hs', hheld⟩ := hs.flagTable o.addr o.port flags
    have hnew : { e with sdpFlags := flags } ∈ s.ipPort.set i { e with sdpFlags := flags } :=
      List.mem_set (List.getElem?_eq_some_iff.mp hi).1 _
    refine ⟨hs', ?_, ?_, ?_, ?_, ⟨_, hnew, hkey⟩⟩
    · intro k x hx
      rw [hheld] at hx
      split at hx
      · obtain ⟨y, hy, rfl⟩ := Option.map_eq_some_iff.mp hx
        exact ⟨y, hy, rfl⟩
      · exact ⟨x, hx, rfl⟩
    · intro k
      rw [hheld]
      split
      · rw [Option.isSome_map]
      · rfl
    · intro x hx
      rcases mem_set_or { e with sdpFlags := flags } hi hx with rfl | hx'
      · exact ⟨_, hnew, rfl⟩
      · exact ⟨x, hx', rfl⟩
    · intro y hy
      rcases List.mem_or_eq_of_mem_set hy with hy | rfl
      · exact ⟨y, hy, rfl, rfl⟩
      · exact ⟨e, hmem, rfl, rfl⟩
  · obtain rfl : s = s' := Option.some.inj h
    exact ⟨hs, fun k x hx => ⟨x, hx, rfl⟩, fun _ => rfl, fun x hx => ⟨x, hx, rfl⟩,
      fun y hy => ⟨y, hy, rfl, rfl⟩, e, hmem, hkey⟩

lemma SdpInv.refresh {o : Offer} (hinv : SdpInv opt b s) (h : refreshDataIpPort b s o = some s') :
    SdpInv opt b s' := by
  obtain ⟨hs, hcalls, hsome, hkeys, hkeys', -⟩ := refreshDataIpPort_spec hinv.sole h
  refine ⟨hs, ?_, ?_⟩
  · intro k x hx
    obtain ⟨y, hy, hr⟩ := hcalls k x hx
    rw [← hr]
    exact owned_mono hkeys (hinv.owned k y hy)
  · intro y hy hcanceled
    obtain ⟨x, hx, hkey, hcancel⟩ := hkeys' y hy
    rw [hkey, hsome]
    exact hinv.found x hx (hcancel ▸ hcanceled)

structure Offered (opt : Nat) (b : BranchId) (s : SdpState) (o : Offer) : Prop where
  sole : Sole opt b s.table
  owned : ∀ k x, held s.table k = some x → Owned s.ipPort k x.isRtcp
  found : ∀ e ∈ s.ipPort, e.canceled = false → e.key = o.key ∨ (held s.table e.key).isSome
  offered : ∃ e ∈ s.ipPort, e.key = o.key

lemma SdpInv.addIpPort {o : Offer} (hinv : SdpInv opt b s) (h : addIpPort b s o = some s') :
    Offered opt b s' o := by
  unfold SdpPorts.addIpPort at h
  split at h
  · rename_i r hr
    obtain rfl : r = s' := Option.some.inj h
    have hinv' := hinv.refresh hr
    obtain ⟨-, -, -, -, -, hoffered⟩ := refreshDataIpPort_spec hinv.sole hr
    exact ⟨hinv'.sole, hinv'.owned, fun e he hc => Or.inr (hinv'.found e he hc), hoffered⟩
  · split at h
    · cases h
    · obtain rfl : _ = s' := Option.some.inj h
      refine ⟨hinv.sole, ?_, ?_, ⟨o.ipPortCallInfo, by simp, rfl⟩⟩
      · intro k x hx
        exact owned_mono (fun y hy => ⟨y, List.mem_append_left _ hy, rfl⟩) (hinv.owned k x hx)
      · intro e he hcanceled
        rcases List.mem_append.mp he with he | he
        · exact Or.inr (hinv.found e he hcanceled)
        · obtain rfl := List.mem_singleton.mp he
          exact Or.inl rfl

lemma SdpInv.hashAdd {env : BranchId → BranchState} {e : Entry} (hinv : SdpInv opt e.cBranch s)
    (henv : (env e.cBranch).endCallRtp = false)
    (hown : Owned s.ipPort (e.addr, e.port) e.nodeCall.isRtcp) :
    SdpInv opt e.cBranch { s with table := CallsHash.hashAdd opt env s.table e } := by
  refine ⟨(hinv.sole.hashAdd henv).1, hinv.sole.owned_hashAdd henv _ hinv.owned hown, ?_⟩
  intro x hx hcanceled
  exact (hinv.sole.isSome_hashAdd henv _).mpr (Or.inr (hinv.found x hx hcanceled))

lemma Offered.hashAdd {env : BranchId → BranchState} {o : Offer} (h : Offered opt b s o)
    (henv : (env b).endCallRtp = false) :
    SdpInv opt b { s with table := CallsHash.hashAdd opt env s.table (o.rtpEntry b) } := by
  obtain ⟨a, ha, hkey⟩ := h.offered
  refine ⟨(Sole.hashAdd (e := o.rtpEntry b) h.sole henv).1, ?_, ?_⟩
  · exact Sole.owned_hashAdd (e := o.rtpEntry b) h.sole henv _ h.owned ⟨a, ha, hkey.symm⟩
  · intro x hx hcanceled
    exact (Sole.isSome_hashAdd (e := o.rtpEntry b) h.sole henv _).mpr (h.found x hx hcanceled)

lemma SdpInv.moveIpPort {env : BranchId → BranchState} {o : Offer} {i : Nat}
    (hinv : SdpInv cfg.sdpMultiplication b s) (henv : (env b).endCallRtp = false)
    (hrtcp : cfg.optRtcp = true)
    (hspares : ∀ e, s.ipPort[i]? = some e → o.moves e = true →
      ∀ x ∈ s.ipPort.set i (o.moved e), x.canceled = false → ¬MoveTakes s.table env e o x.key) :
    SdpInv cfg.sdpMultiplication b (moveIpPort cfg b env s i o) := by
  unfold SdpPorts.moveIpPort
  split
  · exact hinv
  rename_i e hi
  split
  · rename_i hmoves
    have hnew : o.moved e ∈ s.ipPort.set i (o.moved e) :=
      List.mem_set (List.getElem?_eq_some_iff.mp hi).1 _
    refine ⟨hinv.sole.moveEntries cfg e o henv hrtcp, ?_, ?_⟩
    · exact hinv.sole.owned_moveEntries cfg e o henv hrtcp
        (fun x hx => mem_set_or (o.moved e) hi hx) hnew hinv.owned
    · intro x hx hcanceled
      refine (hinv.sole.isSome_moveEntries cfg e o henv hrtcp x.key).mpr
        ⟨?_, hspares e hi hmoves x hx hcanceled⟩
      rcases List.mem_or_eq_of_mem_set hx with hx | rfl
      · exact Or.inl (hinv.found x hx hcanceled)
      · exact Or.inr (Or.inl rfl)
  · exact hinv

lemma SdpInv.addIpPortHash {env : BranchId → BranchState} {o : Offer}
    (hinv : SdpInv cfg.sdpMultiplication b s) (hrtcp : cfg.optRtcp = true)
    (hspares : Spares b s (.addIpPortHash env o)) :
    SdpInv cfg.sdpMultiplication b (addIpPortHash cfg b env s o) := by
  obtain ⟨henv, hspares⟩ := hspares
  unfold SdpPorts.addIpPortHash
  rw [henv, if_neg Bool.false_ne_true]
  split
  · rename_i i hindex
    have hmoved := hinv.moveIpPort henv hrtcp (hspares i · hindex)
    dsimp only
    cases hr : refreshDataIpPort b (SdpPorts.moveIpPort cfg b env s i o) o with
    | none => exact hmoved
    | some r => exact hmoved.refresh hr
  · split
    · exact hinv
    · rename_i r hr
      have hoffered := hinv.addIpPort hr
      have hadded := hoffered.hashAdd henv
      obtain ⟨a, ha, hkey⟩ := hoffered.offered
      split
      · refine SdpInv.hashAdd (e := o.rtcpEntry b) hadded henv ⟨a, ha, ?_⟩
        obtain ⟨haddr, hport⟩ := Prod.mk.inj hkey
        exact Prod.ext haddr.symm (congrArg (· + 1) hport.symm)
      · exact hadded

lemma cancelEntry_spec (e : IpPortCallInfo) (hs : Sole opt b t) (hrtcp : cfg.optRtcp = true) :
    Sole opt b (cancelEntry cfg b t e) ∧ ∀ k x, held (cancelEntry cfg b t e) k = some x ↔
      held t k = some x ∧ ¬(k = e.key ∨ k = e.rtcpKey ∧ IsRtcpCall x) := by
  rw [cancelEntry, if_pos hrtcp]
  have hs1 := (hs.hashRemove { cBranch := b, addr := e.addr, port := e.port }).1
  refine ⟨(hs1.hashRemove _).1, ?_⟩
  intro k x
  rw [hs1.held_removeRtcp, hs.held_removeRtp]
  change _ ↔ _ ∧ ¬(k = (e.addr, e.port) ∨ k = (e.addr, e.port + 1) ∧ _)
  by_cases hk : k = (e.addr, e.port)
  · simp [hk]
  · simp [hk]

def Cancel.mark (c : Cancel) (e : IpPortCallInfo) : IpPortCallInfo :=
  if c.matches e then { e with canceled := true } else e

lemma cancelLoop_spec (c : Cancel) (hrtcp : cfg.optRtcp = true) (entries : List IpPortCallInfo)
    (hs : Sole opt b t) :
    Sole opt b (cancelLoop cfg b c t entries).1 ∧
      (cancelLoop cfg b c t entries).2 = entries.map c.mark ∧
      ∀ k x, held (cancelLoop cfg b c t entries).1 k = some x ↔ held t k = some x ∧
        ∀ e ∈ entries, c.matches e = true → ¬(k = e.key ∨ k = e.rtcpKey ∧ IsRtcpCall x) := by
  induction entries generalizing t with
  | nil => exact ⟨hs, rfl, by simp [cancelLoop]⟩
  | cons e entries ih =>
    rw [cancelLoop]
    split
    · rename_i hmatch
      obtain ⟨hs', hheld⟩ := cancelEntry_spec e hs hrtcp
      obtain ⟨hs'', hmap, hheld'⟩ := ih hs'
      dsimp only
      refine ⟨hs'', ?_, ?_⟩
      · rw [hmap, List.map_cons, Cancel.mark, if_pos hmatch]
      · intro k x
        rw [hheld', hheld, List.forall_mem_cons]
        simp only [hmatch, true_implies, and_assoc]
    · rename_i hmatch
      obtain ⟨hs', hmap, hheld⟩ := ih hs
      dsimp only
      refine ⟨hs', ?_, ?_⟩
      · rw [hmap, List.map_cons, Cancel.mark, if_neg hmatch]
      · intro k x
        rw [hheld, List.forall_mem_cons]
        simp only [hmatch, false_implies, true_and, Bool.false_eq_true]

lemma Cancel.key_mark (c : Cancel) (e : IpPortCallInfo) : (c.mark e).key = e.key := by
  unfold mark
  split <;> rfl

lemma SdpInv.cancelIpPortHash {c : Cancel} (hinv : SdpInv opt b s) (hrtcp : cfg.optRtcp = true)
    (hspares : Spares b s (.cancelIpPortHash c)) : SdpInv opt b (cancelIpPortHash cfg b s c) := by
  obtain ⟨hs, hmap, hheld⟩ := cancelLoop_spec c hrtcp s.ipPort hinv.sole
  unfold SdpPorts.cancelIpPortHash
  dsimp only
  rw [hmap]
  refine ⟨hs, ?_, ?_⟩
  · intro k x hx
    refine owned_mono ?_ (hinv.owned k x ((hheld k x).mp hx).1)
    exact fun e he => ⟨c.mark e, List.mem_map_of_mem he, c.key_mark e⟩
  · intro y hy hcanceled
    obtain ⟨e, he, rfl⟩ := List.mem_map.mp hy
    rw [Cancel.key_mark]
    unfold Cancel.mark at hcanceled
    split at hcanceled
    · cases hcanceled
    rename_i hmatch
    obtain ⟨x, hx⟩ := Option.isSome_iff_exists.mp (hinv.found e he hcanceled)
    rw [Option.isSome_iff_exists]
    refine ⟨x, (hheld _ x).mpr ⟨hx, ?_⟩⟩
    intro e' he' hmatch'
    have hnot := hspares e' he' hmatch' e he hcanceled (Bool.eq_false_of_not_eq_true hmatch)
    rintro (hk | ⟨hk, hr⟩)
    · exact hnot (Or.inl hk)
    · exact hnot (Or.inr ⟨hk, x, hx, hr⟩)

lemma SdpInv.step {a : SdpAct} (hinv : SdpInv cfg.sdpMultiplication b s)
    (hrtcp : cfg.optRtcp = true) (hspares : Spares b s a) (h : sdpStep cfg b s a = some s') :
    SdpInv cfg.sdpMultiplication b s' := by
  cases a with
  | addIpPortHash env o =>
    obtain rfl : _ = s' := Option.some.inj h
    exact hinv.addIpPortHash hrtcp hspares
  | cancelIpPortHash c =>
    obtain rfl : _ = s' := Option.some.inj h
    exact hinv.cancelIpPortHash hrtcp hspares

lemma sdpInv_init (opt : Nat) (b : BranchId) : SdpInv opt b {} :=
  ⟨⟨tableInv_empty opt, fun _ => nofun⟩, nofun, fun _ he => absurd he List.not_mem_nil⟩

lemma removeEntries_spec (hrtcp : cfg.optRtcp = true) (entries : List IpPortCallInfo)
    (hs : Sole opt b t) :
    Sole opt b (removeEntries cfg b t entries) ∧
      ∀ k x, held (removeEntries cfg b t entries) k = some x → held t k = some x ∧
        ∀ e ∈ entries, k ≠ e.key ∧ k ≠ e.rtcpKey := by
  induction entries generalizing t with
  | nil => exact ⟨hs, fun k x hx => ⟨hx, fun _ he => absurd he List.not_mem_nil⟩⟩
  | cons e entries ih =>
    rw [removeEntries, if_pos hrtcp]
    have hs1 := (hs.hashRemove (HashQueue.rtpRemoval b (e.addr, e.port))).1
    have hs2 := (hs1.hashRemove (HashQueue.rtcpRemoval b (e.addr, e.port))).1
    obtain ⟨hs', hheld⟩ := ih hs2
    refine ⟨hs', ?_⟩
    intro k x hx
    obtain ⟨hx, hrest⟩ := hheld k x hx
    have hgone : ∀ {t : Table} (_ : Sole opt b t) (r : Removal), r.cBranch = b →
        r.ignoreRtcpCheck = true → held (CallsHash.hashRemove t r).1 k = some x →
        held t k = some x ∧ k ≠ (r.addr, r.port) := by
      intro t hs r hb hr hx
      rw [(hs.hashRemove r).2] at hx
      split at hx
      · obtain ⟨hx', hnot⟩ := Option.filter_eq_some_iff.mp hx
        simp [Removal.matches, (hs.held_some hx').1, hb, hr] at hnot
      · rename_i hk
        exact ⟨hx, hk⟩
    obtain ⟨hx, hne'⟩ := hgone hs1 _ rfl rfl hx
    obtain ⟨hx, hne⟩ := hgone hs _ rfl rfl hx
    exact ⟨hx, List.forall_mem_cons.mpr ⟨⟨hne, hne'⟩, hrest⟩⟩

end Inv

end Steps

/-- `ip_port` and the table agree. -/
structure SdpAgrees (cfg : SdpConfig) (b : BranchId) (s : SdpState) : Prop where
  found : ∀ e ∈ s.ipPort, e.canceled = false →
    ∃ calls, hashfindByIpPort s.table e.addr e.port = some calls ∧ b ∈ branches calls
  owned : ∀ h, ∀ node ∈ s.table.callsHash h, b ∈ branches node.calls →
    ∃ e ∈ s.ipPort, node.addr = e.addr ∧ (node.port = e.port ∨ node.port = e.port + 1)
  noRest : (hashRemoveRest cfg b s).2 = 0

lemma SdpInv.agrees {cfg : SdpConfig} {b : BranchId} {s : SdpState}
    (hinv : SdpInv cfg.sdpMultiplication b s) (hrtcp : cfg.optRtcp = true) :
    SdpAgrees cfg b s := by
  have howned : ∀ k x, held s.table k = some x →
      ∃ e ∈ s.ipPort, k = e.key ∨ k = e.rtcpKey := by
    intro k x hx
    obtain ⟨e, he, hk⟩ := hinv.owned k x hx
    refine ⟨e, he, ?_⟩
    split at hk
    · exact Or.inl hk
    · exact Or.inr hk
  refine ⟨?_, ?_, ?_⟩
  · intro e he hcanceled
    obtain ⟨x, hx⟩ := Option.isSome_iff_exists.mp (hinv.found e he hcanceled)
    obtain ⟨hxb, hfind⟩ := hinv.sole.held_some hx
    exact ⟨[x], hfind, by simp [branches, hxb]⟩
  · intro h node hnode _
    obtain ⟨x, hx, -⟩ := hinv.sole.bucket h node hnode
    have hheld := hinv.sole.held_node hnode
    rw [hx] at hheld
    obtain ⟨e, he, hk | hk⟩ := howned _ x hheld
    · exact ⟨e, he, congrArg Prod.fst hk, Or.inl (congrArg Prod.snd hk)⟩
    · exact ⟨e, he, congrArg Prod.fst hk, Or.inr (congrArg Prod.snd hk)⟩
  · -- nothing is left for the sweep to count
    obtain ⟨hs, hheld⟩ := removeEntries_spec hrtcp s.ipPort hinv.sole
    have hempty : ∀ h, (removeEntries cfg b s.table s.ipPort).callsHash h = [] := by
      intro h
      apply List.eq_nil_iff_forall_not_mem.mpr
      intro node hnode
      obtain ⟨x, hx, -⟩ := hs.bucket h node hnode
      have hnode' := hs.held_node hnode
      rw [hx] at hnode'
      obtain ⟨hx, hne⟩ := hheld _ x hnode'
      obtain ⟨e, he, hk⟩ := howned _ x hx
      exact hk.elim (hne e he).1 (hne e he).2
    have hcounter : (removeEntries cfg b s.table s.ipPort).rtpIpPortCounter b = 0 := by
      rw [hs.inv.counter b]
      simp [tableEntries, hempty, bucketEntries]
    rw [hashRemoveRest, hashRemoveCall, if_neg (not_not.mpr hcounter)]

/-- The states of the runs in which no step takes the port of an entry that is not canceled. -/
def SparingRun (cfg : SdpConfig) (b : BranchId) : SdpState → Prop :=
  ReachBy (sdpStep cfg b) (Spares b) {}

/-- In every run before the end of the call in which no step takes a port that another entry, or
the entry it moves, still uses, the addresses of the branch and the table agree. -/
theorem sdp_routing_agrees (cfg : SdpConfig) (hrtcp : cfg.optRtcp = true) (b : BranchId)
    (s : SdpState) (h : SparingRun cfg b s) : SdpAgrees cfg b s := by
  have hinv : SdpInv cfg.sdpMultiplication b s :=
    ReachBy.invariant (sdpInv_init _ _) (fun _ _ _ hinv hok hstep => hinv.step hrtcp hok hstep) h
  exact hinv.agrees hrtcp

def sipAddr : VmIP := .v4 0x0a000001

def mediaAddr : VmIP := .v4 0x0a000002

def offer (port : VmPort) : Offer where
  sipSrcAddr := sipAddr
  addr := mediaAddr
  port := port
  sessid := some "1"

theorem sdp_routing_agrees_example : ∃ s, SparingRun {} 7 s ∧
    s.ipPort = [(offer 6000).ipPortCallInfo] ∧ SdpAgrees {} 7 s := by
  let env : BranchId → BranchState := fun _ => {}
  let s₁ := addIpPortHash {} 7 env {} (offer 5000)
  have hentries : s₁.ipPort = [(offer 5000).ipPortCallInfo] := by decide +kernel
  have h₁ : SparingRun {} 7 s₁ := by
    refine ReachBy.initial.step (a := .addIpPortHash env (offer 5000)) ⟨rfl, ?_⟩ rfl
    intro i e _ hi
    cases hi
  have h₂ : SparingRun {} 7 (addIpPortHash {} 7 env s₁ (offer 6000)) := by
    refine h₁.step (a := .addIpPortHash env (offer 6000)) ⟨rfl, ?_⟩ rfl
    intro i e hindex hi _ x hx _
    obtain rfl : i = 0 := by
      have hlt := (List.getElem?_eq_some_iff.mp hi).1
      rw [hentries] at hlt
      exact Nat.lt_one_iff.mp hlt
    rw [hentries] at hi hx
    obtain rfl : _ = e := Option.some.inj hi
    obtain rfl := List.mem_singleton.mp hx
    rintro ⟨⟨h, -⟩ | ⟨h, -⟩ | ⟨h, -⟩, -⟩ <;> revert h <;> decide
  refine ⟨_, h₂, ?_, sdp_routing_agrees {} rfl 7 _ h₂⟩
  decide +kernel

/-- A session that moves to the next port loses it: the new port is the old RTCP port. -/
theorem sdp_routing_loses_port :
    ∃ s, run (sdpStep {} 7) {} [.addIpPortHash (fun _ => {}) (offer 5000),
        .addIpPortHash (fun _ => {}) (offer 5001)] = some s ∧
      s.ipPort = [(offer 5001).ipPortCallInfo] ∧ ¬SdpAgrees {} 7 s := by
  have hentries : (addIpPortHash {} 7 (fun _ => {}) (addIpPortHash {} 7 (fun _ => {}) {}
      (offer 5000)) (offer 5001)).ipPort = [(offer 5001).ipPortCallInfo] := by decide +kernel
  refine ⟨_, rfl, hentries, ?_⟩
  intro h
  obtain ⟨calls, hfind, -⟩ := h.found (offer 5001).ipPortCallInfo (by rw [hentries]; simp) rfl
  have hnone : hashfindByIpPort (addIpPortHash {} 7 (fun _ => {}) (addIpPortHash {} 7 (fun _ => {})
      {} (offer 5000)) (offer 5001)).table mediaAddr 5001 = none := by decide +kernel
  cases hfind.symm.trans hnone

end VoipMonitor.SdpPorts
