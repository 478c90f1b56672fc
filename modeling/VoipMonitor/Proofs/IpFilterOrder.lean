import Mathlib.Data.List.MinMax
import VoipMonitor.Model.IpFilter

/-!
# The order of capture rules

The rule with the longest prefix is always applied and is the last one that is. Of the others
those are applied that come before it in increasing order, so the flags depend on the order of
the list unless no other rule changes a flag that the last one leaves.
-/

namespace VoipMonitor.IpFilter
open VoipMonitor.CallsHash

/-! ## Flags -/

lemma setCallFlags_eq (filterFlags : FilterFlags) (reconfigure : Bool) :
    ∃ keep on : CallFlags, ∀ flags,
      setCallFlagsFromFilterFlags flags filterFlags reconfigure = (flags &&& keep) ||| on := by
  unfold setCallFlagsFromFilterFlags
  induction flagRows with
  | nil =>
    refine ⟨BitVec.allOnes 64, 0#64, fun flags => ?_⟩
    rw [List.foldl_nil, BitVec.and_allOnes, BitVec.or_zero]
  | cons row rows ih =>
    obtain ⟨keep, on, hrows⟩ := ih
    by_cases happlies : row.applies filterFlags reconfigure = true
    · refine ⟨~~~callFlagsOf row.clears &&& keep, (callFlagsOf row.sets &&& keep) ||| on, ?_⟩
      intro flags
      rw [List.foldl_cons, if_pos happlies, hrows, FlagRow.change]
      apply BitVec.eq_of_getLsbD_eq
      intro i _
      simp only [BitVec.getLsbD_or, BitVec.getLsbD_and, Bool.and_or_distrib_right, Bool.and_assoc,
        Bool.or_assoc]
    · refine ⟨keep, on, ?_⟩
      intro flags
      rw [List.foldl_cons, if_neg happlies, hrows]

section Rules
variable (f g : CallFlags) (first last : FilterFlags) (reconfigure : Bool)

lemma setCallFlags_absorb
    (hfirst : setCallFlagsFromFilterFlags (setCallFlagsFromFilterFlags f first reconfigure) last
      reconfigure = setCallFlagsFromFilterFlags f last reconfigure)
    (hg : setCallFlagsFromFilterFlags g last reconfigure =
      setCallFlagsFromFilterFlags f last reconfigure) :
    setCallFlagsFromFilterFlags (setCallFlagsFromFilterFlags g first reconfigure) last
      reconfigure = setCallFlagsFromFilterFlags f last reconfigure := by
  obtain ⟨k₁, o₁, h₁⟩ := setCallFlags_eq first reconfigure
  obtain ⟨k₂, o₂, h₂⟩ := setCallFlags_eq last reconfigure
  simp only [h₁, h₂] at hfirst hg ⊢
  apply BitVec.eq_of_getLsbD_eq
  intro i _
  have hf := congrArg (BitVec.getLsbD · i) hfirst
  have hg := congrArg (BitVec.getLsbD · i) hg
  simp only [BitVec.getLsbD_or, BitVec.getLsbD_and] at hf hg ⊢
  revert hf hg
  cases f.getLsbD i <;> cases g.getLsbD i <;> cases k₁.getLsbD i <;> cases o₁.getLsbD i <;>
    cases k₂.getLsbD i <;> cases o₂.getLsbD i <;> decide

end Rules

/-! ## The scan -/

section Scan
variable (saddr daddr : VmIP) (reconfigure : Bool)

def scan (nodes : List Node) (s : Scan) : Scan :=
  nodes.foldl (Scan.visit saddr daddr reconfigure) s

variable {saddr daddr}

lemma visit_other {node : Node} (h : node.isFor saddr daddr = false) (s : Scan) :
    Scan.visit saddr daddr reconfigure s node = s := by
  rw [Scan.visit, h, if_neg Bool.false_ne_true]

lemma visit_applied {node : Node} (h : node.isFor saddr daddr = true) {s : Scan}
    (hmask : s.lastMask ≤ node.prefixLength) :
    (Scan.visit saddr daddr reconfigure s node).lastMask = node.prefixLength ∧
      (Scan.visit saddr daddr reconfigure s node).flags =
        setCallFlagsFromFilterFlags s.flags node.flags reconfigure := by
  rw [Scan.visit, if_pos h]
  rw [if_neg (Nat.not_lt.mpr hmask)]
  exact ⟨rfl, rfl⟩

lemma visit_passed {node : Node} {s : Scan}
    (h : node.isFor saddr daddr = true → node.prefixLength < s.lastMask) :
    (Scan.visit saddr daddr reconfigure s node).lastMask = s.lastMask ∧
      (Scan.visit saddr daddr reconfigure s node).flags = s.flags := by
  unfold Scan.visit
  split
  · rename_i hfor
    rw [if_pos (h hfor)]
    split
    · exact ⟨rfl, rfl⟩
    · exact ⟨rfl, rfl⟩
  · exact ⟨rfl, rfl⟩

lemma scan_passed {nodes : List Node} {s : Scan}
    (h : ∀ node ∈ nodes, node.isFor saddr daddr = true → node.prefixLength < s.lastMask) :
    (scan saddr daddr reconfigure nodes s).flags = s.flags := by
  induction nodes generalizing s with
  | nil => rfl
  | cons node nodes ih =>
    obtain ⟨hnode, hrest⟩ := List.forall_mem_cons.mp h
    obtain ⟨hmask, hflags⟩ := visit_passed reconfigure hnode
    change (scan saddr daddr reconfigure nodes (Scan.visit saddr daddr reconfigure s node)).flags = _
    rw [ih (by rwa [hmask]), hflags]

lemma scan_before {nodes : List Node} {n : Nat} {P : CallFlags → Prop}
    (hlen : ∀ node ∈ nodes, node.isFor saddr daddr = true → node.prefixLength ≤ n)
    (hP : ∀ node ∈ nodes, node.isFor saddr daddr = true → ∀ flags, P flags →
      P (setCallFlagsFromFilterFlags flags node.flags reconfigure))
    {s : Scan} (hs : s.lastMask ≤ n) (hflags : P s.flags) :
    (scan saddr daddr reconfigure nodes s).lastMask ≤ n ∧
      P (scan saddr daddr reconfigure nodes s).flags := by
  induction nodes generalizing s with
  | nil => exact ⟨hs, hflags⟩
  | cons node nodes ih =>
    obtain ⟨hnode, hrest⟩ := List.forall_mem_cons.mp hlen
    obtain ⟨hPnode, hPrest⟩ := List.forall_mem_cons.mp hP
    apply ih hrest hPrest
    · cases hfor : node.isFor saddr daddr with
      | false => rwa [visit_other reconfigure hfor]
      | true =>
        by_cases hmask : s.lastMask ≤ node.prefixLength
        · rw [(visit_applied reconfigure hfor hmask).1]
          exact hnode hfor
        · rw [(visit_passed reconfigure (fun _ => Nat.not_le.mp hmask)).1]
          exact hs
    · cases hfor : node.isFor saddr daddr with
      | false => rwa [visit_other reconfigure hfor]
      | true =>
        by_cases hmask : s.lastMask ≤ node.prefixLength
        · rw [(visit_applied reconfigure hfor hmask).2]
          exact hPnode hfor _ hflags
        · rw [(visit_passed reconfigure (fun _ => Nat.not_le.mp hmask)).2]
          exact hflags

end Scan

/-- The rules for the addresses have prefixes of different lengths. -/
def DifferentLengths (nodes : List Node) (saddr daddr : VmIP) : Prop :=
  ((nodes.filter (fun node => node.isFor saddr daddr)).map Node.prefixLength).Nodup

/-- The rule for the addresses with the longest prefix. -/
def MostSpecific (nodes : List Node) (saddr daddr : VmIP) (m : Node) : Prop :=
  m ∈ nodes ∧ m.isFor saddr daddr = true ∧
    ∀ node ∈ nodes, node.isFor saddr daddr = true → node.prefixLength ≤ m.prefixLength

section Order
variable {nodes : List Node} {saddr daddr : VmIP} {m : Node} (flags : CallFlags)
  (natAliases : Option NatAliases) (reconfigure : Bool)

lemma DifferentLengths.perm {nodes' : List Node} (h : DifferentLengths nodes saddr daddr)
    (hperm : nodes'.Perm nodes) : DifferentLengths nodes' saddr daddr :=
  ((hperm.filter _).map _).nodup_iff.mpr h

lemma MostSpecific.perm {nodes' : List Node} (h : MostSpecific nodes saddr daddr m)
    (hperm : nodes'.Perm nodes) : MostSpecific nodes' saddr daddr m :=
  ⟨hperm.mem_iff.mpr h.1, h.2.1, fun node hnode => h.2.2 node (hperm.mem_iff.mp hnode)⟩

lemma MostSpecific.lt {before after : List Node}
    (h : MostSpecific (before ++ m :: after) saddr daddr m)
    (hdiff : DifferentLengths (before ++ m :: after) saddr daddr) {node : Node}
    (hnode : node ∈ before ++ after) (hfor : node.isFor saddr daddr = true) :
    node.prefixLength < m.prefixLength := by
  have hmem : node ∈ before ++ m :: after := by
    rw [List.mem_append, List.mem_cons]
    rcases List.mem_append.mp hnode with hb | ha
    · exact Or.inl hb
    · exact Or.inr (Or.inr ha)
  refine lt_of_le_of_ne (h.2.2 node hmem hfor) ?_
  intro heq
  have hperm : (before ++ m :: after).Perm (m :: (before ++ after)) := List.perm_middle
  have hnodup := hdiff.perm hperm.symm
  unfold DifferentLengths at hnodup
  simp only [List.filter_cons, h.2.1, if_true, List.map_cons, List.nodup_cons] at hnodup
  apply hnodup.1
  rw [← heq]
  exact List.mem_map_of_mem (List.mem_filter.mpr ⟨hnode, hfor⟩)

lemma addCallFlags_split {before after : List Node}
    (h : MostSpecific (before ++ m :: after) saddr daddr m)
    (hdiff : DifferentLengths (before ++ m :: after) saddr daddr) :
    (addCallFlags (before ++ m :: after) flags natAliases saddr daddr reconfigure).flags =
      setCallFlagsFromFilterFlags
        (scan saddr daddr reconfigure before { flags := flags }).flags m.flags reconfigure := by
  have hbefore := scan_before reconfigure (n := m.prefixLength) (P := fun _ => True)
    (fun node hnode hfor => h.2.2 node (List.mem_append_left _ hnode) hfor)
    (fun _ _ _ _ _ => trivial) (s := { flags := flags }) (Nat.zero_le _) trivial
  obtain ⟨hmask, hflags⟩ := visit_applied reconfigure h.2.1 hbefore.1
  change (scan saddr daddr reconfigure (before ++ m :: after) { flags := flags }).flags = _
  unfold scan at hbefore hmask hflags ⊢
  rw [List.foldl_append, List.foldl_cons]
  change (scan saddr daddr reconfigure after _).flags = _
  rw [scan_passed, hflags]
  intro node hnode hfor
  rw [hmask]
  exact h.lt hdiff (List.mem_append_right _ hnode) hfor

lemma exists_mostSpecific {node : Node} (hnode : node ∈ nodes)
    (hfor : node.isFor saddr daddr = true) : ∃ m, MostSpecific nodes saddr daddr m := by
  have hmem : node ∈ nodes.filter (fun node => node.isFor saddr daddr) :=
    List.mem_filter.mpr ⟨hnode, hfor⟩
  cases hmax : (nodes.filter (fun node => node.isFor saddr daddr)).argmax Node.prefixLength with
  | none =>
    rw [List.argmax_eq_none.mp hmax] at hmem
    cases hmem
  | some m =>
    obtain ⟨hm, hmfor⟩ := List.mem_filter.mp (List.argmax_mem hmax)
    refine ⟨m, hm, hmfor, ?_⟩
    intro node hnode hfor
    exact List.le_of_mem_argmax (List.mem_filter.mpr ⟨hnode, hfor⟩) hmax

/-- A less specific rule before the most specific one changes nothing. -/
def Overridden (nodes : List Node) (saddr daddr : VmIP) (flags : CallFlags) (reconfigure : Bool) :
    Prop :=
  ∀ m, MostSpecific nodes saddr daddr m → ∀ node ∈ nodes, node.isFor saddr daddr = true →
    node.prefixLength < m.prefixLength →
    setCallFlagsFromFilterFlags (setCallFlagsFromFilterFlags flags node.flags reconfigure) m.flags
      reconfigure = setCallFlagsFromFilterFlags flags m.flags reconfigure

lemma Overridden.perm {nodes' : List Node} {flags : CallFlags} {reconfigure : Bool}
    (h : Overridden nodes saddr daddr flags reconfigure) (hperm : nodes'.Perm nodes) :
    Overridden nodes' saddr daddr flags reconfigure :=
  fun m hm node hnode => h m (hm.perm hperm.symm) node (hperm.mem_iff.mp hnode)

lemma addCallFlags_overridden (hm : MostSpecific nodes saddr daddr m)
    (hdiff : DifferentLengths nodes saddr daddr)
    (h : Overridden nodes saddr daddr flags reconfigure) :
    (addCallFlags nodes flags natAliases saddr daddr reconfigure).flags =
      setCallFlagsFromFilterFlags flags m.flags reconfigure := by
  obtain ⟨before, after, rfl⟩ := List.append_of_mem hm.1
  rw [addCallFlags_split flags natAliases reconfigure hm hdiff]
  -- what the rules before have set is set again by the last rule
  refine (scan_before reconfigure (n := m.prefixLength)
    (P := fun g => setCallFlagsFromFilterFlags g m.flags reconfigure =
      setCallFlagsFromFilterFlags flags m.flags reconfigure) ?_ ?_ (s := { flags := flags })
    (Nat.zero_le _) rfl).2
  · exact fun node hnode hfor => hm.2.2 node (List.mem_append_left _ hnode) hfor
  · intro node hnode hfor g hg
    refine setCallFlags_absorb flags g node.flags m.flags reconfigure ?_ hg
    exact h m hm node (List.mem_append_left _ hnode) hfor
      (hm.lt hdiff (List.mem_append_left _ hnode) hfor)

def Decides (rule : FilterFlags) (reconfigure : Bool) (i : Nat) : Prop :=
  ∀ f g, (setCallFlagsFromFilterFlags f rule reconfigure).getLsbD i =
    (setCallFlagsFromFilterFlags g rule reconfigure).getLsbD i

/-- The flags do not depend on the order of the rules, and the most specific rule prevails. -/
structure OrderFree (nodes : List Node) (saddr daddr : VmIP) (flags : CallFlags)
    (natAliases : Option NatAliases) (reconfigure : Bool) : Prop where
  perm : ∀ nodes', nodes'.Perm nodes →
    (addCallFlags nodes' flags natAliases saddr daddr reconfigure).flags =
      (addCallFlags nodes flags natAliases saddr daddr reconfigure).flags
  prevails : ∀ m, MostSpecific nodes saddr daddr m → ∀ i, Decides m.flags reconfigure i →
    (addCallFlags nodes flags natAliases saddr daddr reconfigure).flags.getLsbD i =
      (setCallFlagsFromFilterFlags flags m.flags reconfigure).getLsbD i

/-- The flags do not depend on the order of the rules exactly when no less specific rule changes
a flag that the most specific one leaves. The most specific rule prevails in any case. -/
theorem addCallFlags_orderFree_iff (nodes : List Node) (saddr daddr : VmIP) (flags : CallFlags)
    (natAliases : Option NatAliases) (reconfigure : Bool)
    (hdiff : DifferentLengths nodes saddr daddr) :
    OrderFree nodes saddr daddr flags natAliases reconfigure ↔
      Overridden nodes saddr daddr flags reconfigure := by
  constructor
  · intro h m hm node hnode hfor hlt
    have hne : node ≠ m := by
      rintro rfl
      exact lt_irrefl _ hlt
    obtain ⟨before, after, rfl⟩ := List.append_of_mem hm.1
    have hrest : node ∈ before ++ after := by
      rcases List.mem_append.mp hnode with hb | ha
      · exact List.mem_append_left _ hb
      · exact List.mem_append_right _ ((List.mem_cons.mp ha).resolve_left hne)
    obtain ⟨l, l', hl⟩ := List.append_of_mem hrest
    have hperm₁ : ([] ++ m :: (before ++ after)).Perm (before ++ m :: after) :=
      List.perm_middle.symm
    have hperm₂ : ([node] ++ m :: (l ++ l')).Perm (before ++ m :: after) := by
      refine List.Perm.trans ?_ hperm₁
      rw [hl]
      exact (List.Perm.swap m node _).trans (List.perm_middle.symm.cons m)
    have hsame := (h.perm _ hperm₂).trans (h.perm _ hperm₁).symm
    rw [addCallFlags_split flags natAliases reconfigure (hm.perm hperm₂) (hdiff.perm hperm₂),
      addCallFlags_split flags natAliases reconfigure (hm.perm hperm₁) (hdiff.perm hperm₁)] at hsame
    have hfirst := visit_applied reconfigure hfor (s := { flags := flags }) (Nat.zero_le _)
    rw [← hfirst.2]
    exact hsame
  · intro h
    refine ⟨?_, ?_⟩
    · intro nodes' hperm
      by_cases hex : ∃ node ∈ nodes, node.isFor saddr daddr = true
      · obtain ⟨node, hnode, hfor⟩ := hex
        obtain ⟨m, hm⟩ := exists_mostSpecific hnode hfor
        rw [addCallFlags_overridden flags natAliases reconfigure hm hdiff h,
          addCallFlags_overridden flags natAliases reconfigure (hm.perm hperm) (hdiff.perm hperm)
            (h.perm hperm)]
      · have hnone : ∀ l : List Node, (∀ node ∈ l, node ∈ nodes) →
            (addCallFlags l flags natAliases saddr daddr reconfigure).flags = flags := by
          intro l hl
          refine (scan_before reconfigure (n := 0) (P := fun g => g = flags) ?_ ?_
            (s := { flags := flags }) (Nat.le_refl _) rfl).2
          · exact fun node hnode hfor => absurd ⟨node, hl node hnode, hfor⟩ hex
          · exact fun node hnode hfor => absurd ⟨node, hl node hnode, hfor⟩ hex
        rw [hnone nodes' (fun node hnode => hperm.mem_iff.mp hnode), hnone nodes (fun _ => id)]
    · intro m hm i _
      rw [addCallFlags_overridden flags natAliases reconfigure hm hdiff h]

end Order

def rtcpRow : DbRow := { ip := .v4 0xc0000000, mask := 8, flags := captFlag .rtcp }

def sipRow : DbRow := { ip := .v4 0x0a000000, mask := 16, flags := captFlag .sip }

def sipRtcpRow : DbRow :=
  { ip := .v4 0x0a000001, mask := 32, flags := captFlag .sip ||| captFlag .rtcp }

theorem addCallFlags_orderFree_iff_example :
    OrderFree (load [sipRow, sipRtcpRow]) (.v4 0x0a000001) (.v4 0xc0000001) 0 none false := by
  refine (addCallFlags_orderFree_iff (load [sipRow, sipRtcpRow]) (.v4 0x0a000001) (.v4 0xc0000001)
    0 none false ?_).mpr ?_
  · unfold DifferentLengths
    decide
  · intro m hm node hnode _ hlt
    have hload : load [sipRow, sipRtcpRow] = [Node.ofRow sipRow.ip 16 0 sipRow.flags,
      Node.ofRow sipRtcpRow.ip 32 0 sipRtcpRow.flags] := rfl
    rw [hload] at hm hnode
    have hlen := hm.2.2 (Node.ofRow sipRtcpRow.ip 32 0 sipRtcpRow.flags) (by simp) (by decide)
    simp only [List.mem_cons, List.not_mem_nil, or_false] at hnode
    have hmem := hm.1
    simp only [List.mem_cons, List.not_mem_nil, or_false] at hmem
    rcases hmem with rfl | rfl
    · exact absurd hlen (by decide)
    · rcases hnode with rfl | rfl
      · decide
      · exact absurd hlt (lt_irrefl _)

/-- The network of the source saves SIP and the shorter one of the destination RTCP. `load` puts
the longer one first, as its address is lower, and RTCP is not saved; in the other order both
are. -/
theorem addCallFlags_depends_on_order :
    DifferentLengths (load [rtcpRow, sipRow]) (.v4 0x0a000001) (.v4 0xc0000001) ∧
    (addCallFlags (load [rtcpRow, sipRow]) 0 none (.v4 0x0a000001) (.v4 0xc0000001) false).flags =
      callFlagsOf [.savesip] ∧
    (addCallFlags (load [rtcpRow, sipRow]).reverse 0 none (.v4 0x0a000001) (.v4 0xc0000001)
      false).flags = callFlagsOf [.savertcp, .savesip] ∧
    ¬OrderFree (load [rtcpRow, sipRow]) (.v4 0x0a000001) (.v4 0xc0000001) 0 none false := by
  have hloaded : (addCallFlags (load [rtcpRow, sipRow]) 0 none (.v4 0x0a000001) (.v4 0xc0000001)
      false).flags = callFlagsOf [.savesip] := by decide
  have hother : (addCallFlags (load [rtcpRow, sipRow]).reverse 0 none (.v4 0x0a000001)
      (.v4 0xc0000001) false).flags = callFlagsOf [.savertcp, .savesip] := by decide
  refine ⟨?_, hloaded, hother, ?_⟩
  · unfold DifferentLengths
    decide
  · intro h
    have hsame := h.perm _ (List.reverse_perm _)
    rw [hloaded, hother] at hsame
    revert hsame
    decide

end VoipMonitor.IpFilter
