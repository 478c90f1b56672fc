import VoipMonitor.Model.CaptureFilters

/-!
# The spool of a call whose rules are applied again

The lines for the second spool are skipped under `reconfigure`, and the other lines do not touch
its flag. The filter for domains works without `reconfigure`, so it moves the call.
-/

namespace VoipMonitor.CaptureFilters
open VoipMonitor.Library VoipMonitor.CallsHash VoipMonitor.IpFilter

def usesSpool2 (flags : CallFlags) : Bool := flags &&& callFlag .useSpool2 ≠ 0

def hasOption (filterFlags : FilterFlags) (bit : CaptBit) : Bool :=
  filterFlags &&& captFlag bit ≠ 0

/-- The options leave the spool as it is: they clear a clear flag, set a set one or do neither.
`spool2Unset` comes last. -/
def LeavesSpool2 (filterFlags : FilterFlags) (flags : CallFlags) : Prop :=
  if hasOption filterFlags .spool2Unset then usesSpool2 flags = false
  else hasOption filterFlags .spool2Set → usesSpool2 flags = true

def IsFirstFor (filter : DomainFilter.Filter) (domainSrc domainDst : Bytes)
    (node : DomainFilter.Node) : Prop :=
  ∃ before after, filter.firstNode = before ++ node :: after ∧
    (∀ n ∈ before, n.isFor domainSrc domainDst = false) ∧ node.isFor domainSrc domainDst = true

/-- The first active rule for the domains of the call, if any, leaves its spool as it is. -/
def DomainLeavesSpool2 (active : Active) (data : CallData) (flags : CallFlags) : Prop :=
  ∀ filter node, active.domain = some filter →
    IsFirstFor filter data.callerDomain data.calledDomain node → LeavesSpool2 node.flags flags

/-- The filters with `reconfigure` leave the flag unchanged. -/
def KeepsSpool2 (regMatch : Bytes → Bytes → Bool) (active : Active) (data : CallData)
    (order : List Kind) (o : Options) : Prop :=
  usesSpool2 (applyAll regMatch active data true order o).flags = usesSpool2 o.flags

/-! ## The options of one rule -/

lemma usesSpool2_eq (flags : CallFlags) : usesSpool2 flags = flags.getLsbD 22 := by
  have hmask : callFlag .useSpool2 = BitVec.twoPow 64 22 := by decide
  unfold usesSpool2
  rw [hmask, BitVec.and_twoPow]
  cases flags.getLsbD 22 with
  | true => decide
  | false => decide

lemma usesSpool2_change (row : FlagRow) (flags : CallFlags) :
    usesSpool2 (row.change flags) =
      ((usesSpool2 flags && !usesSpool2 (callFlagsOf row.clears)) ||
        usesSpool2 (callFlagsOf row.sets)) := by
  simp [usesSpool2_eq, FlagRow.change]

def touchesSpool2 (row : FlagRow) : Bool :=
  usesSpool2 (callFlagsOf row.clears) || usesSpool2 (callFlagsOf row.sets)

lemma flagRows_touchesSpool2 : flagRows.filter touchesSpool2 =
    [⟨.spool2Set, [], [.useSpool2]⟩, ⟨.spool2Unset, [.useSpool2], []⟩] := by rfl

def spool2After (filterFlags : FilterFlags) (before : Bool) : Bool :=
  if hasOption filterFlags .spool2Unset then false
  else if hasOption filterFlags .spool2Set then true else before

lemma spool2After_idem (filterFlags : FilterFlags) (before : Bool) :
    spool2After filterFlags (spool2After filterFlags before) = spool2After filterFlags before := by
  unfold spool2After
  split
  · rfl
  · split <;> rfl

lemma spool2After_eq_iff (filterFlags : FilterFlags) (flags : CallFlags) :
    spool2After filterFlags (usesSpool2 flags) = usesSpool2 flags ↔
      LeavesSpool2 filterFlags flags := by
  unfold spool2After LeavesSpool2
  split
  · exact eq_comm
  · split
    · rename_i hset
      exact ⟨fun h _ => h.symm, fun h => (h hset).symm⟩
    · rename_i hset
      exact ⟨fun _ h => absurd h hset, fun _ => rfl⟩

def spool2Step (filterFlags : FilterFlags) (reconfigure : Bool) (before : Bool) (row : FlagRow) :
    Bool :=
  if row.applies filterFlags reconfigure then
    (before && !usesSpool2 (callFlagsOf row.clears)) || usesSpool2 (callFlagsOf row.sets)
  else before

lemma applies_of_spool2 (filterFlags : FilterFlags) (reconfigure : Bool) (row : FlagRow)
    (h : row.bit = .spool2Set ∨ row.bit = .spool2Unset) :
    row.applies filterFlags reconfigure = (hasOption filterFlags row.bit && !reconfigure) := by
  have hbit : (decide (row.bit = .spool2Set) || decide (row.bit = .spool2Unset)) = true := by
    simpa using h
  rw [FlagRow.applies, hbit, Bool.and_true]
  rfl

lemma spool2Step_untouched {filterFlags : FilterFlags} {reconfigure before : Bool} {row : FlagRow}
    (h : touchesSpool2 row = false) :
    spool2Step filterFlags reconfigure before row = before := by
  obtain ⟨hclears, hsets⟩ := Bool.or_eq_false_iff.mp h
  rw [spool2Step, hclears, hsets]
  split
  · rw [Bool.not_false, Bool.and_true, Bool.or_false]
  · rfl

lemma usesSpool2_setCallFlags (callFlags : CallFlags) (filterFlags : FilterFlags)
    (reconfigure : Bool) :
    usesSpool2 (setCallFlagsFromFilterFlags callFlags filterFlags reconfigure) =
      if reconfigure then usesSpool2 callFlags
      else spool2After filterFlags (usesSpool2 callFlags) := by
  have hsteps : usesSpool2 (setCallFlagsFromFilterFlags callFlags filterFlags reconfigure) =
      flagRows.foldl (spool2Step filterFlags reconfigure) (usesSpool2 callFlags) := by
    refine (List.foldl_hom usesSpool2 (fun flags row => ?_)).symm
    rw [spool2Step]
    split
    · exact (usesSpool2_change row flags).symm
    · rfl
  have hfilter : flagRows.foldl (spool2Step filterFlags reconfigure) (usesSpool2 callFlags) =
      (flagRows.filter touchesSpool2).foldl (spool2Step filterFlags reconfigure)
        (usesSpool2 callFlags) := by
    rw [List.foldl_filter]
    congr 1
    funext before row
    split
    · rfl
    · rename_i h
      exact spool2Step_untouched (Bool.eq_false_iff.mpr h)
  have hnone : usesSpool2 (callFlagsOf []) = false := by decide
  have hsome : usesSpool2 (callFlagsOf [.useSpool2]) = true := by decide
  rw [hsteps, hfilter, flagRows_touchesSpool2, List.foldl_cons, List.foldl_cons, List.foldl_nil,
    spool2Step, spool2Step, applies_of_spool2 _ _ _ (Or.inr rfl),
    applies_of_spool2 _ _ _ (Or.inl rfl), hnone, hsome, spool2After]
  cases reconfigure with
  | true => simp
  | false =>
    cases hasOption filterFlags .spool2Unset <;> cases hasOption filterFlags .spool2Set <;> simp

/-! ## One filter -/

lemma usesSpool2_reconfigured (flags : CallFlags) (filterFlags : FilterFlags) :
    usesSpool2 (setCallFlagsFromFilterFlags flags filterFlags true) = usesSpool2 flags := by
  rw [usesSpool2_setCallFlags, if_pos rfl]

lemma usesSpool2_ip (nodes : List IpFilter.Node) (flags : CallFlags)
    (natAliases : Option NatAliases) (saddr daddr : VmIP) :
    usesSpool2 (IpFilter.addCallFlags nodes flags natAliases saddr daddr true).flags =
      usesSpool2 flags := by
  have hscan : ∀ s : Scan, usesSpool2 (nodes.foldl (Scan.visit saddr daddr true) s).flags =
      usesSpool2 s.flags := by
    induction nodes with
    | nil => exact fun s => rfl
    | cons node nodes ih =>
      intro s
      rw [List.foldl_cons, ih, Scan.visit]
      split
      · dsimp only
        split
        · split <;> rfl
        · exact usesSpool2_reconfigured s.flags node.flags
      · rfl
  exact hscan { flags := flags }

lemma usesSpool2_telnum (filter : TelnumFilter.Filter) (flags : CallFlags)
    (natAliases : Option NatAliases) (caller called : Bytes) :
    usesSpool2 (TelnumFilter.addCallFlags filter flags natAliases caller called true).flags =
      usesSpool2 flags := by
  unfold TelnumFilter.addCallFlags
  split
  · rfl
  · split
    · exact usesSpool2_reconfigured flags _
    · rfl

lemma usesSpool2_sipHeader (regMatch : Bytes → Bytes → Bool) (filter : SipHeaderFilter.Filter)
    (message : SipHeaderFilter.Message) (flags : CallFlags) (natAliases : Option NatAliases) :
    usesSpool2 (SipHeaderFilter.addCallFlags regMatch filter message flags natAliases true).flags =
      usesSpool2 flags := by
  unfold SipHeaderFilter.addCallFlags
  split
  · rfl
  · split
    · exact usesSpool2_reconfigured flags _
    · rfl

def domainOptions (active : Active) (data : CallData) : Option FilterFlags :=
  (active.domain.bind (fun filter => filter.findNode data.callerDomain data.calledDomain)).map
    DomainFilter.Node.flags

lemma findNode_eq_some_iff (filter : DomainFilter.Filter) (domainSrc domainDst : Bytes)
    (node : DomainFilter.Node) :
    filter.findNode domainSrc domainDst = some node ↔
      IsFirstFor filter domainSrc domainDst node := by
  unfold DomainFilter.Filter.findNode IsFirstFor
  rw [List.find?_eq_some_iff_append]
  constructor
  · rintro ⟨hfor, before, after, happend, hbefore⟩
    exact ⟨before, after, happend, fun n hn => by simpa using hbefore n hn, hfor⟩
  · rintro ⟨before, after, happend, hbefore, hfor⟩
    exact ⟨hfor, before, after, happend, fun n hn => by simp [hbefore n hn]⟩

lemma usesSpool2_domain (filter : DomainFilter.Filter) (flags : CallFlags)
    (natAliases : Option NatAliases) (domainSrc domainDst : Bytes) :
    usesSpool2 (DomainFilter.addCallFlags filter flags natAliases domainSrc domainDst false).flags =
      ((filter.findNode domainSrc domainDst).map DomainFilter.Node.flags).elim (usesSpool2 flags)
        (spool2After · (usesSpool2 flags)) := by
  unfold DomainFilter.addCallFlags
  split
  · rename_i hcount
    have hnil : filter.firstNode = [] := List.eq_nil_of_length_eq_zero (filter.count_eq ▸ hcount)
    rw [DomainFilter.Filter.findNode, hnil]
    rfl
  · cases filter.findNode domainSrc domainDst with
    | none => rfl
    | some node =>
      exact usesSpool2_setCallFlags flags node.flags false

/-! ## All filters -/

section Run
variable (regMatch : Bytes → Bytes → Bool) (active : Active) (data : CallData)

lemma usesSpool2_apply (o : Options) (kind : Kind) :
    usesSpool2 (apply regMatch active data true o kind).flags =
      if kind = .domain then (domainOptions active data).elim (usesSpool2 o.flags)
        (spool2After · (usesSpool2 o.flags))
      else usesSpool2 o.flags := by
  unfold apply addCallFlags
  cases kind with
  | ip =>
    cases active.ip with
    | none => rfl
    | some nodes => exact usesSpool2_ip nodes o.flags o.natAliases data.saddr data.daddr
  | telnum =>
    cases active.telnum with
    | none => rfl
    | some filter =>
      exact usesSpool2_telnum filter o.flags o.natAliases data.caller data.called
  | domain =>
    rw [if_pos rfl, domainOptions]
    cases active.domain with
    | none => rfl
    | some filter =>
      exact usesSpool2_domain filter o.flags o.natAliases data.callerDomain data.calledDomain
  | sipHeader =>
    cases active.sipHeader with
    | none => rfl
    | some filter =>
      exact usesSpool2_sipHeader regMatch filter data.message o.flags o.natAliases

lemma usesSpool2_applyAll (order : List Kind) (o : Options) :
    usesSpool2 (applyAll regMatch active data true order o).flags =
      if .domain ∈ order then (domainOptions active data).elim (usesSpool2 o.flags)
        (spool2After · (usesSpool2 o.flags))
      else usesSpool2 o.flags := by
  unfold applyAll
  induction order generalizing o with
  | nil => rfl
  | cons kind order ih =>
    rw [List.foldl_cons, ih, usesSpool2_apply]
    by_cases hkind : kind = .domain
    · subst hkind
      rw [if_pos (List.mem_cons_self : Kind.domain ∈ Kind.domain :: order)]
      simp only [↓reduceIte]
      cases domainOptions active data with
      | none => exact ite_self _
      | some options => simp only [Option.elim_some, spool2After_idem, ite_self]
    · rw [if_neg hkind]
      have hmem : .domain ∈ kind :: order ↔ .domain ∈ order := by
        rw [List.mem_cons, or_iff_right (fun h => hkind h.symm)]
      simp only [hmem]

lemma domainOptions_iff (flags : CallFlags) :
    (domainOptions active data).elim (usesSpool2 flags) (spool2After · (usesSpool2 flags)) =
        usesSpool2 flags ↔ DomainLeavesSpool2 active data flags := by
  unfold domainOptions DomainLeavesSpool2
  simp only [← findNode_eq_some_iff]
  cases active.domain with
  | none => exact ⟨fun _ _ _ h => (by cases h), fun _ => rfl⟩
  | some filter =>
    rw [Option.bind_some]
    cases hnode : filter.findNode data.callerDomain data.calledDomain with
    | none =>
      refine ⟨fun _ filter' node hfilter h => ?_, fun _ => rfl⟩
      rw [← Option.some.inj hfilter, hnode] at h
      cases h
    | some node =>
      rw [Option.map_some, Option.elim_some, spool2After_eq_iff]
      constructor
      · intro h filter' node' hfilter hnode'
        rw [← Option.some.inj hfilter, hnode] at hnode'
        exact Option.some.inj hnode' ▸ h
      · exact fun h => h filter node rfl hnode

/-- For every active rules, call, flags and order: the flag is unchanged exactly when the first
domain rule for the call leaves it as it is, if the filter for domains is applied at all. -/
theorem keepsSpool2_iff (order : List Kind) (o : Options) :
    KeepsSpool2 regMatch active data order o ↔
      (.domain ∈ order → DomainLeavesSpool2 active data o.flags) := by
  unfold KeepsSpool2
  rw [usesSpool2_applyAll]
  by_cases hdomain : Kind.domain ∈ order
  · rw [if_pos hdomain, domainOptions_iff]
    exact ⟨fun h _ => h, fun h => h hdomain⟩
  · rw [if_neg hdomain]
    exact ⟨fun _ h => absurd h hdomain, fun _ => rfl⟩

theorem usesSpool2_of_notMem_domain {order : List Kind} (h : .domain ∉ order) (o : Options) :
    usesSpool2 (applyAll regMatch active data true order o).flags = usesSpool2 o.flags := by
  rw [usesSpool2_applyAll, if_neg h]

theorem usesSpool2_setCallFlags_iff (o : Options) :
    usesSpool2 (setCallFlags regMatch active data o true).flags = usesSpool2 o.flags ↔
      DomainLeavesSpool2 active data o.flags := by
  have hwidth : ∀ flags : CallFlags,
      usesSpool2 ((flags.setWidth 32).setWidth 64) = usesSpool2 flags := by
    intro flags
    simp [usesSpool2_eq]
  rw [setCallFlags, hwidth, usesSpool2_applyAll, if_pos (by decide), domainOptions_iff]

end Run

def spoolRule : DomainFilter.Node where
  domain := [120]
  flags := captFlag .spool2Set

def spoolCall : CallData where
  saddr := .v4 0
  daddr := .v4 0
  caller := []
  called := []
  callerDomain := [120]
  calledDomain := []
  message := fun _ => none

/-- A call in the first spool is moved to the second one. -/
theorem reconfigured_to_spool2 :
    ¬KeepsSpool2 (fun _ _ => false) { domain := some (DomainFilter.load [spoolRule]) } spoolCall
      [.ip, .telnum, .domain, .sipHeader] { flags := 0 } := by
  unfold KeepsSpool2
  decide

end VoipMonitor.CaptureFilters
