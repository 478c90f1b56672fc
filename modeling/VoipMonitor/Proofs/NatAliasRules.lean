import VoipMonitor.Library.SortedMap
import VoipMonitor.Proofs.IpFilterOrder

/-!
# Which rule gives the NAT alias of an address

The scan keeps the matching rules with aliases under the lengths of their prefixes; a host rule
without a length that is passed over is kept under 0. The tables are then merged from the longest
prefix to the shortest one, and each overwrites what the earlier ones gave.
-/

namespace VoipMonitor.IpFilter
open VoipMonitor.Library VoipMonitor.CallsHash

def Node.aliasOf (node : Node) (x : VmIP) : Option VmIP := node.natAliases.bind (· x)

section Rules
variable (nodes : List Node) (saddr daddr : VmIP)

def Node.HasAliases (node : Node) : Prop :=
  node.isFor saddr daddr = true ∧ node.natAliases.isSome = true

/-! ## What the merge should give -/

def Inherited (node : Node) : Prop :=
  node ∈ nodes ∧ node.HasAliases saddr daddr ∧
    (node.natAliasesInheritance = true ∨
      ∀ m ∈ nodes, m.HasAliases saddr daddr → m.prefixLength ≤ node.prefixLength)

/-- The most specific of these rules that defines `x`. -/
def MostSpecificFor (x : VmIP) (node : Node) : Prop :=
  Inherited nodes saddr daddr node ∧ (node.aliasOf x).isSome = true ∧
    ∀ m, Inherited nodes saddr daddr m → (m.aliasOf x).isSome = true →
      m.prefixLength ≤ node.prefixLength

/-- The most specific rule gives the alias of every address. -/
def MostSpecificAlias (flags : CallFlags) (reconfigure : Bool) : Prop :=
  ∀ x y, (addCallFlags nodes flags none saddr daddr reconfigure).natAliases.bind (· x) = some y ↔
    ∃ node, MostSpecificFor nodes saddr daddr x node ∧ node.aliasOf x = some y

/-! ## What the scan keeps -/

def passedOver (before : List Node) (node : Node) : Bool :=
  before.any (fun m => m.isFor saddr daddr && decide (node.prefixLength < m.prefixLength))

def storeKey (before : List Node) (node : Node) : Nat :=
  if passedOver saddr daddr before node then node.mask else node.prefixLength

/-- The rules with aliases behind `before` and their keys, in the order of the rules. -/
def storedRules : List Node → List Node → List (Nat × Node)
  | _, [] => []
  | before, node :: rest =>
    (if node.isFor saddr daddr && node.natAliases.isSome then
      [(storeKey saddr daddr before node, node)] else []) ++ storedRules (before ++ [node]) rest

def Kept (key : Nat) (node : Node) : Prop :=
  (storedRules saddr daddr [] nodes).reverse.lookup key = some node

/-- The rule with the largest key, or one whose aliases are inherited. -/
def Merged (key : Nat) (node : Node) : Prop :=
  Kept nodes saddr daddr key node ∧
    (node.natAliasesInheritance = true ∨ ∀ k m, Kept nodes saddr daddr k m → k ≤ key)

/-- The one of these with the smallest key that defines `x`. -/
def SmallestKeyFor (x : VmIP) (node : Node) : Prop :=
  ∃ key, Merged nodes saddr daddr key node ∧ (node.aliasOf x).isSome = true ∧
    ∀ k m, Merged nodes saddr daddr k m → (m.aliasOf x).isSome = true → key ≤ k

/-- The rule with the smallest key says the same as the most specific one. -/
structure SmallestKeyAgrees : Prop where
  defined : ∀ x, (∃ node, SmallestKeyFor nodes saddr daddr x node) ↔
    ∃ node, MostSpecificFor nodes saddr daddr x node
  same : ∀ x n m, SmallestKeyFor nodes saddr daddr x n → MostSpecificFor nodes saddr daddr x m →
    n.aliasOf x = m.aliasOf x

end Rules

/-! ## The map of the masks -/

def KeysDecrease (l : List (Nat × Node)) : Prop := l.Pairwise (fun p q => q.1 < p.1)

abbrev maskOrder (a b : Nat) : Bool := decide (b < a)

instance : IsStrictTotalOrder Nat (fun a b => maskOrder a b = true) :=
  SortedMap.isStrictTotalOrder_of_key OrderDual.toDual OrderDual.toDual.injective
    (fun a b => by simp)

lemma setNodeMask_eq_set (mask : Nat) (node : Node) (l : List (Nat × Node)) :
    setNodeMask mask node l = SortedMap.set maskOrder mask node l := by
  induction l with
  | nil => rfl
  | cons p l ih =>
    obtain ⟨m, n⟩ := p
    rw [setNodeMask, SortedMap.set, ih]
    simp only [decide_eq_true_eq, @eq_comm _ m mask]

lemma keysDecrease_iff (l : List (Nat × Node)) :
    KeysDecrease l ↔ SortedMap.Sorted maskOrder l := by
  simp only [KeysDecrease, SortedMap.Sorted, decide_eq_true_eq]

def setAll (l : List (Nat × Node)) : List (Nat × Node) :=
  l.foldl (fun map p => setNodeMask p.1 p.2 map) []

lemma setAll_spec (l : List (Nat × Node)) :
    KeysDecrease (setAll l) ∧ ∀ p : Nat × Node, p ∈ setAll l ↔ l.reverse.lookup p.1 = some p.2 := by
  have hsorted : SortedMap.Sorted maskOrder (setAll l) := by
    simp only [setAll, setNodeMask_eq_set]
    exact SortedMap.Sorted.foldl_set l
  refine ⟨(keysDecrease_iff _).mpr hsorted, fun p => ?_⟩
  rw [hsorted.mem_iff_get, setAll]
  simp only [setNodeMask_eq_set]
  rw [SortedMap.get_foldl_set]

/-! ## The scan -/

section Scan
variable {saddr daddr : VmIP} (reconfigure : Bool)

def LastMask (saddr daddr : VmIP) (before : List Node) (s : Scan) : Prop :=
  ∀ node : Node, node.prefixLength < s.lastMask ↔ passedOver saddr daddr before node = true

lemma passedOver_append (before : List Node) (node n : Node) :
    passedOver saddr daddr (before ++ [node]) n =
      (passedOver saddr daddr before n ||
        (node.isFor saddr daddr && decide (n.prefixLength < node.prefixLength))) := by
  unfold passedOver
  rw [List.any_append, List.any_cons, List.any_nil, Bool.or_false]

lemma visit_stored {before : List Node} {s : Scan} (h : LastMask saddr daddr before s)
    (node : Node) :
    LastMask saddr daddr (before ++ [node]) (Scan.visit saddr daddr reconfigure s node) ∧
      (Scan.visit saddr daddr reconfigure s node).natAliasesNodeMask =
        (if node.isFor saddr daddr && node.natAliases.isSome then
          setNodeMask (storeKey saddr daddr before node) node s.natAliasesNodeMask
        else s.natAliasesNodeMask) := by
  unfold Scan.visit
  by_cases hfor : node.isFor saddr daddr = true
  · rw [if_pos hfor]
    by_cases hpassed : node.prefixLength < s.lastMask
    · have hkey : storeKey saddr daddr before node = node.mask := if_pos ((h node).mp hpassed)
      have hlast : LastMask saddr daddr (before ++ [node]) s := by
        intro n
        rw [passedOver_append, Bool.or_eq_true, ← h n, hfor, Bool.true_and, decide_eq_true_eq]
        omega
      rw [if_pos hpassed, hfor, Bool.true_and, hkey]
      split
      · exact ⟨hlast, rfl⟩
      · exact ⟨hlast, rfl⟩
    · have hkey : storeKey saddr daddr before node = node.prefixLength :=
        if_neg (fun h0 => hpassed ((h node).mpr h0))
      rw [if_neg hpassed, hfor, Bool.true_and, hkey]
      refine ⟨fun n => ?_, rfl⟩
      rw [passedOver_append, Bool.or_eq_true, ← h n, hfor, Bool.true_and, decide_eq_true_eq]
      dsimp only
      omega
  · rw [if_neg hfor]
    have hno := Bool.eq_false_iff.mpr hfor
    refine ⟨fun n => ?_, by rw [hno, Bool.false_and, if_neg Bool.false_ne_true]⟩
    rw [passedOver_append, hno, Bool.false_and, Bool.or_false]
    exact h n

lemma scan_stored (rest : List Node) : ∀ (before : List Node) (s : Scan),
    LastMask saddr daddr before s →
    (rest.foldl (Scan.visit saddr daddr reconfigure) s).natAliasesNodeMask =
      (storedRules saddr daddr before rest).foldl (fun map p => setNodeMask p.1 p.2 map)
        s.natAliasesNodeMask := by
  induction rest with
  | nil => exact fun _ _ _ => rfl
  | cons node rest ih =>
    intro before s h
    obtain ⟨hlast, hmap⟩ := visit_stored reconfigure h node
    rw [List.foldl_cons, ih (before ++ [node]) _ hlast, hmap, storedRules, List.foldl_append]
    split
    · rfl
    · rfl

lemma scan_map (nodes : List Node) (flags : CallFlags) :
    (nodes.foldl (Scan.visit saddr daddr reconfigure) { flags := flags }).natAliasesNodeMask =
      setAll (storedRules saddr daddr [] nodes) := by
  rw [scan_stored reconfigure nodes [] { flags := flags } (fun node => by simp [passedOver])]
  rfl

end Scan

/-! ## The merge -/

def mergedRules : List (Nat × Node) → List (Nat × Node)
  | [] => []
  | p :: rest => p :: rest.filter (fun q => q.2.natAliasesInheritance)

lemma combNatAliases_apply (src dst : Option NatAliases) (x : VmIP) :
    (combNatAliases src dst).bind (· x) = (src.bind (· x)).or (dst.bind (· x)) := by
  cases src with
  | none => rfl
  | some src => rfl

lemma combNodes_apply (l : List (Nat × Node)) (x : VmIP) :
    (combNodes none l).bind (· x) = (mergedRules l).reverse.findSome? (fun p => p.2.aliasOf x) := by
  have hfold : ∀ (rest : List (Nat × Node)) (dst : Option NatAliases),
      (rest.foldl (fun dst p => if p.2.natAliasesInheritance then
        combNatAliases p.2.natAliases dst else dst) dst).bind (· x) =
      ((rest.filter (fun q => q.2.natAliasesInheritance)).reverse.findSome?
        (fun p => p.2.aliasOf x)).or (dst.bind (· x)) := by
    intro rest
    induction rest with
    | nil => exact fun _ => rfl
    | cons p rest ih =>
      intro dst
      rw [List.foldl_cons, ih]
      by_cases hinherit : p.2.natAliasesInheritance = true
      · rw [if_pos hinherit, List.filter_cons_of_pos (by simpa using hinherit), List.reverse_cons,
          List.findSome?_append, combNatAliases_apply, List.findSome?_singleton, Option.or_assoc]
        rfl
      · rw [if_neg hinherit, List.filter_cons_of_neg (by simpa using hinherit)]
  cases l with
  | nil => rfl
  | cons p rest =>
    rw [combNodes, hfold, mergedRules, List.reverse_cons, List.findSome?_append,
      List.findSome?_singleton, combNatAliases_apply, Option.bind_none, Option.or_none]
    rfl

lemma mem_mergedRules {l : List (Nat × Node)} (hl : KeysDecrease l) (p : Nat × Node) :
    p ∈ mergedRules l ↔
      p ∈ l ∧ (p.2.natAliasesInheritance = true ∨ ∀ q ∈ l, q.1 ≤ p.1) := by
  cases l with
  | nil => simp [mergedRules]
  | cons q l =>
    have hq := (List.pairwise_cons.mp hl).1
    rw [mergedRules, List.mem_cons, List.mem_filter, List.mem_cons]
    constructor
    · rintro (rfl | ⟨hp, hinherit⟩)
      · refine ⟨Or.inl rfl, Or.inr ?_⟩
        rintro r hr
        rcases List.mem_cons.mp hr with rfl | hr
        · exact Nat.le_refl _
        · exact Nat.le_of_lt (hq r hr)
      · exact ⟨Or.inr hp, Or.inl hinherit⟩
    · rintro ⟨rfl | hp, hlargest⟩
      · exact Or.inl rfl
      · right
        refine ⟨hp, ?_⟩
        rcases hlargest with hinherit | hlargest
        · exact hinherit
        · have := hlargest q List.mem_cons_self
          have := hq p hp
          omega

lemma mergedRules_decrease {l : List (Nat × Node)} (hl : KeysDecrease l) :
    KeysDecrease (mergedRules l) := by
  cases l with
  | nil => exact List.Pairwise.nil
  | cons q l =>
    obtain ⟨hq, hl'⟩ := List.pairwise_cons.mp hl
    exact List.pairwise_cons.mpr
      ⟨fun p hp => hq p (List.mem_filter.mp hp).1, hl'.sublist List.filter_sublist⟩

lemma findSome_smallest {l : List (Nat × Node)} (hl : KeysDecrease l) (x y : VmIP) :
    l.reverse.findSome? (fun p => p.2.aliasOf x) = some y ↔
      ∃ p ∈ l, p.2.aliasOf x = some y ∧ ∀ q ∈ l, (q.2.aliasOf x).isSome = true → p.1 ≤ q.1 := by
  induction l using List.reverseRecOn with
  | nil => simp
  | append_singleton l p ih =>
    obtain ⟨hl', -, hp⟩ := List.pairwise_append.mp hl
    have hlt : ∀ q ∈ l, p.1 < q.1 := fun q hq => hp q hq p (List.mem_singleton_self p)
    rw [List.reverse_append, List.reverse_singleton, List.singleton_append, List.findSome?_cons]
    cases hpx : p.2.aliasOf x with
    | some z =>
      dsimp only
      constructor
      · intro h
        refine ⟨p, by simp, by rw [hpx, h], fun q hq _ => ?_⟩
        rcases List.mem_append.mp hq with hq | hq
        · exact Nat.le_of_lt (hlt q hq)
        · rw [List.mem_singleton.mp hq]
      · rintro ⟨q, hq, hqx, hsmall⟩
        rcases List.mem_append.mp hq with hq | hq
        · have := hsmall p (by simp) (by rw [hpx]; rfl)
          have := hlt q hq
          omega
        · rw [← hqx, List.mem_singleton.mp hq, hpx]
    | none =>
      rw [ih hl']
      constructor
      · rintro ⟨q, hq, hqx, hsmall⟩
        refine ⟨q, List.mem_append_left _ hq, hqx, fun r hr hrx => ?_⟩
        rcases List.mem_append.mp hr with hr | hr
        · exact hsmall r hr hrx
        · rw [List.mem_singleton.mp hr, hpx] at hrx
          cases hrx
      · rintro ⟨q, hq, hqx, hsmall⟩
        rcases List.mem_append.mp hq with hq | hq
        · exact ⟨q, hq, hqx, fun r hr => hsmall r (List.mem_append_left _ hr)⟩
        · rw [List.mem_singleton.mp hq, hpx] at hqx
          cases hqx

/-! ## The alias of an address -/

variable (nodes : List Node) (saddr daddr : VmIP) (flags : CallFlags) (reconfigure : Bool)

lemma natAliases_smallestKey (x y : VmIP) :
    (addCallFlags nodes flags none saddr daddr reconfigure).natAliases.bind (· x) = some y ↔
      ∃ node, SmallestKeyFor nodes saddr daddr x node ∧ node.aliasOf x = some y := by
  obtain ⟨hdecrease, hmem⟩ := setAll_spec (storedRules saddr daddr [] nodes)
  have hmerged : ∀ p : Nat × Node, p ∈ mergedRules (setAll (storedRules saddr daddr [] nodes)) ↔
      Merged nodes saddr daddr p.1 p.2 := by
    intro p
    rw [mem_mergedRules hdecrease, hmem]
    refine and_congr_right (fun _ => or_congr_right ⟨fun h k m hk => ?_, fun h q hq => ?_⟩)
    · exact h (k, m) ((hmem (k, m)).mpr hk)
    · exact h q.1 q.2 ((hmem q).mp hq)
  have htable : (addCallFlags nodes flags none saddr daddr reconfigure).natAliases =
      combNodes none (setAll (storedRules saddr daddr [] nodes)) := by
    rw [← scan_map reconfigure nodes flags]
    rfl
  rw [htable, combNodes_apply, findSome_smallest (mergedRules_decrease hdecrease)]
  constructor
  · rintro ⟨p, hp, hpx, hsmall⟩
    refine ⟨p.2, ⟨p.1, (hmerged p).mp hp, by rw [hpx]; rfl, fun k m hm hmx => ?_⟩, hpx⟩
    exact hsmall (k, m) ((hmerged (k, m)).mpr hm) hmx
  · rintro ⟨node, ⟨key, hmerge, -, hsmall⟩, hx⟩
    refine ⟨(key, node), (hmerged (key, node)).mpr hmerge, hx, fun q hq hqx => ?_⟩
    exact hsmall q.1 q.2 ((hmerged q).mp hq) hqx

/-- For every list of rules and pair of addresses: the most specific rule gives the alias of every
address exactly when the rule with the smallest key among the merged ones says the same. -/
theorem mostSpecificAlias_iff :
    MostSpecificAlias nodes saddr daddr flags reconfigure ↔
      SmallestKeyAgrees nodes saddr daddr := by
  unfold MostSpecificAlias
  constructor
  · intro h
    refine ⟨fun x => ⟨?_, ?_⟩, fun x n m hn hm => ?_⟩
    · rintro ⟨n, hn⟩
      obtain ⟨y, hy⟩ := Option.isSome_iff_exists.mp hn.choose_spec.2.1
      obtain ⟨m, hm, -⟩ := (h x y).mp
        ((natAliases_smallestKey nodes saddr daddr flags reconfigure x y).mpr ⟨n, hn, hy⟩)
      exact ⟨m, hm⟩
    · rintro ⟨m, hm⟩
      obtain ⟨y, hy⟩ := Option.isSome_iff_exists.mp hm.2.1
      obtain ⟨n, hn, -⟩ := (natAliases_smallestKey nodes saddr daddr flags reconfigure x y).mp
        ((h x y).mpr ⟨m, hm, hy⟩)
      exact ⟨n, hn⟩
    · obtain ⟨y, hy⟩ := Option.isSome_iff_exists.mp hn.choose_spec.2.1
      obtain ⟨z, hz⟩ := Option.isSome_iff_exists.mp hm.2.1
      have hfirst := (natAliases_smallestKey nodes saddr daddr flags reconfigure x y).mpr
        ⟨n, hn, hy⟩
      have hsecond := (h x z).mpr ⟨m, hm, hz⟩
      rw [hy, hz, ← hfirst, hsecond]
  · rintro ⟨hdefined, hsame⟩ x y
    rw [natAliases_smallestKey]
    constructor
    · rintro ⟨n, hn, hy⟩
      obtain ⟨m, hm⟩ := (hdefined x).mp ⟨n, hn⟩
      exact ⟨m, hm, by rw [← hsame x n m hn hm, hy]⟩
    · rintro ⟨m, hm, hy⟩
      obtain ⟨n, hn⟩ := (hdefined x).mpr ⟨m, hm⟩
      exact ⟨n, hn, by rw [hsame x n m hn hm, hy]⟩

/-- A network whose aliases are inherited and a host in it, both with an alias of 10.9.9.9. -/
def inheritedRule : Node :=
  { Node.ofRow (.v4 0x0a000000) 8 0 0 with
    natAliases := some (fun x => if x = .v4 0x0a090909 then some (.v4 1) else none)
    natAliasesInheritance := true }

def hostRule : Node :=
  { Node.ofRow (.v4 0x0a000001) 32 0 0 with
    natAliases := some (fun x => if x = .v4 0x0a090909 then some (.v4 2) else none) }

/-- The alias is the one of the network. -/
theorem less_specific_alias_wins :
    DifferentLengths [inheritedRule, hostRule] (.v4 0x0a000001) (.v4 0x0b000001) ∧
      (addCallFlags [inheritedRule, hostRule] 0 none (.v4 0x0a000001) (.v4 0x0b000001)
        false).natAliases.bind (· (.v4 0x0a090909)) = some (.v4 1) ∧
      ¬MostSpecificAlias [inheritedRule, hostRule] (.v4 0x0a000001) (.v4 0x0b000001) 0 false := by
  have halias : (addCallFlags [inheritedRule, hostRule] 0 none (.v4 0x0a000001) (.v4 0x0b000001)
      false).natAliases.bind (· (.v4 0x0a090909)) = some (.v4 1) := by decide
  refine ⟨by unfold DifferentLengths; decide, halias, fun h => ?_⟩
  obtain ⟨node, ⟨hinherited, -, hmost⟩, hnode⟩ := (h (.v4 0x0a090909) (.v4 1)).mp halias
  have hhost : Inherited [inheritedRule, hostRule] (.v4 0x0a000001) (.v4 0x0b000001) hostRule := by
    refine ⟨by simp, by unfold Node.HasAliases; decide, Or.inr ?_⟩
    intro m hm _
    simp only [List.mem_cons, List.not_mem_nil, or_false] at hm
    rcases hm with rfl | rfl
    · decide
    · decide
  have hlong := hmost hostRule hhost (by decide)
  have hmem := hinherited.1
  simp only [List.mem_cons, List.not_mem_nil, or_false] at hmem
  rcases hmem with rfl | rfl
  · exact absurd hlong (by decide)
  · exact absurd hnode (by decide)

end VoipMonitor.IpFilter
