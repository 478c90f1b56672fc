import Std.Data.TreeMap.Lemmas
import VoipMonitor.Library.FirstBest
import VoipMonitor.Model.Billing

/-!
# The tariff of the longest prefix

The pass over the prefixes keeps what a shorter prefix has set when the longer one does not set
it. The result is that of the longest prefix in every order of the entries exactly when no shorter
one sets anything else there.
-/

namespace VoipMonitor.Billing
open VoipMonitor.Library

/-! ## Replaced fields -/

lemma pick_chain {α : Type} {p q : Prop} [Decidable p] [Decidable q] {a d n l : α}
    (ha : (if q then l else a) = if q then l else d)
    (hn : (if q then l else if p then n else d) = if q then l else d) :
    (if q then l else if p then n else a) = if q then l else d := by
  by_cases hq : q
  · rw [if_pos hq, if_pos hq]
  · rw [if_neg hq, if_neg hq] at ha hn
    rw [if_neg hq, if_neg hq, ha]
    exact hn

lemma Tariff.override_chain {a d n l : Tariff} (ha : a.override l = d.override l)
    (hn : (d.override n).override l = d.override l) :
    (a.override n).override l = d.override l := by
  unfold Tariff.override at *
  simp only [Tariff.mk.injEq] at *
  obtain ⟨ha1, ha2, ha3, ha4, ha5⟩ := ha
  obtain ⟨hn1, hn2, hn3, hn4, hn5⟩ := hn
  exact ⟨pick_chain ha1 hn1, pick_chain ha2 hn2, pick_chain ha3 hn3, pick_chain ha4 hn4,
    pick_chain ha5 hn5⟩

section Pass
variable (rule : Rule) (called : CalledNumber)

def RuleNumber.matchesPrefix (n : RuleNumber) : Bool :=
  n.isFor rule called && !n.numberPrefix.isEmpty &&
    (n.forms rule called).any (fun form => form.take n.numberPrefix.length == n.numberPrefix)

def prefixStep (s : Selection) (n : RuleNumber) : Selection :=
  if n.matchesPrefix rule called then s.take n n.numberPrefix.length else s

lemma passPrefixes_eq (l : List RuleNumber) :
    { rule with numbers := l }.passPrefixes called =
      l.foldl (prefixStep rule called) { tariff := rule.tariff } := rfl

variable {rule called}

lemma length_numberPrefix_pos {n : RuleNumber} (h : n.matchesPrefix rule called = true) :
    0 < n.numberPrefix.length := by
  unfold RuleNumber.matchesPrefix at h
  simp only [Bool.and_eq_true, Bool.not_eq_true', List.isEmpty_eq_false_iff] at h
  exact List.length_pos_of_ne_nil h.1.2

lemma prefixStep_longer {s : Selection} {n : RuleNumber} (h : n.matchesPrefix rule called = true)
    (hlonger : s.useLength < n.numberPrefix.length) : prefixStep rule called s n =
      { tariff := s.tariff.override n.tariff, found := true,
        useLength := n.numberPrefix.length } := by
  rw [prefixStep, if_pos h, Selection.take, if_pos ⟨by omega, Or.inr hlonger⟩]

lemma prefixStep_skip {s : Selection} {n : RuleNumber} (hused : 0 < s.useLength)
    (h : n.matchesPrefix rule called = true → n.numberPrefix.length ≤ s.useLength) :
    prefixStep rule called s n = s := by
  unfold prefixStep
  split
  · have hle := h ‹_›
    rw [Selection.take, if_neg (by omega)]
  · rfl

lemma foldl_prefixStep_skip (l : List RuleNumber) {s : Selection} (hused : 0 < s.useLength)
    (h : ∀ n ∈ l, n.matchesPrefix rule called = true → n.numberPrefix.length ≤ s.useLength) :
    l.foldl (prefixStep rule called) s = s := by
  induction l with
  | nil => rfl
  | cons n l ih =>
    rw [List.foldl_cons, prefixStep_skip hused (h n List.mem_cons_self)]
    exact ih (fun m hm => h m (List.mem_cons_of_mem n hm))

/-! ## Orders of the entries -/

variable (rule called)

def IsLongest (l : RuleNumber) : Prop :=
  l ∈ rule.numbers ∧ l.matchesPrefix rule called = true ∧
    ∀ n ∈ rule.numbers, n.matchesPrefix rule called = true →
      n.numberPrefix.length ≤ l.numberPrefix.length

/-- In every order of the entries the pass gives the same tariff, which is that of the longest
prefix over the defaults of the rule. -/
def OrderFree : Prop :=
  ∀ numbers : List RuleNumber, numbers.Perm rule.numbers →
    ({ rule with numbers := numbers }.passPrefixes called).tariff =
        (rule.passPrefixes called).tariff ∧
      ∀ l, IsLongest rule called l →
        ({ rule with numbers := numbers }.passPrefixes called).tariff =
          rule.tariff.override l.tariff

/-- A shorter prefix changes nothing that the longest one leaves unset, and prefixes of the same
length give the same tariff. -/
def LongestDecides : Prop :=
  ∀ l, IsLongest rule called l → ∀ n ∈ rule.numbers, n.matchesPrefix rule called = true →
    (n.numberPrefix.length < l.numberPrefix.length →
      (rule.tariff.override n.tariff).override l.tariff = rule.tariff.override l.tariff) ∧
    (n.numberPrefix.length = l.numberPrefix.length →
      rule.tariff.override n.tariff = rule.tariff.override l.tariff)

/-- What holds on the way to the longest prefix `l`: the tariff so far makes no difference to it,
and with its length the tariff is reached. -/
structure OnTheWay (l : RuleNumber) (s : Selection) : Prop where
  length_le : s.useLength ≤ l.numberPrefix.length
  hidden : ∀ m, IsLongest rule called m → s.useLength < l.numberPrefix.length →
    s.tariff.override m.tariff = rule.tariff.override m.tariff
  reached : s.useLength = l.numberPrefix.length → s.tariff = rule.tariff.override l.tariff

variable {rule called}

section Longest
variable {l : RuleNumber} (hl : IsLongest rule called l)
include hl

lemma IsLongest.length_eq {m : RuleNumber} (hm : IsLongest rule called m) :
    m.numberPrefix.length = l.numberPrefix.length :=
  le_antisymm (hl.2.2 m hm.1 hm.2.1) (hm.2.2 l hl.1 hl.2.1)

lemma IsLongest.of_length_eq {n : RuleNumber} (hn : n ∈ rule.numbers)
    (hmatch : n.matchesPrefix rule called = true)
    (hlength : n.numberPrefix.length = l.numberPrefix.length) : IsLongest rule called n :=
  ⟨hn, hmatch, fun m hm hm' => (hl.2.2 m hm hm').trans hlength.ge⟩

lemma OnTheWay.start : OnTheWay rule called l { tariff := rule.tariff } where
  length_le := Nat.zero_le _
  hidden := fun _ _ _ => rfl
  reached := fun h => absurd h (length_numberPrefix_pos hl.2.1).ne

lemma OnTheWay.step (hdecides : LongestDecides rule called) {s : Selection}
    (h : OnTheWay rule called l s) {n : RuleNumber} (hn : n ∈ rule.numbers) :
    OnTheWay rule called l (prefixStep rule called s n) := by
  by_cases hmatch : n.matchesPrefix rule called = true
  · by_cases hlonger : s.useLength < n.numberPrefix.length
    · have hle := hl.2.2 n hn hmatch
      rw [prefixStep_longer hmatch hlonger]
      refine ⟨hle, ?_, ?_⟩
      · intro m hm hlt
        dsimp only at hlt
        have hlength := hl.length_eq hm
        exact Tariff.override_chain (h.hidden m hm (by omega))
          ((hdecides m hm n hn hmatch).1 (by omega))
      · intro hlength
        have hsame := (hdecides l hl n hn hmatch).2 hlength
        exact (h.hidden n (hl.of_length_eq hn hmatch hlength) (by omega)).trans hsame
    · have hpos := length_numberPrefix_pos hmatch
      rw [prefixStep_skip (by omega) (fun _ => by omega)]
      exact h
  · rw [prefixStep, if_neg hmatch]
    exact h

lemma OnTheWay.foldl (hdecides : LongestDecides rule called) (numbers : List RuleNumber)
    (hnumbers : ∀ n ∈ numbers, n ∈ rule.numbers) {s : Selection} (h : OnTheWay rule called l s) :
    OnTheWay rule called l (numbers.foldl (prefixStep rule called) s) := by
  induction numbers generalizing s with
  | nil => exact h
  | cons n numbers ih =>
    rw [List.foldl_cons]
    exact ih (fun m hm => hnumbers m (List.mem_cons_of_mem n hm))
      (h.step hl hdecides (hnumbers n List.mem_cons_self))

end Longest

lemma useLength_prefixStep (s : Selection) (n : RuleNumber) :
    s.useLength ≤ (prefixStep rule called s n).useLength ∧
      (n.matchesPrefix rule called = true →
        n.numberPrefix.length ≤ (prefixStep rule called s n).useLength) := by
  by_cases hmatch : n.matchesPrefix rule called = true
  · have hpos := length_numberPrefix_pos hmatch
    by_cases hlonger : s.useLength < n.numberPrefix.length
    · rw [prefixStep_longer hmatch hlonger]
      exact ⟨hlonger.le, fun _ => le_rfl⟩
    · rw [prefixStep_skip (by omega) (fun _ => by omega)]
      exact ⟨le_rfl, fun _ => by omega⟩
  · rw [prefixStep, if_neg hmatch]
    exact ⟨le_rfl, fun h => absurd h hmatch⟩

lemma useLength_foldl (numbers : List RuleNumber) (s : Selection) :
    s.useLength ≤ (numbers.foldl (prefixStep rule called) s).useLength ∧
      ∀ n ∈ numbers, n.matchesPrefix rule called = true →
        n.numberPrefix.length ≤ (numbers.foldl (prefixStep rule called) s).useLength := by
  induction numbers generalizing s with
  | nil => exact ⟨le_rfl, fun n hn => absurd hn List.not_mem_nil⟩
  | cons n numbers ih =>
    rw [List.foldl_cons]
    obtain ⟨hle, hrest⟩ := ih (prefixStep rule called s n)
    obtain ⟨hkeep, hfirst⟩ := useLength_prefixStep s n
    refine ⟨hkeep.trans hle, fun m hm hmatch => ?_⟩
    rcases List.mem_cons.mp hm with rfl | hm
    · exact (hfirst hmatch).trans hle
    · exact hrest m hm hmatch

lemma passPrefixes_of_decides (hdecides : LongestDecides rule called) {l : RuleNumber}
    (hl : IsLongest rule called l) {numbers : List RuleNumber} (h : numbers.Perm rule.numbers) :
    ({ rule with numbers := numbers }.passPrefixes called).tariff =
      rule.tariff.override l.tariff := by
  rw [passPrefixes_eq]
  have hway := (OnTheWay.start hl).foldl hl hdecides numbers (fun n hn => h.subset hn)
  have hlength := (useLength_foldl numbers { tariff := rule.tariff }).2 l (h.symm.subset hl.1) hl.2.1
  exact hway.reached (le_antisymm hway.length_le hlength)

lemma foldl_prefixStep_of_none (numbers : List RuleNumber) (s : Selection)
    (h : ∀ n ∈ numbers, n.matchesPrefix rule called ≠ true) :
    numbers.foldl (prefixStep rule called) s = s := by
  induction numbers with
  | nil => rfl
  | cons n numbers ih =>
    rw [List.foldl_cons, prefixStep, if_neg (h n List.mem_cons_self)]
    exact ih (fun m hm => h m (List.mem_cons_of_mem n hm))

lemma exists_isLongest {n : RuleNumber} (hn : n ∈ rule.numbers)
    (hmatch : n.matchesPrefix rule called = true) : ∃ l, IsLongest rule called l := by
  obtain ⟨l, hl, hmax⟩ := Finset.exists_max_image
    (rule.numbers.filter (fun m => m.matchesPrefix rule called)).toFinset
    (fun m => m.numberPrefix.length) ⟨n, List.mem_toFinset.mpr (List.mem_filter.mpr ⟨hn, hmatch⟩)⟩
  rw [List.mem_toFinset, List.mem_filter] at hl
  exact ⟨l, hl.1, hl.2, fun m hm hm' =>
    hmax m (List.mem_toFinset.mpr (List.mem_filter.mpr ⟨hm, hm'⟩))⟩

lemma passPrefixes_cons {n : RuleNumber} {numbers : List RuleNumber}
    (hmatch : n.matchesPrefix rule called = true) :
    { rule with numbers := n :: numbers }.passPrefixes called =
      numbers.foldl (prefixStep rule called)
        { tariff := rule.tariff.override n.tariff, found := true,
          useLength := n.numberPrefix.length } := by
  rw [passPrefixes_eq, List.foldl_cons,
    prefixStep_longer hmatch (length_numberPrefix_pos hmatch)]

lemma longestDecides_of_orderFree (h : OrderFree rule called) : LongestDecides rule called := by
  intro l hl n hn hmatch
  have hpos := length_numberPrefix_pos hmatch
  have hperm : (n :: rule.numbers.erase n).Perm rule.numbers := (List.perm_cons_erase hn).symm
  constructor
  · intro hshorter
    have hmem : l ∈ rule.numbers.erase n := by
      apply (List.mem_erase_of_ne _).mpr hl.1
      rintro rfl
      exact lt_irrefl _ hshorter
    have hperm' : (n :: l :: (rule.numbers.erase n).erase l).Perm rule.numbers :=
      ((List.perm_cons_erase hmem).symm.cons n).trans hperm
    have hlast := (h _ hperm').2 l hl
    rw [passPrefixes_cons hmatch, List.foldl_cons, prefixStep_longer hl.2.1 hshorter,
      foldl_prefixStep_skip] at hlast
    · exact hlast
    · exact length_numberPrefix_pos hl.2.1
    · intro m hm
      exact hl.2.2 m (List.mem_of_mem_erase (List.mem_of_mem_erase hm))
  · intro hlength
    have hfirst := (h _ hperm).2 l hl
    rw [passPrefixes_cons hmatch, foldl_prefixStep_skip] at hfirst
    · exact hfirst
    · exact hpos
    · intro m hm hm'
      exact (hl.2.2 m (List.mem_of_mem_erase hm) hm').trans hlength.ge

variable (rule called)

/-- The tariff does not depend on the order of the entries and is that of the longest prefix
exactly when the shorter ones set nothing else than the defaults in the fields it leaves unset. -/
theorem orderFree_iff : OrderFree rule called ↔ LongestDecides rule called := by
  refine ⟨longestDecides_of_orderFree, fun hdecides numbers hperm => ⟨?_, ?_⟩⟩
  · by_cases hmatch : ∃ n ∈ rule.numbers, n.matchesPrefix rule called = true
    · obtain ⟨n, hn, hmatch⟩ := hmatch
      obtain ⟨l, hl⟩ := exists_isLongest hn hmatch
      rw [passPrefixes_of_decides hdecides hl hperm]
      exact (passPrefixes_of_decides hdecides hl (List.Perm.refl _)).symm
    · push Not at hmatch
      rw [passPrefixes_eq, foldl_prefixStep_of_none numbers _
        (fun n hn => hmatch n (hperm.subset hn))]
      have hnone := foldl_prefixStep_of_none rule.numbers { tariff := rule.tariff } hmatch
      exact (congrArg Selection.tariff hnone).symm
  · intro l hl
    exact passPrefixes_of_decides hdecides hl hperm

end Pass

def peakPriceRule : Rule where
  tariff := { price := 1, pricePeak := 2, t1 := 60, t2 := 60, peakDefinition := {} }
  numbers :=
    [{ numberPrefix := [0x34],
       tariff := { price := 3, pricePeak := 9, t1 := 0, t2 := 0, peakDefinition := {} } },
     { numberPrefix := [0x34, 0x32],
       tariff := { price := 5, pricePeak := 0, t1 := 0, t2 := 0, peakDefinition := {} } }]

def peakPriceNumber : CalledNumber where
  number := [0x34, 0x32, 0x30]
  numberNormalized := none
  isLocalNumber := true

/-- In the order of the list the peak price of the shorter prefix stays, in the other one not. -/
theorem passPrefixes_not_orderFree :
    peakPriceRule.numbers.Pairwise (fun m n => m.numberPrefix ≠ n.numberPrefix) ∧
      ¬OrderFree peakPriceRule peakPriceNumber := by
  refine ⟨by decide, fun h => ?_⟩
  have hreverse := (h peakPriceRule.numbers.reverse (List.reverse_perm _)).1
  revert hreverse
  decide +kernel

end VoipMonitor.Billing

/-!
# The assignment of the greatest weight

The search ends early at the greatest weight that an assignment can have, which depends on whether
user names are checked. So it finds what the search through all assignments finds.
-/

namespace VoipMonitor.BillingAssignments
open VoipMonitor.Library Std

section Weights
variable (lists : Lists) (q : Query) (checkDigestUsername : Bool)

/-! ## The weight of an assignment -/

def matchesIp (a : Assignment) : Bool := !listIPIsEmpty a.listIP && a.checkIP lists q.ip

/-- The number is looked for as it was given, or in the normal form of the assignment. -/
def matchesNumber (a : Assignment) : Bool :=
  !listNumberIsEmpty a.listNumber &&
    a.checkNumber lists (if q.countryPrefixes then a.numberNormalized q.number q.ip else q.number)

/-- The user name counts for an assignment of the caller, and for one by user names alone. -/
def digestCounts (a : Assignment) : Bool :=
  matchesIp lists q a || matchesNumber lists q a ||
    listIPIsEmpty a.listIP && listNumberIsEmpty a.listNumber

/-- The assignment asks for user names and the one of the call is not among them. -/
def digestFails (a : Assignment) : Bool :=
  checkDigestUsername && !a.listDigestUsername.isEmpty &&
    !(digestCounts lists q a && q.digestUsername.getD [] != [] &&
      a.checkDigestUsername lists (q.digestUsername.getD []))

/-- The address weighs 30 and the number 20, a user name that is asked for 100, and none where none
is asked for 1. A user name that is asked for and does not match leaves nothing. -/
def matchWeight (a : Assignment) : Nat :=
  if digestFails lists q checkDigestUsername a then 0
  else
    (if matchesIp lists q a then 30 else 0) + (if matchesNumber lists q a then 20 else 0) +
      if checkDigestUsername = false then 0
      else if a.listDigestUsername ≠ [] then 100
      else if digestCounts lists q a ∧ q.digestUsername.getD [] = [] then 1 else 0

lemma okWeightIpNumber_eq (a : Assignment) :
    (okWeightIpNumber lists q a).1 =
      (if matchesIp lists q a then 30 else 0) + if matchesNumber lists q a then 20 else 0 := by
  have hnumber : matchesNumber lists q a = (!listNumberIsEmpty a.listNumber &&
      a.checkNumber lists (if q.countryPrefixes && !listNumberIsEmpty a.listNumber then
        a.numberNormalized q.number q.ip else q.number)) := by
    unfold matchesNumber
    cases listNumberIsEmpty a.listNumber <;> simp
  rw [hnumber]
  unfold okWeightIpNumber okWeightIp okWeightNumber matchesIp
  dsimp only
  generalize (if q.countryPrefixes && !listNumberIsEmpty a.listNumber then
    a.numberNormalized q.number q.ip else q.number) = numberCheck
  generalize (!listIPIsEmpty a.listIP && a.checkIP lists q.ip) = ip
  generalize (!listNumberIsEmpty a.listNumber && a.checkNumber lists numberCheck) = number
  cases ip <;> cases number <;> rfl

lemma okWeight_eq_matchWeight (a : Assignment) :
    (okWeight lists q checkDigestUsername a).1 = matchWeight lists q checkDigestUsername a := by
  have hbase := okWeightIpNumber_eq lists q a
  have hcounts : (decide ((okWeightIpNumber lists q a).1 > 0) ||
      (listIPIsEmpty a.listIP && listNumberIsEmpty a.listNumber)) = digestCounts lists q a := by
    rw [hbase, digestCounts]
    cases matchesIp lists q a <;> cases matchesNumber lists q a <;> simp
  unfold okWeight matchWeight digestFails okWeightDigestUsernameSet okWeightDigestUsernameUnset
  dsimp only
  rw [hcounts, ← hbase]
  cases checkDigestUsername with
  | false => simp
  | true =>
    cases hlist : a.listDigestUsername with
    | nil =>
      cases digestCounts lists q a <;> cases q.digestUsername.getD [] <;> simp
    | cons name names =>
      cases digestCounts lists q a <;> cases q.digestUsername.getD [] <;>
        cases a.checkDigestUsername lists _ <;> simp

def fullWeight : Nat :=
  okWeightIp + okWeightNumber + (if checkDigestUsername then okWeightDigestUsernameSet else 0)

lemma matchWeight_le (a : Assignment) :
    matchWeight lists q checkDigestUsername a ≤ fullWeight checkDigestUsername := by
  unfold matchWeight fullWeight okWeightIp okWeightNumber okWeightDigestUsernameSet
  cases checkDigestUsername with
  | false =>
    simp only [Bool.false_eq_true, if_true, if_false]
    split_ifs <;> omega
  | true =>
    simp only [Bool.true_eq_false, if_true, if_false]
    split_ifs <;> omega

/-! ## The loop -/

/-- The variables after an assignment was kept. -/
def choiceOf : Option (Nat × Assignment) → Choice
  | none => {}
  | some (id, a) =>
    { billingRuleId := a.billingRuleId
      assignmentId := id
      okWeight := (okWeight lists q checkDigestUsername a).1
      typeAssign := (okWeight lists q checkDigestUsername a).2 }

def entryWeight (e : Nat × Assignment) : Nat := matchWeight lists q checkDigestUsername e.2

/-- The search through all assignments: the first one of the greatest weight. -/
def chooseAll (l : List (Nat × Assignment)) : Option (Nat × Assignment) :=
  firstBest (entryWeight lists q checkDigestUsername) l none

lemma okWeight_choiceOf (best : Option (Nat × Assignment)) :
    (choiceOf lists q checkDigestUsername best).okWeight =
      weightOf (entryWeight lists q checkDigestUsername) best := by
  cases best with
  | none => rfl
  | some e => exact okWeight_eq_matchWeight lists q checkDigestUsername e.2

lemma chooseLoop_eq (l : List (Nat × Assignment)) (best : Option (Nat × Assignment)) :
    chooseLoop lists q checkDigestUsername l (choiceOf lists q checkDigestUsername best) =
      choiceOf lists q checkDigestUsername
        (firstBestUntil (entryWeight lists q checkDigestUsername) (fullWeight checkDigestUsername)
          l best) := by
  induction l generalizing best with
  | nil => rfl
  | cons e l ih =>
    obtain ⟨id, a⟩ := e
    have hbest := okWeight_choiceOf lists q checkDigestUsername best
    have hweight : (okWeight lists q checkDigestUsername a).1 =
        entryWeight lists q checkDigestUsername (id, a) := okWeight_eq_matchWeight _ _ _ a
    rw [chooseLoop, firstBestUntil]
    rw [hbest, hweight]
    by_cases hmore : weightOf (entryWeight lists q checkDigestUsername) best <
        entryWeight lists q checkDigestUsername (id, a)
    · rw [if_pos hmore, if_pos hmore]
      change (if _ = fullWeight checkDigestUsername then _ else _) = _
      have hkept : ({ billingRuleId := a.billingRuleId, assignmentId := id
                      okWeight := entryWeight lists q checkDigestUsername (id, a)
                      typeAssign := (okWeight lists q checkDigestUsername a).2 } : Choice) =
          choiceOf lists q checkDigestUsername (some (id, a)) := by
        rw [← hweight]
        rfl
      rw [hkept]
      split
      · rfl
      · exact ih (some (id, a))
    · rw [if_neg hmore, if_neg hmore]
      exact ih best

end Weights

/-! ## The search -/

section Search
variable (lists : Lists) (s : Assignments) (q : Query)

def Assignments.assignments : TreeMap Nat Assignment :=
  if q.typeAssignment = .operator then s.operators else s.customers

def Assignments.weight (a : Assignment) : Nat := matchWeight lists q (s.checkDigestUsername q) a

/-- The assignment has the greatest weight, and the smallest id of those that have it. -/
def Assignments.IsBest (id : Nat) (a : Assignment) : Prop :=
  (s.assignments q)[id]? = some a ∧ 0 < s.weight lists q a ∧
    ∀ (id' : Nat) a', (s.assignments q)[id']? = some a' → s.weight lists q a' ≤ s.weight lists q a ∧
      (s.weight lists q a' = s.weight lists q a → id ≤ id')

/-- The search gives the best assignment, or none when none has a weight, as the search through
all assignments does. -/
theorem findBillingRuleId_isBest :
    (((∀ (id : Nat) a, (s.assignments q)[id]? = some a → s.weight lists q a = 0) ∧
        s.findBillingRuleId lists q = (0, none)) ∨
      ∃ id a, s.IsBest lists q id a ∧ s.findBillingRuleId lists q = (a.billingRuleId,
        if a.billingRuleId ≠ 0 then
          some (id, (okWeight lists q (s.checkDigestUsername q) a).2) else none)) ∧
    (s.findBillingRuleId lists q).1 =
      ((chooseAll lists q (s.checkDigestUsername q) (s.assignments q).toList).map
        (fun e => e.2.billingRuleId)).getD 0 := by
  have hle : ∀ e ∈ (s.assignments q).toList,
      entryWeight lists q (s.checkDigestUsername q) e ≤ fullWeight (s.checkDigestUsername q) :=
    fun e _ => matchWeight_le lists q (s.checkDigestUsername q) e.2
  have hloop : chooseLoop lists q (s.checkDigestUsername q) (s.assignments q).toList {} =
      choiceOf lists q (s.checkDigestUsername q) (firstBest
        (entryWeight lists q (s.checkDigestUsername q)) (s.assignments q).toList none) := by
    rw [← firstBestUntil_eq hle]
    exact chooseLoop_eq lists q (s.checkDigestUsername q) _ none
  have hmem : ∀ (id : Nat) (a : Assignment),
      (s.assignments q)[id]? = some a ↔ (id, a) ∈ (s.assignments q).toList :=
    fun id a => TreeMap.mem_toList_iff_getElem?_eq_some.symm
  unfold Assignments.findBillingRuleId chooseAll
  dsimp only
  rw [← Assignments.assignments, hloop]
  rcases firstBest_cases (entryWeight lists q (s.checkDigestUsername q))
      (s.assignments q).toList none with
    ⟨hnone, hzero⟩ | ⟨before, e, after, hlist, hsome, hpos, hbefore, hafter⟩
  · rw [hnone]
    refine ⟨Or.inl ⟨fun id a ha => ?_, rfl⟩, rfl⟩
    exact Nat.le_zero.mp (hzero _ ((hmem id a).mp ha))
  · obtain ⟨id, a⟩ := e
    rw [hsome]
    refine ⟨Or.inr ⟨id, a, ⟨?_, hpos, ?_⟩, rfl⟩, rfl⟩
    · rw [hmem, hlist]
      exact List.mem_append_right _ List.mem_cons_self
    · intro id' a' ha'
      rw [hmem, hlist] at ha'
      have hsorted := TreeMap.ordered_keys_toList (t := s.assignments q)
      rw [hlist] at hsorted
      rcases List.mem_append.mp ha' with hfront | hback
      · have hlt := hbefore _ hfront
        exact ⟨hlt.le, fun heq => absurd heq hlt.ne⟩
      · rcases List.mem_cons.mp hback with heq | hback
        · cases heq
          exact ⟨le_rfl, fun _ => le_rfl⟩
        · have hkeys := (List.pairwise_cons.mp (List.pairwise_append.mp hsorted).2.1).1 _ hback
          exact ⟨hafter _ hback, fun _ => (compare_lt_iff_lt.mp hkeys).le⟩

end Search

end VoipMonitor.BillingAssignments
