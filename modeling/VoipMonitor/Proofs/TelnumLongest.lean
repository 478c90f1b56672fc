import VoipMonitor.Model.IpFilter

/-!
# The longest prefix of the two numbers

A node of the tree keeps the last rule with its prefix, whatever the direction. Along one number the
deepest rule for the direction is found. Between the two numbers positions are compared, which
count an escape as three characters.
-/

namespace VoipMonitor.TelnumFilter
open VoipMonitor.Library VoipMonitor.IpFilter

/-! ## What should be found -/

def digitsOf (telnum : Bytes) : Bytes := (numberChars 0 telnum).map Prod.fst

/-- The place in the raw number behind its first `n` characters. -/
def rawLength (telnum : Bytes) (n : Nat) : Nat :=
  ((numberChars 0 telnum).map Prod.snd).getD (n - 1) 0

def Payload.IsFor (p : Payload) (srcDst : Int) : Prop := p.direction = 0 ∨ p.direction = srcDst

instance (p : Payload) (srcDst : Int) : Decidable (p.IsFor srcDst) :=
  inferInstanceAs (Decidable (_ ∨ _))

def Matches (srcDst : Int) (telnum : Bytes) (p : Payload) : Prop :=
  p.IsFor srcDst ∧ p.pfx <+: digitsOf telnum

def MatchesCall (telnumSrc telnumDst : Bytes) (p : Payload) : Prop :=
  Matches 1 telnumSrc p ∨ Matches 2 telnumDst p

/-- The options of the call are those of a rule with the longest prefix, or no rule matches and
nothing is changed. -/
structure FollowsLongest (rules : List Payload) (flags : CallFlags)
    (natAliases : Option NatAliases) (telnumSrc telnumDst : Bytes) (reconfigure : Bool) : Prop where
  found : ∀ p, (find (load rules).firstNode telnumSrc telnumDst).payload = some p →
    p ∈ rules ∧ MatchesCall telnumSrc telnumDst p ∧
      ∀ q ∈ rules, MatchesCall telnumSrc telnumDst q → q.pfx.length ≤ p.pfx.length
  none_iff : (find (load rules).firstNode telnumSrc telnumDst).payload = none ↔
    ∀ q ∈ rules, ¬MatchesCall telnumSrc telnumDst q
  applied : addCallFlags (load rules) flags natAliases telnumSrc telnumDst reconfigure =
    match (find (load rules).firstNode telnumSrc telnumDst).payload with
    | some p =>
      { found := true
        flags := setCallFlagsFromFilterFlags flags p.flags reconfigure
        natAliases := combNatAliases p.natAliases natAliases }
    | none => { found := false, flags, natAliases }

/-! ## When it is found -/

def Visible (rules : List Payload) (p : Payload) : Prop :=
  rules.reverse.find? (fun q => q.pfx = p.pfx) = some p

def Longest (rules : List Payload) (srcDst : Int) (telnum : Bytes) (p : Payload) : Prop :=
  Visible rules p ∧ Matches srcDst telnum p ∧
    ∀ q, Visible rules q → Matches srcDst telnum q → q.pfx.length ≤ p.pfx.length

/-- No matching rule is hidden by one with the same prefix, unless a visible one is as long, and the
places in the two raw numbers compare like the prefixes. -/
structure PrefixesDecide (rules : List Payload) (telnumSrc telnumDst : Bytes) : Prop where
  visible : ∀ q ∈ rules, MatchesCall telnumSrc telnumDst q →
    ∃ p, Visible rules p ∧ MatchesCall telnumSrc telnumDst p ∧ q.pfx.length ≤ p.pfx.length
  places : ∀ p q, Longest rules 1 telnumSrc p → Longest rules 2 telnumDst q →
    if rawLength telnumSrc p.pfx.length < rawLength telnumDst q.pfx.length then
      p.pfx.length ≤ q.pfx.length
    else q.pfx.length ≤ p.pfx.length

/-! ## One number -/

lemma numberChars_increase (i : Nat) (telnum : Bytes) :
    (∀ x ∈ numberChars i telnum, i < x.2) ∧
      (numberChars i telnum).Pairwise (fun x y => x.2 < y.2) := by
  fun_induction numberChars i telnum with
  | case1 i rest ih =>
    refine ⟨fun x hx => ?_, List.pairwise_cons.mpr ⟨fun x hx => ih.1 x hx, ih.2⟩⟩
    rcases List.mem_cons.mp hx with rfl | hx
    · omega
    · have := ih.1 x hx
      omega
  | case2 i c rest _ ih =>
    refine ⟨fun x hx => ?_, List.pairwise_cons.mpr ⟨fun x hx => ih.1 x hx, ih.2⟩⟩
    rcases List.mem_cons.mp hx with rfl | hx
    · omega
    · have := ih.1 x hx
      omega
  | case3 i => exact ⟨fun x hx => (by cases hx), List.Pairwise.nil⟩

def own (srcDst : Int) (pos : Nat) (payload : Option Payload) : Option (Nat × Payload) :=
  match payload with
  | some p => if p.IsFor srcDst then some (pos, p) else none
  | none => none

def deepest (srcDst : Int) : List (UInt8 × Nat) → NodeTel → Option (Nat × Payload)
  | [], _ => none
  | (c, pos) :: rest, t =>
    match t.children c with
    | none => none
    | some next => (deepest srcDst rest next).or (own srcDst pos next.value)

lemma visit_eq (srcDst : Int) (pos : Nat) (payload : Option Payload) (f : Found) :
    f.visit srcDst pos payload = match own srcDst pos payload with
      | some (pos, p) => if pos > f.length then ⟨pos, some p⟩ else f
      | none => f := by
  unfold Found.visit own
  cases payload with
  | none => rfl
  | some p =>
    dsimp only
    by_cases hfor : p.IsFor srcDst
    · rw [if_pos hfor]
      by_cases hbehind : pos > f.length
      · rw [if_pos ⟨hfor, hbehind⟩]
        exact (if_pos hbehind).symm
      · rw [if_neg (fun h => hbehind h.2)]
        exact (if_neg hbehind).symm
    · rw [if_neg hfor, if_neg (fun h => hfor h.1)]

lemma own_place {srcDst : Int} {pos : Nat} {payload : Option Payload} {x : Nat × Payload}
    (h : own srcDst pos payload = some x) :
    x.1 = pos ∧ payload = some x.2 ∧ x.2.IsFor srcDst := by
  unfold own at h
  cases payload with
  | none => cases h
  | some p =>
    dsimp only at h
    split at h
    · rename_i hfor
      obtain rfl := Option.some.inj h
      exact ⟨rfl, rfl, hfor⟩
    · cases h

lemma deepest_spec (srcDst : Int) (cs : List (UInt8 × Nat)) : ∀ t : NodeTel,
    match deepest srcDst cs t with
    | some (pos, p) => ∃ k, (cs.map Prod.snd)[k]? = some pos ∧
        t.get ((cs.map Prod.fst).take (k + 1)) = some p ∧ p.IsFor srcDst ∧
        ∀ j q, k < j → j < cs.length → t.get ((cs.map Prod.fst).take (j + 1)) = some q →
          ¬q.IsFor srcDst
    | none => ∀ j q, j < cs.length → t.get ((cs.map Prod.fst).take (j + 1)) = some q →
        ¬q.IsFor srcDst := by
  induction cs with
  | nil => exact fun t j q hj => absurd hj (Nat.not_lt_zero j)
  | cons x rest ih =>
    obtain ⟨c, pos⟩ := x
    intro t
    rw [deepest]
    cases hchild : t.children c with
    | none =>
      intro j q _ hget
      rw [List.map_cons, List.take_succ_cons, Trie.get, hchild, Option.bind_none] at hget
      cases hget
    | some next =>
      have hget : ∀ j, t.get ((((c, pos) :: rest).map Prod.fst).take (j + 1)) =
          next.get ((rest.map Prod.fst).take j) := by
        intro j
        rw [List.map_cons, List.take_succ_cons, Trie.get, hchild, Option.bind_some]
      have hrest := ih next
      dsimp only
      cases hdeep : deepest srcDst rest next with
      | some y =>
        rw [hdeep] at hrest
        obtain ⟨k, hpos, hk, hfor, hlast⟩ := hrest
        rw [Option.some_or]
        refine ⟨k + 1, hpos, by rw [hget, hk], hfor, fun j q hj hlen hq => ?_⟩
        obtain ⟨j, rfl⟩ : ∃ i, j = i + 1 := ⟨j - 1, by omega⟩
        rw [hget] at hq
        exact hlast j q (by omega) (by simpa using hlen) hq
      | none =>
        rw [hdeep] at hrest
        rw [Option.none_or]
        cases hown : own srcDst pos next.value with
        | some y =>
          obtain ⟨hplace, hvalue, hfor⟩ := own_place hown
          refine ⟨0, by rw [hplace]; rfl, by rw [hget]; exact hvalue, hfor, fun j q hj hlen hq => ?_⟩
          obtain ⟨j, rfl⟩ : ∃ i, j = i + 1 := ⟨j - 1, by omega⟩
          rw [hget] at hq
          exact hrest j q (by simpa using hlen) hq
        | none =>
          intro j q hlen hq
          rw [hget] at hq
          cases j with
          | zero =>
            intro hfor
            have hvalue : next.value = some q := hq
            rw [hvalue, own, if_pos hfor] at hown
            cases hown
          | succ j => exact hrest j q (by simpa using hlen) hq

lemma follow_eq (srcDst : Int) (cs : List (UInt8 × Nat)) : ∀ (t : NodeTel) (f : Found),
    cs.Pairwise (fun x y => x.2 < y.2) →
    follow srcDst cs t f = match deepest srcDst cs t with
      | some (pos, p) => if pos > f.length then ⟨pos, some p⟩ else f
      | none => f := by
  induction cs with
  | nil => exact fun _ _ _ => rfl
  | cons x rest ih =>
    obtain ⟨c, pos⟩ := x
    intro t f hincrease
    obtain ⟨hfirst, hrest⟩ := List.pairwise_cons.mp hincrease
    rw [follow, deepest]
    cases t.children c with
    | none => rfl
    | some next =>
      dsimp only
      rw [ih next _ hrest, visit_eq]
      have hspec := deepest_spec srcDst rest next
      cases hdeep : deepest srcDst rest next with
      | none => rw [Option.none_or]
      | some y =>
        obtain ⟨pos', p'⟩ := y
        rw [hdeep] at hspec
        obtain ⟨k, hpos, -⟩ := hspec
        have hlt : pos < pos' := by
          obtain ⟨z, hz, rfl⟩ := List.mem_map.mp (List.mem_of_getElem? hpos)
          exact hfirst z hz
        rw [Option.some_or]
        cases hown : own srcDst pos next.value with
        | none => rfl
        | some z =>
          obtain ⟨hplace, -, -⟩ := own_place hown
          obtain ⟨posz, pz⟩ := z
          subst hplace
          by_cases hbehind : posz > f.length
          · simp only [if_pos hbehind]
            rw [if_pos (show pos' > posz from hlt), if_pos (show pos' > f.length by omega)]
          · simp only [if_neg hbehind]

/-! ## The tree of the rules -/

variable {rules : List Payload} {telnumSrc telnumDst : Bytes}

lemma get_load (rules : List Payload) (key : Bytes) :
    (load rules).firstNode.get key = rules.reverse.find? (fun q => q.pfx = key) := by
  change (rules.foldl addPayload .empty).get key = _
  induction rules using List.reverseRecOn with
  | nil => exact Trie.get_empty key
  | append_singleton rules x ih =>
    rw [List.foldl_append, List.foldl_cons, List.foldl_nil, addPayload, Trie.get_insert, ih,
      List.reverse_append, List.reverse_singleton, List.singleton_append, List.find?_cons]
    by_cases hkey : key = x.pfx
    · rw [if_pos hkey, decide_eq_true hkey.symm]
    · rw [if_neg hkey, decide_eq_false (fun h => hkey h.symm)]

lemma visible_of_get {key : Bytes} {p : Payload} (h : (load rules).firstNode.get key = some p) :
    Visible rules p ∧ p.pfx = key := by
  rw [get_load] at h
  have hkey : p.pfx = key := by simpa using List.find?_some h
  exact ⟨by rw [Visible, hkey, h], hkey⟩

lemma Visible.mem {p : Payload} (h : Visible rules p) : p ∈ rules :=
  List.mem_reverse.mp (List.mem_of_find?_eq_some h)

lemma deepest_load (rules : List Payload) (srcDst : Int) (telnum : Bytes) :
    match deepest srcDst (numberChars 0 telnum) (load rules).firstNode with
    | some (pos, p) => Longest rules srcDst telnum p ∧ pos = rawLength telnum p.pfx.length
    | none => ∀ q, Visible rules q → ¬Matches srcDst telnum q := by
  have hlength : ((numberChars 0 telnum).map Prod.fst).length = (numberChars 0 telnum).length :=
    List.length_map _
  -- a visible rule that matches is met at its own depth
  have hmet : ∀ q, Visible rules q → Matches srcDst telnum q →
      ∃ j, j + 1 = q.pfx.length ∧ j < (numberChars 0 telnum).length ∧
        (load rules).firstNode.get (((numberChars 0 telnum).map Prod.fst).take (j + 1)) =
          some q := by
    intro q hq hmatch
    have hpos : 0 < q.pfx.length := List.length_pos_iff.mpr q.pfx_ne
    have hle := hmatch.2.length_le
    unfold digitsOf at hle
    have htake := List.prefix_iff_eq_take.mp hmatch.2
    unfold digitsOf at htake
    refine ⟨q.pfx.length - 1, by omega, by omega, ?_⟩
    rw [show q.pfx.length - 1 + 1 = q.pfx.length by omega, ← htake, get_load]
    exact hq
  have hspec := deepest_spec srcDst (numberChars 0 telnum) (load rules).firstNode
  cases hdeep : deepest srcDst (numberChars 0 telnum) (load rules).firstNode with
  | none =>
    rw [hdeep] at hspec
    intro q hq hmatch
    obtain ⟨j, -, hlt, hget⟩ := hmet q hq hmatch
    exact hspec j q hlt hget hmatch.1
  | some x =>
    obtain ⟨pos, p⟩ := x
    rw [hdeep] at hspec
    obtain ⟨k, hpos, hget, hfor, hlast⟩ := hspec
    obtain ⟨hvisible, hkey⟩ := visible_of_get hget
    have hk : k < (numberChars 0 telnum).length := by
      have := (List.getElem?_eq_some_iff.mp hpos).1
      rwa [List.length_map] at this
    have hplen : p.pfx.length = k + 1 := by
      rw [hkey, List.length_take, hlength]
      omega
    refine ⟨⟨hvisible, ⟨hfor, hkey ▸ List.take_prefix _ _⟩, fun q hq hmatch => ?_⟩, ?_⟩
    · obtain ⟨j, hj, hlt, hgetq⟩ := hmet q hq hmatch
      by_contra hlong
      exact hlast j q (by omega) hlt hgetq hmatch.1
    · rw [rawLength, hplen, Nat.add_sub_cancel, List.getD_eq_getElem?_getD, hpos]
      rfl

lemma Longest.place_pos {srcDst : Int} {telnum : Bytes} {p : Payload}
    (h : Longest rules srcDst telnum p) : 0 < rawLength telnum p.pfx.length := by
  have hpos : 0 < p.pfx.length := List.length_pos_iff.mpr p.pfx_ne
  have hle := h.2.1.2.length_le
  rw [digitsOf, List.length_map] at hle
  have hlt : p.pfx.length - 1 < ((numberChars 0 telnum).map Prod.snd).length := by
    rw [List.length_map]
    omega
  rw [rawLength, List.getD_eq_getElem?_getD, List.getElem?_eq_getElem hlt, Option.getD_some]
  obtain ⟨x, hx, hx'⟩ := List.mem_map.mp (List.getElem_mem hlt)
  rw [← hx']
  exact (numberChars_increase 0 telnum).1 x hx

lemma exists_longest {srcDst : Int} {telnum : Bytes} {p : Payload} (hp : Visible rules p)
    (hmatch : Matches srcDst telnum p) :
    ∃ q, Longest rules srcDst telnum q ∧ p.pfx.length ≤ q.pfx.length := by
  have hspec := deepest_load rules srcDst telnum
  cases hdeep : deepest srcDst (numberChars 0 telnum) (load rules).firstNode with
  | none =>
    rw [hdeep] at hspec
    exact absurd hmatch (hspec p hp)
  | some x =>
    rw [hdeep] at hspec
    exact ⟨x.2, hspec.1, hspec.1.2.2 p hp hmatch⟩

lemma Longest.length_eq {rules : List Payload} {srcDst : Int} {telnum : Bytes} {p q : Payload}
    (hp : Longest rules srcDst telnum p) (hq : Longest rules srcDst telnum q) :
    p.pfx.length = q.pfx.length :=
  Nat.le_antisymm (hq.2.2 p hp.1 hp.2.1) (hp.2.2 q hq.1 hq.2.1)

/-- What the loop over both numbers finds: the longest rule whose place is farther behind, and the
one for the caller when the places are the same. -/
lemma find_spec (rules : List Payload) (telnumSrc telnumDst : Bytes) :
    match (find (load rules).firstNode telnumSrc telnumDst).payload with
    | some r => (Longest rules 1 telnumSrc r ∧ ∀ q, Longest rules 2 telnumDst q →
          ¬rawLength telnumSrc r.pfx.length < rawLength telnumDst q.pfx.length) ∨
        (Longest rules 2 telnumDst r ∧ ∀ p, Longest rules 1 telnumSrc p →
          rawLength telnumSrc p.pfx.length < rawLength telnumDst r.pfx.length)
    | none => ∀ q, Visible rules q → ¬MatchesCall telnumSrc telnumDst q := by
  have hsrc := deepest_load rules 1 telnumSrc
  have hdst := deepest_load rules 2 telnumDst
  have hfirst := follow_eq 1 _ (load rules).firstNode {} (numberChars_increase 0 telnumSrc).2
  cases hdeepSrc : deepest 1 (numberChars 0 telnumSrc) (load rules).firstNode with
  | none =>
    rw [hdeepSrc] at hsrc hfirst
    rw [find, hfirst, follow_eq 2 _ _ _ (numberChars_increase 0 telnumDst).2]
    cases hdeepDst : deepest 2 (numberChars 0 telnumDst) (load rules).firstNode with
    | none =>
      rw [hdeepDst] at hdst
      exact fun q hq hmatch => hmatch.elim (hsrc q hq) (hdst q hq)
    | some y =>
      obtain ⟨pos, q⟩ := y
      rw [hdeepDst] at hdst
      obtain ⟨hlongest, rfl⟩ := hdst
      dsimp only
      rw [if_pos hlongest.place_pos]
      exact Or.inr ⟨hlongest, fun p hp => absurd hp.2.1 (hsrc p hp.1)⟩
  | some x =>
    obtain ⟨pos, p⟩ := x
    rw [hdeepSrc] at hsrc hfirst
    obtain ⟨hlongestSrc, rfl⟩ := hsrc
    dsimp only at hfirst
    rw [if_pos hlongestSrc.place_pos] at hfirst
    rw [find, hfirst, follow_eq 2 _ _ _ (numberChars_increase 0 telnumDst).2]
    cases hdeepDst : deepest 2 (numberChars 0 telnumDst) (load rules).firstNode with
    | none =>
      rw [hdeepDst] at hdst
      exact Or.inl ⟨hlongestSrc, fun q hq => absurd hq.2.1 (hdst q hq.1)⟩
    | some y =>
      obtain ⟨pos', q⟩ := y
      rw [hdeepDst] at hdst
      obtain ⟨hlongestDst, rfl⟩ := hdst
      dsimp only
      by_cases hbehind : rawLength telnumDst q.pfx.length > rawLength telnumSrc p.pfx.length
      · rw [if_pos hbehind]
        refine Or.inr ⟨hlongestDst, fun r hr => ?_⟩
        rw [hr.length_eq hlongestSrc]
        exact hbehind
      · rw [if_neg hbehind]
        refine Or.inl ⟨hlongestSrc, fun r hr => ?_⟩
        rw [hr.length_eq hlongestDst]
        exact hbehind

lemma addCallFlags_found (rules : List Payload) (flags : CallFlags)
    (natAliases : Option NatAliases) (reconfigure : Bool) :
    addCallFlags (load rules) flags natAliases telnumSrc telnumDst reconfigure =
      match (find (load rules).firstNode telnumSrc telnumDst).payload with
      | some p =>
        { found := true
          flags := setCallFlagsFromFilterFlags flags p.flags reconfigure
          natAliases := combNatAliases p.natAliases natAliases }
      | none => { found := false, flags, natAliases } := by
  unfold addCallFlags
  split
  · rename_i hcount
    have hnil : rules = [] := List.length_eq_zero_iff.mp hcount
    have hfind := find_spec rules telnumSrc telnumDst
    subst hnil
    cases hpayload : (find (load []).firstNode telnumSrc telnumDst).payload with
    | none => rfl
    | some r =>
      rw [hpayload] at hfind
      rcases hfind with ⟨hr, -⟩ | ⟨hr, -⟩
      · cases hr.1.mem
      · cases hr.1.mem
  · rfl

/-- For every list of rules and pair of numbers: a rule with the longest prefix is applied, exactly
when the prefixes decide. -/
theorem follows_longest_iff (rules : List Payload) (flags : CallFlags)
    (natAliases : Option NatAliases) (telnumSrc telnumDst : Bytes) (reconfigure : Bool) :
    FollowsLongest rules flags natAliases telnumSrc telnumDst reconfigure ↔
      PrefixesDecide rules telnumSrc telnumDst := by
  have hfind := find_spec rules telnumSrc telnumDst
  constructor
  · rintro ⟨hfound, hnone, -⟩
    cases hpayload : (find (load rules).firstNode telnumSrc telnumDst).payload with
    | none =>
      have hno := hnone.mp hpayload
      exact ⟨fun q hq hmatch => absurd hmatch (hno q hq),
        fun p q hp => absurd (Or.inl hp.2.1) (hno p hp.1.mem)⟩
    | some r =>
      rw [hpayload] at hfind
      obtain ⟨hmem, hmatch, hlong⟩ := hfound r hpayload
      have hvisible : Visible rules r := hfind.elim (fun h => h.1.1) (fun h => h.1.1)
      refine ⟨fun q hq hq' => ⟨r, hvisible, hmatch, hlong q hq hq'⟩, fun p q hp hq => ?_⟩
      rcases hfind with ⟨hr, hplace⟩ | ⟨hr, hplace⟩
      · rw [hp.length_eq hr, if_neg (hplace q hq)]
        exact hlong q hq.1.mem (Or.inr hq.2.1)
      · rw [hq.length_eq hr, if_pos (hplace p hp)]
        exact hlong p hp.1.mem (Or.inl hp.2.1)
  · rintro ⟨hvisible, hplaces⟩
    refine ⟨fun r hpayload => ?_, ⟨fun hpayload q hq hmatch => ?_, fun hno => ?_⟩,
      addCallFlags_found rules flags natAliases reconfigure⟩
    · rw [hpayload] at hfind
      rcases hfind with ⟨hr, hplace⟩ | ⟨hr, hplace⟩
      · refine ⟨hr.1.mem, Or.inl hr.2.1, fun q hq hmatch => ?_⟩
        obtain ⟨p, hp, hpmatch, hle⟩ := hvisible q hq hmatch
        rcases hpmatch with hsrc | hdst
        · exact hle.trans (hr.2.2 p hp hsrc)
        · obtain ⟨t, ht, hpt⟩ := exists_longest hp hdst
          have htr := hplaces r t hr ht
          rw [if_neg (hplace t ht)] at htr
          omega
      · refine ⟨hr.1.mem, Or.inr hr.2.1, fun q hq hmatch => ?_⟩
        obtain ⟨p, hp, hpmatch, hle⟩ := hvisible q hq hmatch
        rcases hpmatch with hsrc | hdst
        · obtain ⟨t, ht, hpt⟩ := exists_longest hp hsrc
          have htr := hplaces t r ht hr
          rw [if_pos (hplace t ht)] at htr
          omega
        · exact hle.trans (hr.2.2 p hp hdst)
    · rw [hpayload] at hfind
      obtain ⟨p, hp, hpmatch, -⟩ := hvisible q hq hmatch
      exact hfind p hp hpmatch
    · cases hpayload : (find (load rules).firstNode telnumSrc telnumDst).payload with
      | none => rfl
      | some r =>
        rw [hpayload] at hfind
        rcases hfind with ⟨hr, -⟩ | ⟨hr, -⟩
        · exact absurd (Or.inl hr.2.1) (hno r hr.1.mem)
        · exact absurd (Or.inr hr.2.1) (hno r hr.1.mem)

/-- The rules for callers and for called with the prefix `1`. -/
def ruleFrom1 : Payload := ⟨[49], 1, captFlag .sip, none, by decide, by decide, by simp⟩

def ruleTo1 : Payload := ⟨[49], 2, captFlag .rtcp, none, by decide, by decide, by simp⟩

/-- A rule for callers with the prefix `#` and one for called with the prefix `11`. -/
def ruleHash : Payload := ⟨[35], 1, captFlag .sip, none, by decide, by decide, by simp⟩

def rule11 : Payload := ⟨[49, 49], 2, captFlag .rtcp, none, by decide, by decide, by simp⟩

/-- The rule for callers with the prefix `1` is replaced by the one for called, so a call from `1`
to `2` finds no rule. For a caller `%23` and a called `11` the rule `#` is taken instead of `11`. -/
theorem shorter_prefix_found :
    ¬FollowsLongest [ruleFrom1, ruleTo1] 0 none [49] [50] false ∧
      ¬FollowsLongest [ruleHash, rule11] 0 none [37, 50, 51] [49, 49] false := by
  constructor
  · intro h
    have hno := h.none_iff.mp (by rfl) ruleFrom1 (by simp)
    exact hno (Or.inl ⟨Or.inr rfl, by decide⟩)
  · intro h
    have hfound := h.found ruleHash (by rfl)
    have hlong := hfound.2.2 rule11 (by simp) (Or.inr ⟨Or.inr rfl, by decide⟩)
    exact absurd hlong (by decide)

end VoipMonitor.TelnumFilter
