import VoipMonitor.Model.ParsePacket

/-!
# The lists and the tree of the dictionary

Each leaf of the tree is a name of the lists, and each name has its leaf. This is kept when names
are added, and also when they are removed as long as no name is the begin of another one: the
removal of a name removes the part of the tree below it.
-/

namespace VoipMonitor.ParsePacket
open VoipMonitor.Library

/-! ## The tree -/

namespace PpNode

def leafAt : Bytes → PpNode → Option Leaf
  | [], n => n.leaf
  | c :: path, n => (n.nodes c).bind (leafAt path)

lemma leafAt_initNode (path : Bytes) : leafAt path initNode = none := by
  cases path <;> rfl

lemma leafAt_setNode (c d : UInt8) (path : Bytes) (n m : PpNode) :
    leafAt (d :: path) (n.setNode c m) =
      if d = c then leafAt path m else leafAt (d :: path) n := by
  rw [leafAt, setNode]
  change Option.bind (if d = c then some m else n.nodes d) (leafAt path) = _
  split
  · rfl
  · rfl

lemma leafAt_addNode {name : Bytes} (hname : 10 ∉ name) (path : Bytes) (l : Leaf) (n : PpNode) :
    leafAt path (addNode name l n) = if path = lower name then some l else leafAt path n := by
  induction name generalizing path n with
  | nil =>
    cases path with
    | nil => rfl
    | cons c path => rfl
  | cons c name ih =>
    have hc : c ≠ 10 := fun h => hname (by rw [h]; exact List.mem_cons_self)
    have hrest : 10 ∉ name := fun h => hname (List.mem_cons_of_mem _ h)
    have hlower : lower (c :: name) = toLower c :: lower name := rfl
    rw [addNode, if_neg hc, hlower]
    cases path with
    | nil => rfl
    | cons d path =>
      rw [leafAt_setNode, ih hrest]
      by_cases hd : d = toLower c
      · rw [if_pos hd, hd]
        by_cases hpath : path = lower name
        · rw [if_pos hpath, if_pos (by rw [hpath])]
        · rw [if_neg hpath, if_neg (by simpa using hpath), leafAt]
          cases n.nodes (toLower c) with
          | none => exact leafAt_initNode path
          | some m => rfl
      · rw [if_neg hd, if_neg (fun h => hd (List.cons.inj h).1)]

lemma leafAt_removeNode {name : Bytes} (hname : 10 ∉ name) (path : Bytes) (n : PpNode) :
    leafAt path (removeNode name n) = if lower name <+: path then none else leafAt path n := by
  induction name generalizing path n with
  | nil =>
    have hnil : lower [] <+: path := List.nil_prefix
    rw [removeNode, leafAt_initNode, if_pos hnil]
  | cons c name ih =>
    have hc : c ≠ 10 := fun h => hname (by rw [h]; exact List.mem_cons_self)
    have hrest : 10 ∉ name := fun h => hname (List.mem_cons_of_mem _ h)
    have hlower : lower (c :: name) = toLower c :: lower name := rfl
    rw [removeNode, if_neg hc, hlower]
    cases path with
    | nil =>
      rw [if_neg (by simp)]
      split <;> rfl
    | cons d path =>
      simp only [List.cons_prefix_cons]
      by_cases hd : d = toLower c
      · cases hnode : n.nodes (toLower c) with
        | none =>
          have hnone : leafAt (d :: path) n = none := by
            rw [leafAt, hd, hnode]
            rfl
          rw [hnone, ite_self]
        | some m =>
          have hleaf : leafAt (d :: path) n = leafAt path m := by
            rw [leafAt, hd, hnode]
            rfl
          rw [leafAt_setNode, if_pos hd, ih hrest, hleaf]
          simp only [hd, true_and]
      · rw [if_neg (fun h => hd h.1.symm)]
        split
        · rfl
        · rw [leafAt_setNode, if_neg hd]

lemma getContent_of_leafAt {data : Bytes} {k namelength limit : Nat} {n : PpNode} {l : Leaf}
    (hk : k ≤ data.length) (hlimit : namelength + k ≤ limit) (hzero : 0 ∉ data.take k)
    (hleaf : leafAt (lower (data.take k)) n = some l)
    (hfirst : ∀ j < k, leafAt (lower (data.take j)) n = none) :
    getContent data namelength limit n = some (l, namelength + k) := by
  induction k generalizing data namelength n with
  | zero =>
    have hl : n.leaf = some l := by simpa [lower, leafAt] using hleaf
    unfold getContent
    rw [hl]
    rfl
  | succ k ih =>
    cases data with
    | nil => exact absurd hk (by simp)
    | cons c data =>
      have hnl : n.leaf = none := by simpa [lower, leafAt] using hfirst 0 (Nat.succ_pos k)
      have hc : c ≠ 0 := by
        rintro rfl
        exact hzero (by simp)
      have hpath : ∀ j, lower ((c :: data).take (j + 1)) = toLower c :: lower (data.take j) :=
        fun j => rfl
      rw [hpath, leafAt] at hleaf
      obtain ⟨m, hm, hleaf⟩ := Option.bind_eq_some_iff.mp hleaf
      have hrest : ∀ j < k, leafAt (lower (data.take j)) m = none := by
        intro j hj
        have h := hfirst (j + 1) (by omega)
        rw [hpath, leafAt, hm] at h
        exact h
      unfold getContent
      rw [hnl]
      dsimp only
      rw [if_neg hc, hm]
      dsimp only
      rw [if_neg (by omega), ih (by simpa using hk) (by omega) _ hleaf hrest]
      · congr 2
        omega
      · intro h
        exact hzero (List.mem_cons_of_mem _ h)

lemma getContent_eq_none {data : Bytes} {namelength limit : Nat} {n : PpNode}
    (h : ∀ j ≤ data.length, leafAt (lower (data.take j)) n = none) :
    getContent data namelength limit n = none := by
  induction data generalizing namelength n with
  | nil =>
    have hnl : n.leaf = none := by simpa [lower, leafAt] using h 0 le_rfl
    unfold getContent
    rw [hnl]
  | cons c data ih =>
    have hnl : n.leaf = none := by simpa [lower, leafAt] using h 0 (Nat.zero_le _)
    unfold getContent
    rw [hnl]
    dsimp only
    split
    · rfl
    · cases hm : n.nodes (toLower c) with
      | none => rfl
      | some m =>
        dsimp only
        split
        · rfl
        · refine ih ?_
          intro j hj
          have hj' := h (j + 1) (by simpa using hj)
          rw [show lower ((c :: data).take (j + 1)) = toLower c :: lower (data.take j) from rfl,
            leafAt, hm] at hj'
          exact hj'

end PpNode

/-! ## Lists and tree -/

def IsName (name : Bytes) : Prop := name ≠ [] ∧ 10 ∉ name ∧ 0 ∉ name

instance (name : Bytes) : Decidable (IsName name) :=
  inferInstanceAs (Decidable (name ≠ [] ∧ 10 ∉ name ∧ 0 ∉ name))

def Listed (name : Bytes) : Prop := IsName name ∧ upper name = name

def NodeOf (p : Dictionary) (l : Leaf) (name : Bytes) : Prop :=
  match l.typeNode with
  | .std => p.nodesStd[l.nodeIndex]? = some (upper name)
  | .custom => p.nodesCustom[l.nodeIndex]? = some (upper name)

def InLists (p : Dictionary) (name : Bytes) : Prop := name ∈ p.nodesStd ∨ name ∈ p.nodesCustom

structure DictInv (p : Dictionary) : Prop where
  std_listed : ∀ n ∈ p.nodesStd, Listed n
  custom_listed : ∀ n ∈ p.nodesCustom, n = [] ∨ Listed n
  std_nodup : p.nodesStd.Nodup
  custom_once : ∀ n, n ≠ [] → p.nodesCustom.count n ≤ 1
  disjoint : ∀ n ∈ p.nodesCustom, n ∉ p.nodesStd
  leaf_name : ∀ path l, p.root.leafAt path = some l →
    ∃ n, Listed n ∧ path = lower n ∧ NodeOf p l n
  name_leaf : ∀ n, n ≠ [] → InLists p n → p.root.leafAt (lower n) ≠ none

structure LeafInv (p : Dictionary) : Prop where
  std_listed : ∀ n ∈ p.nodesStd, Listed n
  custom_listed : ∀ n ∈ p.nodesCustom, n = [] ∨ Listed n
  std_nodup : p.nodesStd.Nodup
  custom_once : ∀ n, n ≠ [] → p.nodesCustom.count n ≤ 1
  leaf_name : ∀ path l, p.root.leafAt path = some l →
    ∃ n, Listed n ∧ path = lower n ∧ NodeOf p l n

lemma DictInv.leafInv {p : Dictionary} (h : DictInv p) : LeafInv p :=
  ⟨h.std_listed, h.custom_listed, h.std_nodup, h.custom_once, h.leaf_name⟩

def PrefixFree (p : Dictionary) : Prop :=
  ∀ a b, a ≠ [] → InLists p a → InLists p b → lower a <+: lower b → a = b

lemma listName_eq {name : Bytes} (h : IsName name) : listName name = upper name := by
  rw [listName, if_neg]
  intro hhead
  exact h.2.1 (List.mem_of_head? hhead)

lemma isName_upper {name : Bytes} (h : IsName name) : Listed (upper name) := by
  refine ⟨⟨?_, ?_, ?_⟩, upper_upper name⟩
  · intro hnil
    exact h.1 (List.map_eq_nil_iff.mp hnil)
  · rw [mem_upper_of_lt (by decide)]
    exact h.2.1
  · rw [mem_upper_of_lt (by decide)]
    exact h.2.2

lemma Listed.listName {name : Bytes} (h : Listed name) : listName name = name := by
  rw [listName_eq h.1, h.2]

lemma Listed.eq_of_lower {a b : Bytes} (ha : Listed a) (hb : Listed b) (h : lower a = lower b) :
    a = b := by
  rw [← ha.2, ← hb.2]
  exact upper_eq_iff.mpr h

lemma NodeOf.inLists {p : Dictionary} {l : Leaf} {n : Bytes} (h : NodeOf p l n) (hn : Listed n) :
    InLists p n := by
  unfold NodeOf at h
  rw [hn.2] at h
  split at h
  · exact .inl (List.mem_of_getElem? h)
  · exact .inr (List.mem_of_getElem? h)

lemma NodeOf.mono {p q : Dictionary} {l : Leaf} {n : Bytes} (h : NodeOf p l n) (hn : Listed n)
    (hstd : ∀ j : Nat, p.nodesStd[j]? = some n → q.nodesStd[j]? = some n)
    (hcustom : ∀ j : Nat, p.nodesCustom[j]? = some n → q.nodesCustom[j]? = some n) :
    NodeOf q l n := by
  unfold NodeOf at h ⊢
  rw [hn.2] at h ⊢
  split at h
  · exact hstd _ h
  · exact hcustom _ h

lemma LeafInv.addStd {p : Dictionary} (h : LeafInv p) {name : Bytes} (hname : IsName name)
    (hstd : upper name ∉ p.nodesStd) (isContentLength : Bool) :
    LeafInv { p with
      nodesStd := p.nodesStd ++ [upper name]
      root := p.root.addNode name ⟨.std, p.nodesStd.length, isContentLength⟩ } := by
  have hlisted := isName_upper hname
  refine ⟨?_, h.custom_listed, ?_, h.custom_once, ?_⟩
  · intro n hn
    rcases List.mem_append.mp hn with hn | hn
    · exact h.std_listed n hn
    · rw [List.mem_singleton.mp hn]
      exact hlisted
  · rw [List.nodup_append]
    refine ⟨h.std_nodup, List.nodup_singleton _, ?_⟩
    intro a ha b hb hab
    rw [hab, List.mem_singleton.mp hb] at ha
    exact hstd ha
  · intro path l hl
    rw [PpNode.leafAt_addNode hname.2.1] at hl
    split at hl
    · rename_i hpath
      refine ⟨upper name, hlisted, by rw [lower_upper, hpath], ?_⟩
      rw [← Option.some.inj hl]
      simp [NodeOf]
    · obtain ⟨n, hn, hpath, hnode⟩ := h.leaf_name path l hl
      refine ⟨n, hn, hpath, hnode.mono hn ?_ (fun _ hj => hj)⟩
      intro j hj
      rw [List.getElem?_append_left (List.getElem?_eq_some_iff.mp hj).1, hj]

lemma DictInv.addNode {p : Dictionary} (h : DictInv p) {name : Bytes} (hname : IsName name)
    (isContentLength : Bool) : DictInv (addNode name isContentLength p) := by
  rw [ParsePacket.addNode, listName_eq hname]
  split
  · rename_i hnew
    obtain ⟨hstd, hcustom, -⟩ := hnew
    have hleaves := h.leafInv.addStd hname hstd isContentLength
    refine ⟨hleaves.std_listed, hleaves.custom_listed, hleaves.std_nodup, hleaves.custom_once, ?_,
      hleaves.leaf_name, ?_⟩
    · intro n hn hmem
      rcases List.mem_append.mp hmem with hmem | hmem
      · exact h.disjoint n hn hmem
      · rw [List.mem_singleton.mp hmem] at hn
        exact hcustom hn
    · intro n hn hin
      rw [PpNode.leafAt_addNode hname.2.1]
      split
      · simp
      · rename_i hpath
        refine h.name_leaf n hn ?_
        rcases hin with hin | hin
        · rcases List.mem_append.mp hin with hin | hin
          · exact .inl hin
          · rw [List.mem_singleton.mp hin, lower_upper] at hpath
            exact absurd rfl hpath
        · exact .inr hin
  · exact h

structure Fills (before after : List Bytes) (i : Nat) (name : Bytes) : Prop where
  slot : after[i]? = some name
  keep : ∀ (j : Nat) (n : Bytes), n ≠ [] → before[j]? = some n → after[j]? = some n
  count : ∀ n, n ≠ [] → after.count n = before.count n + if n = name then 1 else 0

lemma fills_append (l : List Bytes) (name : Bytes) : Fills l (l ++ [name]) l.length name where
  slot := by simp
  keep j n _ hj := by
    rw [List.getElem?_append_left (List.getElem?_eq_some_iff.mp hj).1, hj]
  count n _ := by
    rw [List.count_append, List.count_singleton]
    simp only [beq_iff_eq, eq_comm (a := n)]

lemma fills_set {l : List Bytes} {i : Nat} (hi : l[i]? = some []) (name : Bytes) :
    Fills l (l.set i name) i name := by
  obtain ⟨hlt, hget⟩ := List.getElem?_eq_some_iff.mp hi
  refine ⟨List.getElem?_set_self hlt, ?_, ?_⟩
  · intro j n hn hj
    rw [List.getElem?_set_ne, hj]
    rintro rfl
    rw [hi] at hj
    exact hn (Option.some.inj hj).symm
  · intro n hn
    rw [List.count_set hlt, hget]
    simp only [beq_iff_eq, Ne.symm hn, if_false, Nat.sub_zero, eq_comm (a := n)]

lemma Fills.mem_iff {before after : List Bytes} {i : Nat} {name n : Bytes}
    (h : Fills before after i name) (hn : n ≠ []) : n ∈ after ↔ n ∈ before ∨ n = name := by
  rw [← List.count_pos_iff, h.count n hn, ← List.count_pos_iff]
  split
  · rename_i heq
    simp [heq]
  · rename_i heq
    simp [heq]

lemma addCustomNode_cases {p : Dictionary} {name : Bytes} (hname : Listed name)
    (hstd : name ∉ p.nodesStd) (hcustom : name ∉ p.nodesCustom)
    (hroom : p.nodesCustom.countP (fun n => n ≠ []) < customMax) :
    ∃ i after, Fills p.nodesCustom after i name ∧
      addCustomNode name p = { p with
        nodesCustom := after
        root := p.root.addNode name ⟨.custom, i, false⟩ } := by
  rw [addCustomNode, hname.listName, if_pos ⟨hstd, hcustom, hroom⟩]
  cases hfree : p.nodesCustom.findIdx? (fun n => n = []) with
  | none => exact ⟨_, _, fills_append _ name, rfl⟩
  | some i =>
    obtain ⟨hi, hget, -⟩ := List.findIdx?_eq_some_iff_getElem.mp hfree
    have hslot : p.nodesCustom[i]? = some [] := by
      rw [List.getElem?_eq_getElem hi, of_decide_eq_true hget]
    exact ⟨_, _, fills_set hslot name, rfl⟩

lemma LeafInv.addCustom {p : Dictionary} (h : LeafInv p) {name : Bytes} (hname : Listed name)
    (hcustom : name ∉ p.nodesCustom) {i : Nat} {after : List Bytes}
    (hfills : Fills p.nodesCustom after i name) :
    LeafInv { p with
      nodesCustom := after
      root := p.root.addNode name ⟨.custom, i, false⟩ } := by
  refine ⟨h.std_listed, ?_, h.std_nodup, ?_, ?_⟩
  · intro n hn
    by_cases hnil : n = []
    · exact .inl hnil
    · rcases (hfills.mem_iff hnil).mp hn with hn | rfl
      · exact h.custom_listed n hn
      · exact .inr hname
  · intro n hn
    rw [hfills.count n hn]
    split
    · rename_i heq
      rw [heq, List.count_eq_zero_of_not_mem hcustom]
    · exact h.custom_once n hn
  · intro path l hl
    rw [PpNode.leafAt_addNode hname.1.2.1] at hl
    split at hl
    · rename_i hpath
      refine ⟨name, hname, hpath, ?_⟩
      rw [← Option.some.inj hl]
      simp only [NodeOf, hname.2, hfills.slot]
    · obtain ⟨n, hn, hpath, hnode⟩ := h.leaf_name path l hl
      exact ⟨n, hn, hpath, hnode.mono hn (fun _ hj => hj) (fun j hj => hfills.keep j n hn.1.1 hj)⟩

lemma DictInv.addCustomNode {p : Dictionary} (h : DictInv p) {name : Bytes} (hname : Listed name)
    (hstd : name ∉ p.nodesStd) (hcustom : name ∉ p.nodesCustom) {i : Nat} {after : List Bytes}
    (hfills : Fills p.nodesCustom after i name) :
    DictInv { p with
      nodesCustom := after
      root := p.root.addNode name ⟨.custom, i, false⟩ } := by
  have hleaves := h.leafInv.addCustom hname hcustom hfills
  refine ⟨hleaves.std_listed, hleaves.custom_listed, hleaves.std_nodup, hleaves.custom_once, ?_,
    hleaves.leaf_name, ?_⟩
  · intro n hn hmem
    have hnil : n ≠ [] := (h.std_listed n hmem).1.1
    rcases (hfills.mem_iff hnil).mp hn with hn | rfl
    · exact h.disjoint n hn hmem
    · exact hstd hmem
  · intro n hn hin
    rw [PpNode.leafAt_addNode hname.1.2.1]
    split
    · simp
    · rename_i hpath
      refine h.name_leaf n hn ?_
      rcases hin with hin | hin
      · exact .inl hin
      · rcases (hfills.mem_iff hn).mp hin with hin | rfl
        · exact .inr hin
        · exact absurd rfl hpath

lemma removeCustomNode_eq {p : Dictionary} (h : DictInv p) {name : Bytes} (hname : name ≠ [])
    (hmem : name ∈ p.nodesCustom) :
    ∃ i, p.nodesCustom[i]? = some name ∧
      removeCustomNode name p = { p with
        root := p.root.removeNode name
        nodesCustom := p.nodesCustom.set i [] } := by
  have hlisted : Listed name := (h.custom_listed name hmem).resolve_left hname
  rw [removeCustomNode, hlisted.listName]
  cases hfind : p.nodesCustom.findIdx? (fun n => n = name) with
  | none =>
    rw [List.findIdx?_eq_none_iff] at hfind
    exact absurd (hfind name hmem) (by simp)
  | some i =>
    obtain ⟨hi, hget, -⟩ := List.findIdx?_eq_some_iff_getElem.mp hfind
    refine ⟨i, ?_, rfl⟩
    rw [List.getElem?_eq_getElem hi, of_decide_eq_true hget]

lemma mem_set_nil {l : List Bytes} {i : Nat} {name : Bytes} (hi : l[i]? = some name)
    (honce : ∀ n, n ≠ [] → l.count n ≤ 1) {n : Bytes} (hn : n ≠ []) :
    n ∈ l.set i [] ↔ n ∈ l ∧ n ≠ name := by
  obtain ⟨hlt, hget⟩ := List.getElem?_eq_some_iff.mp hi
  have hcount := List.count_set (a := []) (b := n) hlt
  rw [hget] at hcount
  simp only [beq_iff_eq, Ne.symm hn, if_false, Nat.add_zero] at hcount
  rw [← List.count_pos_iff, hcount, ← List.count_pos_iff]
  by_cases heq : name = n
  · have := honce n hn
    rw [if_pos heq]
    constructor
    · omega
    · exact fun h => absurd heq.symm h.2
  · rw [if_neg heq]
    simp [Ne.symm heq]

lemma LeafInv.remove {p : Dictionary} (h : LeafInv p) {name : Bytes} {i : Nat}
    (hi : p.nodesCustom[i]? = some name) :
    LeafInv { p with
      root := p.root.removeNode name
      nodesCustom := p.nodesCustom.set i [] } := by
  have hname : 10 ∉ name := by
    rcases h.custom_listed name (List.mem_of_getElem? hi) with rfl | hlisted
    · exact List.not_mem_nil
    · exact hlisted.1.2.1
  obtain ⟨hlt, hget⟩ := List.getElem?_eq_some_iff.mp hi
  refine ⟨h.std_listed, ?_, h.std_nodup, ?_, ?_⟩
  · intro n hn
    rcases List.mem_or_eq_of_mem_set hn with hn | hnil
    · exact h.custom_listed n hn
    · exact .inl hnil
  · intro n hn
    have hcount := List.count_set (a := []) (b := n) hlt
    have honce := h.custom_once n hn
    rw [hcount]
    simp only [beq_iff_eq, Ne.symm hn, if_false, Nat.add_zero]
    omega
  · intro path l hl
    rw [PpNode.leafAt_removeNode hname] at hl
    split at hl
    · cases hl
    · rename_i hpre
      obtain ⟨n, hn, hpath, hnode⟩ := h.leaf_name path l hl
      refine ⟨n, hn, hpath, hnode.mono hn (fun _ hj => hj) ?_⟩
      intro j hj
      rw [List.getElem?_set_ne, hj]
      rintro rfl
      rw [hi] at hj
      rw [hpath, ← Option.some.inj hj] at hpre
      exact hpre (List.prefix_refl _)

lemma DictInv.removeCustomNode {p : Dictionary} (h : DictInv p) (hfree : PrefixFree p)
    {name : Bytes} (hname : name ≠ []) {i : Nat} (hi : p.nodesCustom[i]? = some name) :
    DictInv { p with
      root := p.root.removeNode name
      nodesCustom := p.nodesCustom.set i [] } := by
  have hin : name ∈ p.nodesCustom := List.mem_of_getElem? hi
  have hlisted : Listed name := (h.custom_listed name hin).resolve_left hname
  have hmem : ∀ {n : Bytes}, n ≠ [] → (n ∈ p.nodesCustom.set i [] ↔ n ∈ p.nodesCustom ∧ n ≠ name) :=
    fun hn => mem_set_nil hi h.custom_once hn
  have hleaves := h.leafInv.remove hi
  refine ⟨hleaves.std_listed, hleaves.custom_listed, hleaves.std_nodup, hleaves.custom_once, ?_,
    hleaves.leaf_name, ?_⟩
  · intro n hn hstd
    exact h.disjoint n ((hmem (h.std_listed n hstd).1.1).mp hn).1 hstd
  · intro n hn hlists
    have hother : InLists p n ∧ n ≠ name := by
      rcases hlists with hs | hc
      · exact ⟨.inl hs, fun heq => h.disjoint name hin (heq ▸ hs)⟩
      · exact ⟨.inr ((hmem hn).mp hc).1, ((hmem hn).mp hc).2⟩
    rw [PpNode.leafAt_removeNode hlisted.1.2.1, if_neg]
    · exact h.name_leaf n hn hother.1
    · intro hpre
      exact hother.2 (hfree name n hname (.inr hin) hother.1 hpre).symm

/-! ## The removal of old names -/

structure Removed (p q : Dictionary) (names : List Bytes) : Prop where
  inv : DictInv q
  std : q.nodesStd = p.nodesStd
  prepare : q.nodesCustomPrepare = p.nodesCustomPrepare
  custom : ∀ n, n ≠ [] → (n ∈ q.nodesCustom ↔ n ∈ p.nodesCustom ∧ n ∉ names)

lemma PrefixFree.mono {p q : Dictionary} (h : PrefixFree p)
    (hsub : ∀ n, n ≠ [] → InLists q n → InLists p n) : PrefixFree q := by
  intro a b ha hina hinb hpre
  have hb : b ≠ [] := by
    rintro rfl
    exact ha (List.map_eq_nil_iff.mp (List.prefix_nil.mp hpre))
  exact h a b ha (hsub a ha hina) (hsub b hb hinb) hpre

lemma removed_foldl {p : Dictionary} (h : DictInv p) (hfree : PrefixFree p) {names : List Bytes}
    (hnodup : names.Nodup) (hnames : ∀ n ∈ names, n ≠ [] ∧ n ∈ p.nodesCustom) :
    Removed p (names.foldl (fun p n => removeCustomNode n p) p) names := by
  induction names generalizing p with
  | nil => exact ⟨h, rfl, rfl, by simp⟩
  | cons name names ih =>
    obtain ⟨hne, hmem⟩ := hnames name List.mem_cons_self
    obtain ⟨hfresh, hnodup'⟩ := List.nodup_cons.mp hnodup
    obtain ⟨i, hi, heq⟩ := removeCustomNode_eq h hne hmem
    have hset : ∀ n, n ≠ [] → (n ∈ p.nodesCustom.set i [] ↔ n ∈ p.nodesCustom ∧ n ≠ name) :=
      fun n hn => mem_set_nil hi h.custom_once hn
    rw [List.foldl_cons, heq]
    have hrest := ih (h.removeCustomNode hfree hne hi) (hfree.mono ?_) hnodup' ?_
    · refine ⟨hrest.inv, hrest.std, hrest.prepare, ?_⟩
      intro n hn
      rw [hrest.custom n hn, hset n hn, List.mem_cons]
      tauto
    · rintro n hn (hs | hc)
      · exact .inl hs
      · exact .inr ((hset n hn).mp hc).1
    · intro n hn
      obtain ⟨hnn, hnm⟩ := hnames n (List.mem_cons_of_mem _ hn)
      refine ⟨hnn, (hset n hnn).mpr ⟨hnm, ?_⟩⟩
      rintro rfl
      exact hfresh hn

/-! ## The prepared names -/

structure Applied (p q : Dictionary) (names : List Bytes) : Prop where
  inv : DictInv q
  std : q.nodesStd = p.nodesStd
  custom : ∀ n, n ≠ [] → (n ∈ q.nodesCustom ↔ n ∈ p.nodesCustom ∨ n ∈ names ∧ n ∉ p.nodesStd)

lemma countP_lt_of_fresh {l : List Bytes} (honce : ∀ n, n ≠ [] → l.count n ≤ 1) {R : Finset Bytes}
    (hsub : ∀ n ∈ l, n ≠ [] → n ∈ R) {name : Bytes} (hname : name ∈ R) (hfresh : name ∉ l) :
    l.countP (fun n => n ≠ []) < R.card := by
  have hnodup : (l.filter (fun n => n ≠ [])).Nodup := by
    rw [List.nodup_iff_count_le_one]
    intro n
    by_cases hn : n = []
    · rw [List.count_eq_zero_of_not_mem]
      · exact Nat.zero_le 1
      · simp [hn]
    · exact (List.filter_sublist.count_le n).trans (honce n hn)
  have hsubset : (l.filter (fun n => n ≠ [])).toFinset ⊆ R.erase name := by
    intro n hn
    rw [List.mem_toFinset, List.mem_filter] at hn
    rw [Finset.mem_erase]
    refine ⟨?_, hsub n hn.1 (by simpa using hn.2)⟩
    rintro rfl
    exact hfresh hn.1
  have hcard := Finset.card_le_card hsubset
  rw [List.toFinset_card_of_nodup hnodup, Finset.card_erase_of_mem hname,
    ← List.countP_eq_length_filter] at hcard
  have hpos : 0 < R.card := Finset.card_pos.mpr ⟨name, hname⟩
  omega

lemma applied_foldl {p : Dictionary} (h : DictInv p) {R : Finset Bytes} (hR : R.card ≤ customMax)
    (hsub : ∀ n ∈ p.nodesCustom, n ≠ [] → n ∈ R) {names : List Bytes}
    (hnames : ∀ n ∈ names, Listed n ∧ n ∈ R) :
    Applied p (names.foldl (fun p n => if n ∉ p.nodesCustom then addCustomNode n p else p) p)
      names := by
  induction names generalizing p with
  | nil => exact ⟨h, rfl, by simp⟩
  | cons name names ih =>
    obtain ⟨hlisted, hinR⟩ := hnames name List.mem_cons_self
    have hnames' : ∀ n ∈ names, Listed n ∧ n ∈ R :=
      fun n hn => hnames n (List.mem_cons_of_mem _ hn)
    rw [List.foldl_cons]
    by_cases hcustom : name ∈ p.nodesCustom
    · -- a name that is kept
      rw [if_neg (by simpa using hcustom)]
      have hrest := ih h hsub hnames'
      refine ⟨hrest.inv, hrest.std, ?_⟩
      intro n hn
      rw [hrest.custom n hn, List.mem_cons]
      constructor
      · tauto
      · rintro (hc | ⟨rfl | hn', hs⟩)
        · exact .inl hc
        · exact .inl hcustom
        · exact .inr ⟨hn', hs⟩
    · rw [if_pos hcustom]
      by_cases hstd : name ∈ p.nodesStd
      · -- a standard name is not added
        have hskip : addCustomNode name p = p := by
          rw [addCustomNode, hlisted.listName, if_neg (fun hnew => hnew.1 hstd)]
        rw [hskip]
        have hrest := ih h hsub hnames'
        refine ⟨hrest.inv, hrest.std, ?_⟩
        intro n hn
        rw [hrest.custom n hn, List.mem_cons]
        constructor
        · tauto
        · rintro (hc | ⟨rfl | hn', hs⟩)
          · exact .inl hc
          · exact absurd hstd hs
          · exact .inr ⟨hn', hs⟩
      · have hroom : p.nodesCustom.countP (fun n => n ≠ []) < customMax :=
          (countP_lt_of_fresh h.custom_once hsub hinR hcustom).trans_le hR
        obtain ⟨i, after, hfills, heq⟩ := addCustomNode_cases hlisted hstd hcustom hroom
        rw [heq]
        have hrest := ih (h.addCustomNode hlisted hstd hcustom hfills) ?_ hnames'
        · refine ⟨hrest.inv, hrest.std, ?_⟩
          intro n hn
          rw [hrest.custom n hn, List.mem_cons]
          rw [hfills.mem_iff hn]
          constructor
          · rintro ((hc | rfl) | ⟨hn', hs⟩)
            · exact .inl hc
            · exact .inr ⟨.inl rfl, hstd⟩
            · exact .inr ⟨.inr hn', hs⟩
          · tauto
        · intro n hn hne
          rcases (hfills.mem_iff hne).mp hn with hn | rfl
          · exact hsub n hn hne
          · exact hinR

end VoipMonitor.ParsePacket
