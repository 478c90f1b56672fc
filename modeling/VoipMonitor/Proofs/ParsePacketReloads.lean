import VoipMonitor.Library.Runs
import VoipMonitor.Proofs.ParsePacketDictionary

/-!
# The dictionary after reloads

A reload takes the old custom names out of the dictionary and puts the new ones in. The name in
an empty slot is the empty one, and with it the whole tree is removed. So the names are found
after every reload as long as none of them begins with an empty slot.
-/

namespace VoipMonitor.ParsePacket
open VoipMonitor.Library

/-! ## The steps before the custom names are applied -/

inductive Op where
  | std (name : Bytes) (isContentLength : Bool)
  | prepare (name : Bytes)

def doOp (p : Dictionary) : Op → Dictionary
  | .std name isContentLength => addNode name isContentLength p
  | .prepare name => prepareCustomNode name p

def stdOps (names : List Bytes) : List Op := names.map (fun n => .std n false)

def ops (o : Options) (customHeaders headerFilter : List Bytes) : List Op :=
  [.std (ascii "content-length:") true, .std (ascii "l:") true] ++ stdOps (stdNames o) ++
    customHeaders.map .prepare ++
    stdOps (when o.kamailio ["X-Siptrace-Fromip:", "X-Siptrace-Toip:", "X-Siptrace-Time:"]) ++
    stdOps (when o.ribbonsbc ["srcIP:", "dstIP:"]) ++ headerFilter.map .prepare ++
    stdOps (when o.conferenceProcessing ["event:", "subscription-state:", "referred-by:"])

/-- The names that `setStdParse` adds as standard names. -/
def allStdNames (o : Options) : List Bytes :=
  [ascii "content-length:", ascii "l:"] ++ stdNames o ++
    when o.kamailio ["X-Siptrace-Fromip:", "X-Siptrace-Toip:", "X-Siptrace-Time:"] ++
    when o.ribbonsbc ["srcIP:", "dstIP:"] ++
    when o.conferenceProcessing ["event:", "subscription-state:", "referred-by:"]

lemma setStdParse_eq (o : Options) (customHeaders headerFilter : List Bytes) (p : Dictionary) :
    setStdParse o customHeaders headerFilter p =
      applyCustomNodes ((ops o customHeaders headerFilter).foldl doOp p) := by
  simp only [ops, stdOps, List.foldl_append, List.foldl_map, List.foldl_cons, List.foldl_nil, doOp]
  rfl

lemma mem_std_ops {o : Options} {customHeaders headerFilter : List Bytes} {n : Bytes} :
    (∃ b, Op.std n b ∈ ops o customHeaders headerFilter) ↔ n ∈ allStdNames o := by
  simp [ops, stdOps, allStdNames, exists_or]

lemma mem_prepare_ops {o : Options} {customHeaders headerFilter : List Bytes} {n : Bytes} :
    Op.prepare n ∈ ops o customHeaders headerFilter ↔ n ∈ customHeaders ++ headerFilter := by
  simp [ops, stdOps]

structure Grown (p q : Dictionary) (steps : List Op) : Prop where
  inv : DictInv q
  custom : q.nodesCustom = p.nodesCustom
  std : ∀ n, n ∈ q.nodesStd ↔ n ∈ p.nodesStd ∨ ∃ m b, Op.std m b ∈ steps ∧ n = upper m
  prepare : ∀ n, n ∈ q.nodesCustomPrepare ↔
    n ∈ p.nodesCustomPrepare ∨ ∃ m, Op.prepare m ∈ steps ∧ n = upper m

lemma DictInv.congr {p q : Dictionary} (h : DictInv p) (hroot : q.root = p.root)
    (hstd : q.nodesStd = p.nodesStd) (hcustom : q.nodesCustom = p.nodesCustom) : DictInv q := by
  obtain ⟨root', nodesStd', nodesCustom', prepare'⟩ := q
  subst hroot hstd hcustom
  exact ⟨h.1, h.2, h.3, h.4, h.5, h.6, h.7⟩

lemma addNode_lists {p : Dictionary} (h : DictInv p) {S : Finset Bytes} (hS : S.card ≤ stdMax)
    (hsub : ∀ n ∈ p.nodesStd, n ∈ S) {name : Bytes} (hname : IsName name) (hinS : upper name ∈ S)
    (hcustom : upper name ∉ p.nodesCustom) (isContentLength : Bool) :
    (addNode name isContentLength p).nodesCustom = p.nodesCustom ∧
      (addNode name isContentLength p).nodesCustomPrepare = p.nodesCustomPrepare ∧
      ∀ n, n ∈ (addNode name isContentLength p).nodesStd ↔ n ∈ p.nodesStd ∨ n = upper name := by
  rw [addNode, listName_eq hname]
  split
  · refine ⟨rfl, rfl, ?_⟩
    intro n
    rw [List.mem_append, List.mem_singleton]
  · rename_i hold
    have hmem : upper name ∈ p.nodesStd := by
      by_contra hfresh
      refine hold ⟨hfresh, hcustom, ?_⟩
      have hsubset : p.nodesStd.toFinset ⊆ S.erase (upper name) := by
        intro n hn
        rw [List.mem_toFinset] at hn
        rw [Finset.mem_erase]
        refine ⟨?_, hsub n hn⟩
        rintro rfl
        exact hfresh hn
      have hcard := Finset.card_le_card hsubset
      rw [List.toFinset_card_of_nodup h.std_nodup, Finset.card_erase_of_mem hinS] at hcard
      have hpos : 0 < S.card := Finset.card_pos.mpr ⟨_, hinS⟩
      omega
    refine ⟨rfl, rfl, ?_⟩
    intro n
    constructor
    · exact .inl
    · rintro (hn | rfl)
      · exact hn
      · exact hmem

lemma grown_foldl {p : Dictionary} (h : DictInv p) {S : Finset Bytes} (hS : S.card ≤ stdMax)
    (hsub : ∀ n ∈ p.nodesStd, n ∈ S) (hcustom : ∀ n ∈ S, n ∉ p.nodesCustom) {steps : List Op}
    (hstd : ∀ n b, Op.std n b ∈ steps → IsName n ∧ upper n ∈ S)
    (hprepare : ∀ n, Op.prepare n ∈ steps → IsName n) :
    Grown p (steps.foldl doOp p) steps := by
  induction steps generalizing p with
  | nil => exact ⟨h, rfl, by simp, by simp⟩
  | cons op steps ih =>
    have hstd' : ∀ n b, Op.std n b ∈ steps → IsName n ∧ upper n ∈ S :=
      fun n b hn => hstd n b (List.mem_cons_of_mem _ hn)
    have hprepare' : ∀ n, Op.prepare n ∈ steps → IsName n :=
      fun n hn => hprepare n (List.mem_cons_of_mem _ hn)
    rw [List.foldl_cons]
    cases op with
    | std name b =>
      obtain ⟨hname, hinS⟩ := hstd name b List.mem_cons_self
      obtain ⟨hc, hpr, hs⟩ := addNode_lists h hS hsub hname hinS (hcustom _ hinS) b
      have hrest := ih (p := addNode name b p) (h.addNode hname b) ?_ ?_ hstd' hprepare'
      · refine ⟨hrest.inv, hrest.custom.trans hc, ?_, ?_⟩
        · intro n
          rw [doOp, hrest.std, hs]
          simp only [List.mem_cons, Op.std.injEq]
          constructor
          · rintro ((hn | rfl) | ⟨m, b', hm, rfl⟩)
            · exact .inl hn
            · exact .inr ⟨name, b, .inl ⟨rfl, rfl⟩, rfl⟩
            · exact .inr ⟨m, b', .inr hm, rfl⟩
          · rintro (hn | ⟨m, b', ⟨rfl, -⟩ | hm, rfl⟩)
            · exact .inl (.inl hn)
            · exact .inl (.inr rfl)
            · exact .inr ⟨m, b', hm, rfl⟩
        · intro n
          rw [doOp, hrest.prepare, hpr]
          simp
      · intro n hn
        rcases (hs n).mp hn with hn | rfl
        · exact hsub n hn
        · exact hinS
      · intro n hn
        rw [hc]
        exact hcustom n hn
    | prepare name =>
      have hname := hprepare name List.mem_cons_self
      have hsame : (prepareCustomNode name p).root = p.root ∧
          (prepareCustomNode name p).nodesStd = p.nodesStd ∧
          (prepareCustomNode name p).nodesCustom = p.nodesCustom := by
        unfold prepareCustomNode
        dsimp only
        split <;> exact ⟨rfl, rfl, rfl⟩
      have hpr : ∀ n, n ∈ (prepareCustomNode name p).nodesCustomPrepare ↔
          n ∈ p.nodesCustomPrepare ∨ n = upper name := by
        intro n
        rw [prepareCustomNode, listName_eq hname]
        split
        · rw [List.mem_append, List.mem_singleton]
        · rename_i hold
          rw [not_not] at hold
          constructor
          · exact .inl
          · rintro (hn | rfl)
            · exact hn
            · exact hold
      have hrest := ih (p := prepareCustomNode name p) (h.congr hsame.1 hsame.2.1 hsame.2.2)
        (by rwa [hsame.2.1]) (by rwa [hsame.2.2]) hstd' hprepare'
      refine ⟨hrest.inv, hrest.custom.trans hsame.2.2, ?_, ?_⟩
      · intro n
        rw [doOp, hrest.std, hsame.2.1]
        simp
      · intro n
        rw [doOp, hrest.prepare, hpr]
        simp only [List.mem_cons, Op.prepare.injEq]
        constructor
        · rintro ((hn | rfl) | ⟨m, hm, rfl⟩)
          · exact .inl hn
          · exact .inr ⟨name, .inl rfl, rfl⟩
          · exact .inr ⟨m, .inr hm, rfl⟩
        · rintro (hn | ⟨m, rfl | hm, rfl⟩)
          · exact .inl (.inl hn)
          · exact .inl (.inr rfl)
          · exact .inr ⟨m, hm, rfl⟩

/-! ## Reloads -/

structure Reload (o : Options) where
  customHeaders : List Bytes
  headerFilter : List Bytes
  isName : ∀ n ∈ allStdNames o ++ (customHeaders ++ headerFilter), IsName n
  prefixFree : ∀ a ∈ allStdNames o ++ (customHeaders ++ headerFilter),
    ∀ b ∈ allStdNames o ++ (customHeaders ++ headerFilter), lower a <+: lower b → lower a = lower b
  std_max : ((allStdNames o).map upper).toFinset.card ≤ stdMax
  custom_max : ((customHeaders ++ headerFilter).map upper).toFinset.card ≤ customMax

variable {o : Options}

def Reload.custom (r : Reload o) : List Bytes := r.customHeaders ++ r.headerFilter

def reload (p : Dictionary) (r : Reload o) : Dictionary :=
  setStdParse o r.customHeaders r.headerFilter p

/-- Every line that begins with one of the names gives the node of this name, and every other
line gives none. -/
def Recognises (p : Dictionary) (names : List Bytes) : Prop :=
  ∀ line, (∀ name ∈ names, lower name <+: lower line →
      ∃ l, getNode line line.length p = some (l, name.length) ∧ NodeOf p l name) ∧
    ((∀ name ∈ names, ¬lower name <+: lower line) → getNode line line.length p = none)

/-- What the lists are between reloads: nothing before the first one, then the standard names
and the custom ones. -/
structure Loaded (o : Options) (p : Dictionary) : Prop where
  inv : DictInv p
  prefixFree : PrefixFree p
  prepare : p.nodesCustomPrepare = []
  std : (p.nodesStd = [] ∧ p.nodesCustom = []) ∨
    ∀ n, n ∈ p.nodesStd ↔ n ∈ (allStdNames o).map upper

lemma loaded_empty : Loaded o empty where
  inv := by
    refine ⟨by simp [empty], by simp [empty], List.nodup_nil, by simp [empty], by simp [empty],
      ?_, by simp [empty, InLists]⟩
    intro path l hl
    rw [show empty.root = .initNode from rfl, PpNode.leafAt_initNode] at hl
    cases hl
  prefixFree a b _ ha := by simp [empty, InLists] at ha
  prepare := rfl
  std := .inl ⟨rfl, rfl⟩

def beforeApply (p : Dictionary) (r : Reload o) : Dictionary :=
  (ops o r.customHeaders r.headerFilter).foldl doOp p

structure Prepared (p q : Dictionary) (r : Reload o) : Prop where
  inv : DictInv q
  prefixFree : PrefixFree q
  custom : q.nodesCustom = p.nodesCustom
  std : ∀ n, n ∈ q.nodesStd ↔ n ∈ (allStdNames o).map upper
  prepare : ∀ n, n ∈ q.nodesCustomPrepare ↔ n ∈ r.custom.map upper

lemma prepared_beforeApply {p : Dictionary} (h : Loaded o p) (r : Reload o) :
    Prepared p (beforeApply p r) r := by
  have hnames : ∀ n ∈ allStdNames o, IsName n := fun n hn =>
    r.isName n (List.mem_append_left _ hn)
  have hsub : ∀ n ∈ p.nodesStd, n ∈ ((allStdNames o).map upper).toFinset := by
    intro n hn
    rcases h.std with hnone | hall
    · rw [hnone.1] at hn
      cases hn
    · exact List.mem_toFinset.mpr ((hall n).mp hn)
  have hfresh : ∀ n ∈ ((allStdNames o).map upper).toFinset, n ∉ p.nodesCustom := by
    intro n hn hc
    rcases h.std with hnone | hall
    · rw [hnone.2] at hc
      cases hc
    · exact h.inv.disjoint n hc ((hall n).mpr (List.mem_toFinset.mp hn))
  have hgrown : Grown p (beforeApply p r) (ops o r.customHeaders r.headerFilter) := by
    refine grown_foldl h.inv r.std_max hsub hfresh ?_ ?_
    · intro n b hn
      have hmem : n ∈ allStdNames o := mem_std_ops.mp ⟨b, hn⟩
      exact ⟨hnames n hmem, List.mem_toFinset.mpr (List.mem_map_of_mem hmem)⟩
    · intro n hn
      exact r.isName n (List.mem_append_right _ (mem_prepare_ops.mp hn))
  have hstd : ∀ n, n ∈ (beforeApply p r).nodesStd ↔ n ∈ (allStdNames o).map upper := by
    intro n
    rw [hgrown.std]
    constructor
    · rintro (hn | ⟨m, b, hm, rfl⟩)
      · exact List.mem_toFinset.mp (hsub n hn)
      · exact List.mem_map_of_mem (mem_std_ops.mp ⟨b, hm⟩)
    · intro hn
      obtain ⟨m, hm, rfl⟩ := List.mem_map.mp hn
      obtain ⟨b, hb⟩ := mem_std_ops.mpr hm
      exact .inr ⟨m, b, hb, rfl⟩
  refine ⟨hgrown.inv, ?_, hgrown.custom, hstd, ?_⟩
  · rcases h.std with hnone | hall
    · -- only standard names
      intro a b _ ha hb hpre
      have hin : ∀ n, InLists (beforeApply p r) n → n ∈ (allStdNames o).map upper := by
        rintro n (hs | hc)
        · exact (hstd n).mp hs
        · rw [hgrown.custom, hnone.2] at hc
          cases hc
      obtain ⟨a', ha', rfl⟩ := List.mem_map.mp (hin a ha)
      obtain ⟨b', hb', rfl⟩ := List.mem_map.mp (hin b hb)
      rw [lower_upper, lower_upper] at hpre
      exact upper_eq_iff.mpr (r.prefixFree a' (List.mem_append_left _ ha') b'
        (List.mem_append_left _ hb') hpre)
    · refine h.prefixFree.mono ?_
      rintro n _ (hs | hc)
      · exact .inl ((hall n).mpr ((hstd n).mp hs))
      · rw [hgrown.custom] at hc
        exact .inr hc
  · intro n
    rw [hgrown.prepare, h.prepare]
    constructor
    · rintro (hn | ⟨m, hm, rfl⟩)
      · cases hn
      · exact List.mem_map_of_mem (mem_prepare_ops.mp hm)
    · intro hn
      obtain ⟨m, hm, rfl⟩ := List.mem_map.mp hn
      exact .inr ⟨m, mem_prepare_ops.mpr hm, rfl⟩

lemma reload_eq (p : Dictionary) (r : Reload o) :
    reload p r = applyCustomNodes (beforeApply p r) := setStdParse_eq _ _ _ _

lemma Prepared.applyCustomNodes {p q : Dictionary} {r : Reload o} (h : Prepared p q r)
    (hslots : [] ∉ p.nodesCustom) :
    DictInv (applyCustomNodes q) ∧ (applyCustomNodes q).nodesCustomPrepare = [] ∧
      (∀ n, n ∈ (applyCustomNodes q).nodesStd ↔ n ∈ (allStdNames o).map upper) ∧
      ∀ n, n ≠ [] → (n ∈ (applyCustomNodes q).nodesCustom ↔
        n ∈ r.custom.map upper ∧ n ∉ (allStdNames o).map upper) := by
  have hold : ∀ n ∈ removeNodes q, n ≠ [] ∧ n ∈ q.nodesCustom := by
    intro n hn
    have hmem := (List.mem_filter.mp hn).1
    refine ⟨?_, hmem⟩
    rintro rfl
    rw [h.custom] at hmem
    exact hslots hmem
  have hnodup : (removeNodes q).Nodup := by
    rw [List.nodup_iff_count_le_one]
    intro n
    by_cases hn : n ∈ removeNodes q
    · exact (List.filter_sublist.count_le n).trans (h.inv.custom_once n (hold n hn).1)
    · rw [List.count_eq_zero_of_not_mem hn]
      exact Nat.zero_le 1
  have hrem := removed_foldl h.inv h.prefixFree hnodup hold
  rw [ParsePacket.applyCustomNodes]
  generalize (removeNodes q).foldl (fun p n => removeCustomNode n p) q = q' at hrem ⊢
  have hkept : ∀ n, n ≠ [] → (n ∈ q'.nodesCustom ↔
      n ∈ p.nodesCustom ∧ n ∈ r.custom.map upper) := by
    intro n hn
    rw [hrem.custom n hn, removeNodes, List.mem_filter, h.custom, decide_eq_true_eq, h.prepare]
    constructor
    · rintro ⟨hc, hkeep⟩
      exact ⟨hc, not_not.mp (fun hno => hkeep ⟨hc, hno⟩)⟩
    · rintro ⟨hc, hyes⟩
      exact ⟨hc, fun hno => hno.2 hyes⟩
  have hsub : ∀ n ∈ q'.nodesCustom, n ≠ [] → n ∈ (r.custom.map upper).toFinset := by
    intro n hn hne
    exact List.mem_toFinset.mpr ((hkept n hne).mp hn).2
  have hnames : ∀ n ∈ q'.nodesCustomPrepare, Listed n ∧ n ∈ (r.custom.map upper).toFinset := by
    intro n hn
    rw [hrem.prepare, h.prepare] at hn
    refine ⟨?_, List.mem_toFinset.mpr hn⟩
    obtain ⟨m, hm, rfl⟩ := List.mem_map.mp hn
    exact isName_upper (r.isName m (List.mem_append_right _ hm))
  have happ := applied_foldl hrem.inv r.custom_max hsub hnames
  generalize q'.nodesCustomPrepare.foldl
    (fun p n => if n ∉ p.nodesCustom then addCustomNode n p else p) q' = q'' at happ ⊢
  refine ⟨happ.inv.congr rfl rfl rfl, rfl, ?_, ?_⟩
  · intro n
    rw [happ.std, hrem.std, h.std]
  · intro n hn
    rw [happ.custom n hn, hkept n hn, hrem.std, hrem.prepare, h.prepare, h.std]
    have hdisj : n ∈ p.nodesCustom → n ∉ (allStdNames o).map upper := by
      rw [← h.custom, ← h.std]
      exact h.inv.disjoint n
    constructor
    · rintro (⟨hc, hyes⟩ | hnew)
      · exact ⟨hyes, hdisj hc⟩
      · exact hnew
    · exact .inr

lemma DictInv.recognises {p : Dictionary} (h : DictInv p) (hfree : PrefixFree p)
    {names : List Bytes} (hnames : ∀ n ∈ names, IsName n)
    (hlists : ∀ n, n ≠ [] → (InLists p n ↔ n ∈ names.map upper)) : Recognises p names := by
  intro line
  refine ⟨?_, ?_⟩
  · intro name hname hpre
    have hlisted := isName_upper (hnames name hname)
    have hin : InLists p (upper name) :=
      (hlists _ hlisted.1.1).mpr (List.mem_map_of_mem hname)
    have htake : lower (line.take name.length) = lower name := by
      rw [lower, List.map_take]
      have heq := List.prefix_iff_eq_take.mp hpre
      rw [length_lower] at heq
      exact heq.symm
    have hlen : name.length ≤ line.length := by
      have hle := hpre.length_le
      rwa [length_lower, length_lower] at hle
    obtain ⟨l, hl⟩ := Option.ne_none_iff_exists'.mp (h.name_leaf _ hlisted.1.1 hin)
    rw [lower_upper] at hl
    refine ⟨l, ?_, ?_⟩
    · rw [getNode, PpNode.getContent_of_leafAt (l := l) hlen (by omega) ?_ (by rw [htake, hl]) ?_,
        Nat.zero_add]
      · intro hzero
        rw [← mem_lower_of_lt (by decide), htake, mem_lower_of_lt (by decide)] at hzero
        exact (hnames name hname).2.2 hzero
      · intro j hj
        by_contra hsome
        obtain ⟨l', hl'⟩ := Option.ne_none_iff_exists'.mp hsome
        obtain ⟨n, hn, hpath, hnode⟩ := h.leaf_name _ l' hl'
        have hpre' : lower n <+: lower (upper name) := by
          rw [lower_upper, ← htake, ← hpath]
          exact (List.take_prefix_take_left (by omega)).map _
        have heq := hfree n (upper name) hn.1.1 (hnode.inLists hn) hin hpre'
        have hlength : (lower (line.take j)).length = name.length := by
          rw [hpath, heq, length_lower, length_upper]
        rw [length_lower, List.length_take] at hlength
        omega
    · obtain ⟨n, hn, hpath, hnode⟩ := h.leaf_name _ l hl
      have heq : n = upper name := hn.eq_of_lower hlisted (by rw [← hpath, lower_upper])
      rw [heq] at hnode
      unfold NodeOf at hnode ⊢
      rwa [upper_upper] at hnode
  · intro hno
    refine PpNode.getContent_eq_none ?_
    intro j _
    by_contra hsome
    obtain ⟨l, hl⟩ := Option.ne_none_iff_exists'.mp hsome
    obtain ⟨n, hn, hpath, hnode⟩ := h.leaf_name _ l hl
    obtain ⟨m, hm, rfl⟩ := List.mem_map.mp ((hlists n hn.1.1).mp (hnode.inLists hn))
    refine hno m hm ?_
    rw [lower_upper] at hpath
    rw [← hpath]
    have htake := List.take_prefix j line
    exact htake.map _

lemma Loaded.reload {p : Dictionary} (h : Loaded o p) (hslots : [] ∉ p.nodesCustom)
    (r : Reload o) :
    Loaded o (reload p r) ∧ Recognises (reload p r) (allStdNames o ++ r.custom) := by
  have happ := (prepared_beforeApply h r).applyCustomNodes hslots
  rw [← reload_eq] at happ
  obtain ⟨hinv, hprep, hstd, hcustom⟩ := happ
  have hlists : ∀ n, n ≠ [] →
      (InLists (ParsePacket.reload p r) n ↔ n ∈ (allStdNames o ++ r.custom).map upper) := by
    intro n hn
    rw [InLists, hstd, hcustom n hn, List.map_append, List.mem_append]
    constructor
    · rintro (hs | hc)
      · exact .inl hs
      · exact .inr hc.1
    · rintro (hs | hc)
      · exact .inl hs
      · by_cases hs : n ∈ (allStdNames o).map upper
        · exact .inl hs
        · exact .inr ⟨hc, hs⟩
  have hfree : PrefixFree (ParsePacket.reload p r) := by
    intro a b ha hina hinb hpre
    have hb : b ≠ [] := by
      rintro rfl
      exact ha (List.map_eq_nil_iff.mp (List.prefix_nil.mp hpre))
    obtain ⟨a', ha', rfl⟩ := List.mem_map.mp ((hlists a ha).mp hina)
    obtain ⟨b', hb', rfl⟩ := List.mem_map.mp ((hlists b hb).mp hinb)
    rw [lower_upper, lower_upper] at hpre
    exact upper_eq_iff.mpr (r.prefixFree a' ha' b' hb' hpre)
  exact ⟨⟨hinv, hfree, hprep, .inr hstd⟩, hinv.recognises hfree r.isName hlists⟩

/-! ## An empty slot -/

lemma removeCustomNode_leaves {p : Dictionary} {name : Bytes} (hname : 10 ∉ name)
    (hslot : [] ∈ p.nodesCustom) :
    (∀ path, p.root.leafAt path = none → (removeCustomNode name p).root.leafAt path = none) ∧
      (name = [] → ∀ path, (removeCustomNode name p).root.leafAt path = none) ∧
      [] ∈ (removeCustomNode name p).nodesCustom ∧
      (removeCustomNode name p).nodesStd = p.nodesStd ∧
      (removeCustomNode name p).nodesCustomPrepare = p.nodesCustomPrepare := by
  have hlist : listName name = upper name := by
    rw [listName, if_neg]
    intro hhead
    exact hname (List.mem_of_head? hhead)
  have hlf : 10 ∉ upper name := by
    rwa [mem_upper_of_lt (by decide)]
  rw [removeCustomNode, hlist]
  cases hfind : p.nodesCustom.findIdx? (fun n => n = upper name) with
  | none =>
    refine ⟨fun _ h => h, ?_, hslot, rfl, rfl⟩
    rintro rfl
    rw [List.findIdx?_eq_none_iff] at hfind
    exact absurd (hfind [] hslot) (by simp [upper])
  | some i =>
    obtain ⟨hi, -, -⟩ := List.findIdx?_eq_some_iff_getElem.mp hfind
    refine ⟨?_, ?_, List.mem_set hi [], rfl, rfl⟩
    · intro path hpath
      rw [PpNode.leafAt_removeNode hlf, hpath, ite_self]
    · rintro rfl path
      exact PpNode.leafAt_initNode path

lemma foldl_removeCustomNode_leaves {names : List Bytes} (hnames : ∀ n ∈ names, 10 ∉ n)
    {p : Dictionary} (hslot : [] ∈ p.nodesCustom)
    (hall : [] ∈ names ∨ ∀ path, p.root.leafAt path = none) :
    (∀ path, (names.foldl (fun p n => removeCustomNode n p) p).root.leafAt path = none) ∧
      (names.foldl (fun p n => removeCustomNode n p) p).nodesStd = p.nodesStd ∧
      (names.foldl (fun p n => removeCustomNode n p) p).nodesCustomPrepare =
        p.nodesCustomPrepare := by
  induction names generalizing p with
  | nil => exact ⟨hall.resolve_left (by simp), rfl, rfl⟩
  | cons name names ih =>
    obtain ⟨hkeep, hwipe, hslot', hstd, hprep⟩ :=
      removeCustomNode_leaves (hnames name List.mem_cons_self) hslot
    have hall' : [] ∈ names ∨ ∀ path, (removeCustomNode name p).root.leafAt path = none := by
      rcases hall with hmem | hnone
      · rcases List.mem_cons.mp hmem with heq | hmem
        · exact .inr (hwipe heq.symm)
        · exact .inl hmem
      · exact .inr (fun path => hkeep path (hnone path))
    obtain ⟨h1, h2, h3⟩ := ih (fun n hn => hnames n (List.mem_cons_of_mem _ hn)) hslot' hall'
    exact ⟨h1, h2.trans hstd, h3.trans hprep⟩

lemma foldl_addCustomNode_leaves {names : List Bytes} (hnames : ∀ n ∈ names, Listed n)
    {p : Dictionary} {path : Bytes} {l : Leaf}
    (hl : (names.foldl (fun p n => if n ∉ p.nodesCustom then addCustomNode n p else p)
      p).root.leafAt path = some l) :
    p.root.leafAt path = some l ∨ ∃ n ∈ names, n ∉ p.nodesStd ∧ path = lower n := by
  induction names generalizing p with
  | nil => exact .inl hl
  | cons name names ih =>
    rw [List.foldl_cons] at hl
    have hstep : (if name ∉ p.nodesCustom then addCustomNode name p else p).nodesStd = p.nodesStd ∧
        ∀ l, (if name ∉ p.nodesCustom then addCustomNode name p else p).root.leafAt path = some l →
          p.root.leafAt path = some l ∨ name ∉ p.nodesStd ∧ path = lower name := by
      have hlisted := hnames name List.mem_cons_self
      split
      · rw [addCustomNode, hlisted.listName]
        split
        · rename_i hnew
          split
          · refine ⟨rfl, ?_⟩
            intro l hl
            rw [PpNode.leafAt_addNode hlisted.1.2.1] at hl
            split at hl
            · exact .inr ⟨hnew.1, ‹_›⟩
            · exact .inl hl
          · refine ⟨rfl, ?_⟩
            intro l hl
            rw [PpNode.leafAt_addNode hlisted.1.2.1] at hl
            split at hl
            · exact .inr ⟨hnew.1, ‹_›⟩
            · exact .inl hl
        · exact ⟨rfl, fun _ hl => .inl hl⟩
      · exact ⟨rfl, fun _ hl => .inl hl⟩
    rcases ih (fun n hn => hnames n (List.mem_cons_of_mem _ hn)) hl with hl | ⟨n, hn, hs, hpath⟩
    · rcases hstep.2 l hl with hl | ⟨hs, hpath⟩
      · exact .inl hl
      · exact .inr ⟨name, List.mem_cons_self, hs, hpath⟩
    · rw [hstep.1] at hs
      exact .inr ⟨n, List.mem_cons_of_mem _ hn, hs, hpath⟩

lemma Prepared.not_recognises {p q : Dictionary} {r : Reload o} (h : Prepared p q r)
    (hslot : [] ∈ p.nodesCustom) :
    ¬Recognises (ParsePacket.applyCustomNodes q) (allStdNames o ++ r.custom) := by
  intro hrec
  have hcl : ascii "content-length:" ∈ allStdNames o := by
    rw [allStdNames]
    exact List.mem_append_left _ (List.mem_append_left _ (List.mem_append_left _
      (List.mem_append_left _ List.mem_cons_self)))
  have hlisted : ∀ n ∈ q.nodesCustomPrepare, Listed n := by
    intro n hn
    obtain ⟨m, hm, rfl⟩ := List.mem_map.mp ((h.prepare n).mp hn)
    exact isName_upper (r.isName m (List.mem_append_right _ hm))
  have hslot' : [] ∈ q.nodesCustom := by
    rw [h.custom]
    exact hslot
  have hremove : [] ∈ removeNodes q := by
    rw [removeNodes, List.mem_filter]
    refine ⟨hslot', decide_eq_true ?_⟩
    intro hprep
    exact (hlisted [] hprep).1.1 rfl
  have hnames : ∀ n ∈ removeNodes q, 10 ∉ n := by
    intro n hn
    rcases h.inv.custom_listed n (List.mem_filter.mp hn).1 with rfl | hn
    · exact List.not_mem_nil
    · exact hn.1.2.1
  obtain ⟨hnone, hstd, hprep⟩ := foldl_removeCustomNode_leaves hnames hslot' (.inl hremove)
  have hroot : ∀ path l, (ParsePacket.applyCustomNodes q).root.leafAt path = some l →
      ∃ n ∈ q.nodesCustomPrepare, n ∉ q.nodesStd ∧ path = lower n := by
    intro path l hl
    rw [ParsePacket.applyCustomNodes] at hl
    rcases foldl_addCustomNode_leaves (by rwa [hprep]) hl with hl | ⟨n, hn, hs, hpath⟩
    · rw [hnone] at hl
      cases hl
    · rw [hprep] at hn
      rw [hstd] at hs
      exact ⟨n, hn, hs, hpath⟩
  have hgone : getNode (ascii "content-length:") (ascii "content-length:").length
      (ParsePacket.applyCustomNodes q) = none := by
    refine PpNode.getContent_eq_none ?_
    intro j _
    by_contra hsome
    obtain ⟨l, hl⟩ := Option.ne_none_iff_exists'.mp hsome
    obtain ⟨n, hn, hs, hpath⟩ := hroot _ l hl
    obtain ⟨m, hm, rfl⟩ := List.mem_map.mp ((h.prepare n).mp hn)
    have hpre : lower m <+: lower (ascii "content-length:") := by
      rw [lower_upper] at hpath
      rw [← hpath]
      have htake := List.take_prefix j (ascii "content-length:")
      exact htake.map _
    have heq := r.prefixFree m (List.mem_append_right _ hm) _ (List.mem_append_left _ hcl) hpre
    refine hs ((h.std _).mpr ?_)
    rw [upper_eq_iff.mpr heq]
    exact List.mem_map_of_mem hcl
  obtain ⟨l, hl, -⟩ := (hrec (ascii "content-length:")).1 _ (List.mem_append_left _ hcl)
    (List.prefix_refl _)
  rw [hgone] at hl
  cases hl

/-- Over every sequence of reloads, the dictionary recognises the standard names and the custom
names of the latest reload after each of them if and only if none of the reloads begins with an
empty slot among the custom names. -/
theorem reloads_recognise_iff (o : Options) (reloads : List (Reload o)) :
    AlongRun reload (fun p r => Recognises (reload p r) (allStdNames o ++ r.custom)) empty reloads ↔
      AlongRun reload (fun p _ => [] ∉ p.nodesCustom) empty reloads := by
  have hiff : ∀ (p : Dictionary) (r : Reload o), Loaded o p →
      (Recognises (reload p r) (allStdNames o ++ r.custom) ↔ [] ∉ p.nodesCustom) := by
    intro p r hp
    constructor
    · intro hrec hslot
      rw [reload_eq] at hrec
      exact (prepared_beforeApply hp r).not_recognises hslot hrec
    · intro hslots
      exact (hp.reload hslots r).2
  refine alongRun_iff hiff ?_ reloads loaded_empty
  intro p r hp hrec
  exact (hp.reload ((hiff p r hp).mp hrec) r).1

def plainOptions : Options :=
  { passertedidentity := false, ppreferredidentity := false, cdrReason := false
    callIdAlternative := [], fbasenameHeader := [], matchHeader := [], callidmergeHeader := []
    energylevelheader := [], silenceheader := [], kamailio := false, ribbonsbc := false
    conferenceProcessing := false }

def reloadWith : Reload plainOptions where
  customHeaders := [ascii "X-Trunk:"]
  headerFilter := []
  isName := by decide +kernel
  prefixFree := by decide +kernel
  std_max := by decide +kernel
  custom_max := by decide +kernel

def reloadWithout : Reload plainOptions where
  customHeaders := []
  headerFilter := []
  isName := by decide +kernel
  prefixFree := by decide +kernel
  std_max := by decide +kernel
  custom_max := by decide +kernel

/-- The second reload removes the custom header, and the third one then removes all names. -/
theorem reloads_lose_names :
    ¬AlongRun reload
      (fun p r => Recognises (reload p r) (allStdNames plainOptions ++ r.custom)) empty
      [reloadWith, reloadWithout, reloadWithout] := by
  rintro ⟨-, -, hrec, -⟩
  have hgone : getNode (ascii "content-length:") 15
      (reload (reload (reload empty reloadWith) reloadWithout) reloadWithout) = none := by
    decide +kernel
  obtain ⟨l, hl, -⟩ := (hrec (ascii "content-length:")).1 (ascii "content-length:") (by decide +kernel)
    (List.prefix_refl _)
  exact absurd (hgone.symm.trans hl) (by simp)

end VoipMonitor.ParsePacket
