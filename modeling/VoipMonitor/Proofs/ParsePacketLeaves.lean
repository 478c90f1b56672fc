import VoipMonitor.Proofs.ParsePacketReloads

/-!
# The leaves after any loads

Names may begin with one another, and a reload may take leaves away that are still in the lists.
What is left in the tree are names of the configuration, each with a slot of its own, and only the
two names of the content length have its flag.
-/

namespace VoipMonitor.ParsePacket
open VoipMonitor.Library

def contentLengthNames : List Bytes := [ascii "content-length:", ascii "l:"]

/-- A load of the configuration. Its names are texts of one line. -/
structure Load where
  options : Options
  customHeaders : List Bytes
  headerFilter : List Bytes
  isName : ∀ n ∈ allStdNames options ++ (customHeaders ++ headerFilter), IsName n ∧ 13 ∉ n

def load (p : Dictionary) (r : Load) : Dictionary :=
  setStdParse r.options r.customHeaders r.headerFilter p

def dictionary (loads : List Load) : Dictionary := loads.foldl load empty

structure Leaves (root : PpNode) : Prop where
  name : ∀ path l, root.leafAt path = some l → path ≠ [] ∧ 0 ∉ path ∧ 13 ∉ path
  slot : ∀ path l path' l', root.leafAt path = some l → root.leafAt path' = some l' →
    l.typeNode = l'.typeNode → l.nodeIndex = l'.nodeIndex → path = path'
  flagged : ∀ path l, root.leafAt path = some l →
    (l.isContentLength = true ↔ path ∈ contentLengthNames)

structure LoadInv (p : Dictionary) : Prop extends LeafInv p where
  oneLine : ∀ path l, p.root.leafAt path = some l → 13 ∉ path
  flagged : ∀ path l, p.root.leafAt path = some l →
    (l.isContentLength = true ↔ path ∈ contentLengthNames)
  length_std : ∀ n ∈ contentLengthNames, upper n ∈ p.nodesStd
  prepared : ∀ n ∈ p.nodesCustomPrepare, Listed n ∧ 13 ∉ n

lemma lower_contentLengthNames : ∀ n ∈ contentLengthNames, lower n = n := by decide

lemma oneLine_lower {name : Bytes} (hline : 13 ∉ name) : 13 ∉ lower name := by
  rwa [mem_lower_of_lt (by decide)]

lemma oneLine_upper {name : Bytes} (hline : 13 ∉ name) : 13 ∉ upper name := by
  rwa [mem_upper_of_lt (by decide)]

section
variable {p : Dictionary}

lemma LoadInv.not_length (h : LoadInv p) {name : Bytes} (hnew : upper name ∉ p.nodesStd) :
    lower name ∉ contentLengthNames := by
  intro hmem
  have hstd := h.length_std _ hmem
  rw [upper_lower] at hstd
  exact hnew hstd

lemma LoadInv.leaf_add (h : LoadInv p) {name : Bytes} (hname : 10 ∉ name) (hline : 13 ∉ name)
    (hlength : lower name ∉ contentLengthNames) (leaf : Leaf)
    (hflag : leaf.isContentLength = false) :
    ∀ path l, (p.root.addNode name leaf).leafAt path = some l →
      13 ∉ path ∧ (l.isContentLength = true ↔ path ∈ contentLengthNames) := by
  intro path l hl
  rw [PpNode.leafAt_addNode hname] at hl
  split at hl
  · rename_i hpath
    rw [hpath, ← Option.some.inj hl, hflag]
    exact ⟨oneLine_lower hline, ⟨fun hno => Bool.noConfusion hno, fun hmem => absurd hmem hlength⟩⟩
  · exact ⟨h.oneLine path l hl, h.flagged path l hl⟩

lemma LoadInv.addNode (h : LoadInv p) {name : Bytes} (hname : IsName name) (hline : 13 ∉ name) :
    LoadInv (addNode name false p) := by
  rw [ParsePacket.addNode, listName_eq hname]
  split
  · rename_i hnew
    have hleaf := h.leaf_add hname.2.1 hline (h.not_length hnew.1)
      ⟨.std, p.nodesStd.length, false⟩ rfl
    refine ⟨h.addStd hname hnew.1 false, fun path l hl => (hleaf path l hl).1,
      fun path l hl => (hleaf path l hl).2, ?_, h.prepared⟩
    intro n hn
    exact List.mem_append_left _ (h.length_std n hn)
  · exact h

lemma LoadInv.addNode_length (h : LoadInv p) {name : Bytes} (hname : name ∈ contentLengthNames) :
    ParsePacket.addNode name true p = p := by
  have hlist : ∀ n ∈ contentLengthNames, listName n = upper n := by decide
  rw [ParsePacket.addNode, hlist name hname]
  exact if_neg (fun hnew => hnew.1 (h.length_std name hname))

lemma LoadInv.prepareCustomNode (h : LoadInv p) {name : Bytes} (hname : IsName name)
    (hline : 13 ∉ name) : LoadInv (prepareCustomNode name p) := by
  rw [ParsePacket.prepareCustomNode, listName_eq hname]
  split
  · refine ⟨⟨h.std_listed, h.custom_listed, h.std_nodup, h.custom_once, h.leaf_name⟩, h.oneLine,
      h.flagged, h.length_std, ?_⟩
    intro n hn
    rcases List.mem_append.mp hn with hn | hn
    · exact h.prepared n hn
    · rw [List.mem_singleton.mp hn]
      exact ⟨isName_upper hname, oneLine_upper hline⟩
  · exact h

lemma LoadInv.addCustomNode (h : LoadInv p) {name : Bytes} (hname : Listed name)
    (hline : 13 ∉ name) : LoadInv (addCustomNode name p) := by
  by_cases hnew : name ∉ p.nodesStd ∧ name ∉ p.nodesCustom ∧
      p.nodesCustom.countP (fun n => n ≠ []) < customMax
  · obtain ⟨hstd, hcustom, hroom⟩ := hnew
    obtain ⟨i, after, hfills, heq⟩ := addCustomNode_cases hname hstd hcustom hroom
    have hlength : lower name ∉ contentLengthNames := h.not_length (by rwa [hname.2])
    have hleaf := h.leaf_add hname.1.2.1 hline hlength ⟨.custom, i, false⟩ rfl
    rw [heq]
    exact ⟨h.addCustom hname hcustom hfills, fun path l hl => (hleaf path l hl).1,
      fun path l hl => (hleaf path l hl).2, h.length_std, h.prepared⟩
  · rw [ParsePacket.addCustomNode, hname.listName, if_neg hnew]
    exact h

lemma LoadInv.removeCustomNode (h : LoadInv p) (nodeName : Bytes) :
    LoadInv (removeCustomNode nodeName p) := by
  rw [ParsePacket.removeCustomNode]
  cases hfind : p.nodesCustom.findIdx? (fun n => n = listName nodeName) with
  | none => exact h
  | some i =>
    obtain ⟨hi, hget, -⟩ := List.findIdx?_eq_some_iff_getElem.mp hfind
    have hslot : p.nodesCustom[i]? = some (listName nodeName) := by
      rw [List.getElem?_eq_getElem hi, of_decide_eq_true hget]
    have hname : 10 ∉ listName nodeName := by
      rcases h.custom_listed _ (List.mem_of_getElem? hslot) with hnil | hlisted
      · rw [hnil]
        exact List.not_mem_nil
      · exact hlisted.1.2.1
    have hold : ∀ path l, (p.root.removeNode (listName nodeName)).leafAt path = some l →
        p.root.leafAt path = some l := by
      intro path l hl
      rw [PpNode.leafAt_removeNode hname] at hl
      split at hl
      · cases hl
      · exact hl
    exact ⟨h.remove hslot, fun path l hl => h.oneLine path l (hold path l hl),
      fun path l hl => h.flagged path l (hold path l hl), h.length_std, h.prepared⟩

lemma LoadInv.applyCustomNodes (h : LoadInv p) : LoadInv (applyCustomNodes p) := by
  have hremoved : LoadInv ((removeNodes p).foldl (fun p n => ParsePacket.removeCustomNode n p) p) :=
    List.foldlRecOn _ _ h (fun q hq n _ => hq.removeCustomNode n)
  rw [ParsePacket.applyCustomNodes]
  generalize (removeNodes p).foldl (fun p n => ParsePacket.removeCustomNode n p) p = q at hremoved ⊢
  have hadded : LoadInv (q.nodesCustomPrepare.foldl
      (fun p n => if n ∉ p.nodesCustom then ParsePacket.addCustomNode n p else p) q) := by
    refine List.foldlRecOn _ _ hremoved (fun r hr n hn => ?_)
    obtain ⟨hlisted, hline⟩ := hremoved.prepared n hn
    split
    · exact hr.addCustomNode hlisted hline
    · exact hr
  exact ⟨⟨hadded.std_listed, hadded.custom_listed, hadded.std_nodup, hadded.custom_once,
    hadded.leaf_name⟩, hadded.oneLine, hadded.flagged, hadded.length_std,
    fun n hn => by cases hn⟩

end

lemma addNode_new {p : Dictionary} {name : Bytes} (hname : IsName name)
    (hnew : upper name ∉ p.nodesStd ∧ upper name ∉ p.nodesCustom ∧ p.nodesStd.length < stdMax) :
    addNode name true p = { p with
      nodesStd := p.nodesStd ++ [upper name]
      root := p.root.addNode name ⟨.std, p.nodesStd.length, true⟩ } := by
  rw [addNode, listName_eq hname]
  exact if_pos hnew

lemma loadInv_first :
    LoadInv (addNode (ascii "l:") true (addNode (ascii "content-length:") true empty)) := by
  have hnone : ∀ path, empty.root.leafAt path = none := PpNode.leafAt_initNode
  have hleaves : LeafInv empty := by
    refine ⟨by simp [empty], by simp [empty], List.nodup_nil, by simp [empty], ?_⟩
    intro path l hl
    rw [hnone] at hl
    cases hl
  have hlong : IsName (ascii "content-length:") := by decide
  have hshort : IsName (ascii "l:") := by decide
  have hfirst := hleaves.addStd hlong (by decide) true
  have hsecond := hfirst.addStd hshort (by decide) true
  rw [addNode_new hlong (by decide), addNode_new hshort (by decide)]
  have hleaf : ∀ path l, ((empty.root.addNode (ascii "content-length:") ⟨.std, 0, true⟩).addNode
      (ascii "l:") ⟨.std, 1, true⟩).leafAt path = some l →
      path ∈ contentLengthNames ∧ l.isContentLength = true := by
    intro path l hl
    rw [PpNode.leafAt_addNode hshort.2.1] at hl
    split at hl
    · rename_i hpath
      rw [hpath, ← Option.some.inj hl]
      exact ⟨by decide, rfl⟩
    · rw [PpNode.leafAt_addNode hlong.2.1] at hl
      split at hl
      · rename_i hpath
        rw [hpath, ← Option.some.inj hl]
        exact ⟨by decide, rfl⟩
      · rw [hnone] at hl
        cases hl
  have hline : ∀ path ∈ contentLengthNames, 13 ∉ path := by decide
  refine ⟨hsecond, fun path l hl => hline path (hleaf path l hl).1, fun path l hl => ?_, ?_, ?_⟩
  · obtain ⟨hmem, hflag⟩ := hleaf path l hl
    exact ⟨fun _ => hmem, fun _ => hflag⟩
  · show ∀ n ∈ contentLengthNames, upper n ∈ [upper (ascii "content-length:"), upper (ascii "l:")]
    decide
  · exact fun n hn => by cases hn

lemma loadInv_lengthNodes {p : Dictionary} (h : p = empty ∨ LoadInv p) :
    LoadInv (addNode (ascii "l:") true (addNode (ascii "content-length:") true p)) := by
  rcases h with rfl | h
  · exact loadInv_first
  · rw [h.addNode_length (by decide), h.addNode_length (by decide)]
    exact h

def moreOps (r : Load) : List Op :=
  stdOps (stdNames r.options) ++ r.customHeaders.map .prepare ++
    stdOps (when r.options.kamailio
      ["X-Siptrace-Fromip:", "X-Siptrace-Toip:", "X-Siptrace-Time:"]) ++
    stdOps (when r.options.ribbonsbc ["srcIP:", "dstIP:"]) ++ r.headerFilter.map .prepare ++
    stdOps (when r.options.conferenceProcessing ["event:", "subscription-state:", "referred-by:"])

lemma mem_moreOps {r : Load} {op : Op} (h : op ∈ moreOps r) :
    ∃ n, IsName n ∧ 13 ∉ n ∧ (op = .std n false ∨ op = .prepare n) := by
  have hmem : ∃ n ∈ allStdNames r.options ++ (r.customHeaders ++ r.headerFilter),
      op = .std n false ∨ op = .prepare n := by
    simp only [moreOps, stdOps, List.mem_append, List.mem_map] at h
    simp only [allStdNames, List.mem_append]
    rcases h with ((((⟨n, hn, rfl⟩ | ⟨n, hn, rfl⟩) | ⟨n, hn, rfl⟩) | ⟨n, hn, rfl⟩) | ⟨n, hn, rfl⟩) |
      ⟨n, hn, rfl⟩
    all_goals exact ⟨n, by tauto, by tauto⟩
  obtain ⟨n, hn, hop⟩ := hmem
  exact ⟨n, (r.isName n hn).1, (r.isName n hn).2, hop⟩

lemma LoadInv.load {p : Dictionary} (h : p = empty ∨ LoadInv p) (r : Load) :
    LoadInv (load p r) := by
  have hops : LoadInv ((ops r.options r.customHeaders r.headerFilter).foldl doOp p) := by
    have heq : ops r.options r.customHeaders r.headerFilter =
        .std (ascii "content-length:") true :: .std (ascii "l:") true :: moreOps r := by
      simp only [ops, moreOps, List.append_assoc, List.cons_append, List.nil_append]
    have hstart := loadInv_lengthNodes h
    rw [heq, List.foldl_cons, List.foldl_cons, doOp, doOp]
    refine List.foldlRecOn (moreOps r) doOp hstart (fun q hq op hop => ?_)
    obtain ⟨n, hname, hline, rfl | rfl⟩ := mem_moreOps hop
    · exact hq.addNode hname hline
    · exact hq.prepareCustomNode hname hline
  rw [ParsePacket.load, setStdParse_eq]
  exact hops.applyCustomNodes

lemma loadInv_dictionary (loads : List Load) :
    dictionary loads = empty ∨ LoadInv (dictionary loads) := by
  refine List.foldlRecOn (motive := fun p => p = empty ∨ LoadInv p) loads load (.inl rfl) ?_
  exact fun p hp r _ => .inr (LoadInv.load hp r)

theorem leaves_dictionary (loads : List Load) : Leaves (dictionary loads).root := by
  rcases loadInv_dictionary loads with hempty | h
  · have hnone : ∀ path, (dictionary loads).root.leafAt path = none := by
      intro path
      rw [hempty]
      exact PpNode.leafAt_initNode path
    refine ⟨?_, ?_, ?_⟩
    · intro path l hl
      rw [hnone] at hl
      cases hl
    · intro path l path' l' hl
      rw [hnone] at hl
      cases hl
    · intro path l hl
      rw [hnone] at hl
      cases hl
  · refine ⟨?_, ?_, h.flagged⟩
    · intro path l hl
      obtain ⟨n, hn, hpath, -⟩ := h.leaf_name path l hl
      refine ⟨?_, ?_, h.oneLine path l hl⟩
      · rw [hpath]
        exact fun hnil => hn.1.1 (List.map_eq_nil_iff.mp hnil)
      · rw [hpath, mem_lower_of_lt (by decide)]
        exact hn.1.2.2
    · -- the name of a slot is one name
      intro path l path' l' hl hl' htype hindex
      obtain ⟨n, hn, rfl, hnode⟩ := h.leaf_name path l hl
      obtain ⟨n', hn', rfl, hnode'⟩ := h.leaf_name path' l' hl'
      unfold NodeOf at hnode hnode'
      rw [← htype, ← hindex] at hnode'
      refine upper_eq_iff.mp ?_
      cases hcase : l.typeNode with
      | std =>
        rw [hcase] at hnode hnode'
        exact Option.some.inj (hnode.symm.trans hnode')
      | custom =>
        rw [hcase] at hnode hnode'
        exact Option.some.inj (hnode.symm.trans hnode')

end VoipMonitor.ParsePacket
