import Mathlib.Data.List.DropRight
import VoipMonitor.Library.Lines
import VoipMonitor.Proofs.ParsePacketLeaves

/-!
# The rounds of the pass

Each round moves the index on and the end of the packet at most back, so the pass ends. A value
that is found once stays, and behind the double line end the length of the message stays too.
-/

namespace VoipMonitor.ParsePacket
open VoipMonitor.Library

/-! ## The search in a line -/

namespace PpNode

lemma leafAt_of_getContent {data : Bytes} {namelength limit k : Nat} {n : PpNode} {l : Leaf}
    (h : getContent data namelength limit n = some (l, k)) :
    ∃ j ≤ data.length, k = namelength + j ∧ leafAt (lower (data.take j)) n = some l ∧
      ∀ i < j, leafAt (lower (data.take i)) n = none := by
  induction data generalizing namelength n with
  | nil =>
    unfold getContent at h
    cases hleaf : n.leaf with
    | none =>
      rw [hleaf] at h
      cases h
    | some l' =>
      rw [hleaf] at h
      obtain ⟨rfl, rfl⟩ := Prod.mk.inj (Option.some.inj h)
      exact ⟨0, le_rfl, rfl, hleaf, fun i hi => absurd hi (Nat.not_lt_zero i)⟩
  | cons c data ih =>
    unfold getContent at h
    cases hleaf : n.leaf with
    | some l' =>
      rw [hleaf] at h
      obtain ⟨rfl, rfl⟩ := Prod.mk.inj (Option.some.inj h)
      exact ⟨0, Nat.zero_le _, rfl, hleaf, fun i hi => absurd hi (Nat.not_lt_zero i)⟩
    | none =>
      rw [hleaf] at h
      dsimp only at h
      split at h
      · cases h
      · cases hm : n.nodes (toLower c) with
        | none =>
          rw [hm] at h
          cases h
        | some m =>
          rw [hm] at h
          dsimp only at h
          split at h
          · cases h
          · obtain ⟨j, hj, hk, hl, hfirst⟩ := ih h
            have hpath : ∀ i, leafAt (lower ((c :: data).take (i + 1))) n =
                leafAt (lower (data.take i)) m := by
              intro i
              have hstep : lower ((c :: data).take (i + 1)) = toLower c :: lower (data.take i) := rfl
              rw [hstep, leafAt, hm]
              rfl
            refine ⟨j + 1, Nat.succ_le_succ hj, by omega, (hpath j).trans hl, ?_⟩
            intro i hi
            cases i with
            | zero => exact hleaf
            | succ i => exact (hpath i).trans (hfirst i (by omega))

lemma getContent_line {line : Bytes} {namelength limit : Nat} {n : PpNode}
    (hline : ∀ path l, leafAt path n = some l → 13 ∉ path)
    (hlimit : namelength + line.length ≤ limit) (after : Bytes) :
    getContent (line ++ 13 :: after) namelength limit n =
      getContent line namelength (namelength + line.length) n := by
  induction line generalizing namelength n with
  | nil =>
    rw [List.nil_append]
    unfold getContent
    cases hleaf : n.leaf with
    | some l => rfl
    | none =>
      dsimp only
      rw [if_neg (by decide)]
      cases hm : n.nodes (toLower 13) with
      | none => rfl
      | some m =>
        have hnone : ∀ path, leafAt path m = none := by
          intro path
          by_contra hsome
          obtain ⟨l, hl⟩ := Option.ne_none_iff_exists'.mp hsome
          have hpath : leafAt (toLower 13 :: path) n = some l := by
            rw [leafAt, hm]
            exact hl
          exact hline _ l hpath List.mem_cons_self
        dsimp only
        rw [getContent_eq_none (fun j _ => hnone _), ite_self]
  | cons c line ih =>
    rw [List.length_cons] at hlimit
    rw [List.cons_append, getContent, getContent]
    cases hleaf : n.leaf with
    | some l => rfl
    | none =>
      cases hm : n.nodes (toLower c) with
      | none => rfl
      | some m =>
        have hrest : ∀ path l, leafAt path m = some l → 13 ∉ path := by
          intro path l hl hmem
          have hpath : leafAt (toLower c :: path) n = some l := by
            rw [leafAt, hm]
            exact hl
          exact hline _ l hpath (List.mem_cons_of_mem _ hmem)
        have hlength : namelength + (c :: line).length = namelength + 1 + line.length := by
          rw [List.length_cons]
          omega
        have hfits : ¬namelength + 1 > limit := by omega
        have hfits' : ¬namelength + 1 > namelength + (c :: line).length := by
          rw [hlength]
          omega
        dsimp only
        rw [if_neg hfits, if_neg hfits', ih hrest (by omega), hlength]

end PpNode

/-! ## Values without spaces -/

def trimmed (value : Bytes) : Bytes := (value.rdropWhile (fun c => c = 32)).dropWhile (fun c => c = 32)

lemma slice_one {b : Bytes} {o : Nat} (h : o < b.length) : slice b o 1 = [b.getD o 0] := by
  rw [slice, List.drop_eq_getElem_cons h, List.take_succ_cons, List.take_zero,
    List.getD_eq_getElem?_getD, List.getElem?_eq_getElem h]
  rfl

lemma byteAt_eq_iff {b : Bytes} {o k : Nat} {c : UInt8} (hk : k = c.toNat) :
    byteAt b o = k ↔ b.getD o 0 = c := by
  rw [hk]
  exact UInt8.toNat_inj

namespace PpContentItem

lemma trimEnd_spec {data : Bytes} {offset length : Nat} (h : offset + length ≤ data.length) :
    trimEnd data offset length ≤ length ∧ slice data offset (trimEnd data offset length) =
      (slice data offset length).rdropWhile (fun c => c = 32) := by
  induction length with
  | zero => exact ⟨le_rfl, by simp [trimEnd, slice]⟩
  | succ length ih =>
    have hlast : slice data offset (length + 1) =
        slice data offset length ++ [data.getD (offset + length) 0] := by
      rw [← slice_append_slice, slice_one (by omega)]
    obtain ⟨hle, hslice⟩ := ih (by omega)
    have hiff : byteAt data (offset + length) = 32 ↔ data.getD (offset + length) 0 = 32 :=
      byteAt_eq_iff rfl
    rw [trimEnd, hlast]
    by_cases hspace : data.getD (offset + length) 0 = 32
    · rw [if_pos (hiff.mpr hspace), List.rdropWhile_concat_pos _ _ _ (by simpa using hspace)]
      exact ⟨by omega, hslice⟩
    · rw [if_neg (fun hbyte => hspace (hiff.mp hbyte)),
        List.rdropWhile_concat_neg _ _ _ (by simpa using hspace)]
      exact ⟨le_rfl, hlast⟩

structure Begins (data : Bytes) (offset length : Nat) (item : PpContentItem) : Prop where
  stop : item.offset + item.length = offset + length
  value : slice data item.offset item.length =
    (slice data offset length).dropWhile (fun c => c = 32)
  spaces : ∃ spaces : Bytes, (∀ c ∈ spaces, c = 32) ∧
    data.drop offset = spaces ++ data.drop item.offset

lemma begins_trimBegin {data : Bytes} {offset length : Nat} (h : offset + length ≤ data.length) :
    Begins data offset length (trimBegin data offset length) := by
  induction length generalizing offset with
  | zero => exact ⟨rfl, by simp [trimBegin, slice], [], by simp, rfl⟩
  | succ length ih =>
    have hfirst : slice data offset (length + 1) =
        data.getD offset 0 :: slice data (offset + 1) length := by
      rw [Nat.add_comm length 1, ← slice_append_slice, slice_one (by omega)]
      rfl
    have hdrop : data.drop offset = data.getD offset 0 :: data.drop (offset + 1) := by
      rw [List.drop_eq_getElem_cons (by omega), List.getD_eq_getElem?_getD,
        List.getElem?_eq_getElem (by omega)]
      rfl
    have hiff : byteAt data offset = 32 ↔ data.getD offset 0 = 32 := byteAt_eq_iff rfl
    rw [trimBegin]
    by_cases hspace : data.getD offset 0 = 32
    · have hnext : offset + 1 + length ≤ data.length := by omega
      obtain ⟨hstop, hvalue, spaces, hspaces, hrest⟩ := ih hnext
      rw [if_pos (hiff.mpr hspace)]
      refine ⟨by omega, ?_, 32 :: spaces, ?_, ?_⟩
      · rw [hvalue, hfirst, List.dropWhile_cons_of_pos (by simpa using hspace)]
      · intro c hc
        rcases List.mem_cons.mp hc with rfl | hc
        · rfl
        · exact hspaces c hc
      · rw [hdrop, hspace, hrest]
        rfl
    · rw [if_neg (fun hbyte => hspace (hiff.mp hbyte))]
      refine ⟨rfl, ?_, [], by simp, rfl⟩
      rw [hfirst, List.dropWhile_cons_of_neg (by simpa using hspace)]

structure Trims (data : Bytes) (item item' : PpContentItem) : Prop where
  value : slice data item'.offset item'.length = trimmed (slice data item.offset item.length)
  stop_le : item'.offset + item'.length ≤ item.offset + item.length
  spaces : ∃ spaces : Bytes, (∀ c ∈ spaces, c = 32) ∧
    data.drop item.offset = spaces ++ data.drop item'.offset

lemma trims_trim {data : Bytes} {item : PpContentItem} (h : item.offset + item.length ≤ data.length) :
    Trims data item (trim data item) := by
  obtain ⟨hle, hend⟩ := trimEnd_spec h
  have hfits : item.offset + trimEnd data item.offset item.length ≤ data.length := by omega
  obtain ⟨hstop, hvalue, hspaces⟩ := begins_trimBegin hfits
  refine ⟨?_, ?_, hspaces⟩
  · rw [trim, hvalue, hend, trimmed]
  · rw [trim, hstop]
    omega

end PpContentItem

namespace PpContents

lemma item_setItem_self (contents : PpContents) (node : Leaf) (item : PpContentItem) :
    (contents.setItem node item).item node = item := by
  unfold setItem PpContents.item
  cases node.typeNode with
  | std => exact Function.update_self _ _ _
  | custom => exact Function.update_self _ _ _

lemma item_setItem_of_ne (contents : PpContents) {node node' : Leaf} (item : PpContentItem)
    (hne : ¬(node'.typeNode = node.typeNode ∧ node'.nodeIndex = node.nodeIndex)) :
    (contents.setItem node item).item node' = contents.item node' := by
  unfold setItem PpContents.item
  cases htype : node.typeNode with
  | std =>
    cases htype' : node'.typeNode with
    | std =>
      exact Function.update_of_ne (fun heq => hne ⟨htype'.trans htype.symm, heq⟩) _ _
    | custom => rfl
  | custom =>
    cases htype' : node'.typeNode with
    | std => rfl
    | custom =>
      exact Function.update_of_ne (fun heq => hne ⟨htype'.trans htype.symm, heq⟩) _ _

lemma item_setItem_of_isSet {contents : PpContents} {node node' : Leaf} (item : PpContentItem)
    (hnode : contents.isSetNode node = false) (hset : (contents.item node').length ≠ 0) :
    (contents.setItem node item).item node' = contents.item node' := by
  refine item_setItem_of_ne contents item ?_
  rintro ⟨htype, hindex⟩
  have hsame : contents.item node' = contents.item node := by
    unfold PpContents.item
    rw [htype, hindex]
  rw [hsame] at hset
  rw [isSetNode, decide_eq_false_iff_not] at hnode
  exact hnode hset

end PpContents

/-! ## What a round does -/

structure Goes (s t : ParseState) : Prop where
  lt : s.i < s.datalen
  advance : s.i < t.i
  datalen_le : t.datalen ≤ s.datalen
  items : ∀ node, (s.contents.item node).length ≠ 0 → t.contents.item node = s.contents.item node
  ended : s.contents.doubleEndLine ≠ none →
    t.contents.doubleEndLine ≠ none ∧ t.rsltDataLen = s.rsltDataLen

section
variable {p : Dictionary} {data : Bytes} {s t : ParseState}

lemma goes_next (hlt : s.i < s.datalen) : Goes s { s with i := s.i + 1 } :=
  ⟨hlt, Nat.lt_succ_self _, le_rfl, fun _ _ => rfl, fun h => ⟨h, rfl⟩⟩

lemma endHeader_cases (data : Bytes) (s : ParseState) :
    ∃ contents : PpContents, contents.doubleEndLine = some s.i ∧
      (∀ node, contents.item node = s.contents.item node) ∧
      ((∃ datalen rsltDataLen, datalen ≤ s.datalen ∧
          endHeader data s = .next ⟨s.i + 3, datalen, rsltDataLen, contents⟩) ∨
        ∃ rsltDataLen, endHeader data s = .done (rsltDataLen, contents)) := by
  unfold endHeader
  generalize (if byteAt data s.i = 13 then 4 else 2) = size
  refine ⟨{ s.contents with doubleEndLine := some s.i, doubleEndLineSize := size }, rfl,
    fun _ => rfl, ?_⟩
  dsimp only
  split
  · split
    · rename_i hcut
      exact .inl ⟨_, _, hcut.le, rfl⟩
    · exact .inl ⟨_, _, le_rfl, rfl⟩
  · exact .inr ⟨_, rfl⟩

lemma goes_endHeader (hlt : s.i < s.datalen) (hnone : s.contents.doubleEndLine = none)
    (h : endHeader data s = .next t) : Goes s t := by
  obtain ⟨contents, -, hitems, ⟨datalen, rsltDataLen, hle, heq⟩ | ⟨rsltDataLen, heq⟩⟩ :=
    endHeader_cases data s
  · obtain rfl := Outcome.next.inj (heq.symm.trans h)
    exact ⟨hlt, by dsimp only; omega, hle, fun node _ => hitems node,
      fun hsome => absurd hnone hsome⟩
  · cases heq.symm.trans h

lemma le_lineStop (data : Bytes) (datalen i : Nat) : i ≤ lineStop data datalen i :=
  Nat.le_add_right _ _

lemma goes_readHeader (hlt : s.i < s.datalen) {node : Leaf} {namelength : Nat}
    (hpos : 0 < namelength) (hnode : s.contents.isSetNode node = false) :
    Goes s (readHeader data s node namelength) := by
  have hstop := le_lineStop data s.datalen (s.i + namelength)
  have hitems : ∀ item node', (s.contents.item node').length ≠ 0 →
      (s.contents.setItem node item).item node' = s.contents.item node' :=
    fun item _ hset => PpContents.item_setItem_of_isSet item hnode hset
  have hended : ∀ item, (s.contents.setItem node item).doubleEndLine = s.contents.doubleEndLine := by
    intro item
    unfold PpContents.setItem
    split <;> rfl
  have hnext : s.i < if lineStop data s.datalen (s.i + namelength) < s.datalen
      then lineStop data s.datalen (s.i + namelength)
      else lineStop data s.datalen (s.i + namelength) + 1 := by
    split <;> omega
  unfold readHeader
  dsimp only
  split
  · refine ⟨hlt, hnext, le_rfl, ?_, ?_⟩
    · intro node' hset
      dsimp only
      split
      · exact hitems _ node' hset
      · exact hitems _ node' hset
    · intro hsome
      refine ⟨?_, rfl⟩
      dsimp only
      split
      · rw [hended]
        exact hsome
      · rw [hended]
        exact hsome
  · refine ⟨hlt, hnext, le_rfl, fun node' hset => hitems _ node' hset, fun hsome => ⟨?_, rfl⟩⟩
    rw [hended]
    exact hsome

lemma Leaves.pos_of_getNode (h : Leaves p.root) {datalength namelength : Nat} {node : Leaf}
    (hnode : getNode data datalength p = some (node, namelength)) : 0 < namelength := by
  obtain ⟨j, -, rfl, hleaf, -⟩ := PpNode.leafAt_of_getContent hnode
  have hpath := (h.name _ _ hleaf).1
  rcases Nat.eq_zero_or_pos j with rfl | hj
  · exact absurd rfl hpath
  · omega

lemma Leaves.goes (hleaves : Leaves p.root) (h : parseRound p data s = .next t) : Goes s t := by
  unfold parseRound at h
  split at h
  · rename_i hlt
    split at h
    · rename_i hend
      exact goes_endHeader hlt hend.1 h
    · split at h
      · split at h
        · rename_i node namelength hnode
          split at h
          · obtain rfl := Outcome.next.inj h
            exact goes_next hlt
          · rename_i hset
            obtain rfl := Outcome.next.inj h
            exact goes_readHeader hlt (hleaves.pos_of_getNode hnode) (Bool.eq_false_iff.mpr hset)
        · obtain rfl := Outcome.next.inj h
          exact goes_next hlt
      · obtain rfl := Outcome.next.inj h
        exact goes_next hlt
  · cases h

lemma parseRound_ne_broken (s : ParseState) : parseRound p data s ≠ .broken := by
  unfold parseRound
  intro h
  split at h
  · split at h
    · obtain ⟨_, -, -, ⟨_, _, -, heq⟩ | ⟨_, heq⟩⟩ := endHeader_cases data s
      · cases heq.symm.trans h
      · cases heq.symm.trans h
    · split at h
      · split at h
        · split at h <;> cases h
        · cases h
      · cases h
  · cases h

lemma parseRound_done {result : Nat × PpContents} (h : parseRound p data s = .done result) :
    (∀ node, (s.contents.item node).length ≠ 0 → result.2.item node = s.contents.item node) ∧
      (s.contents.doubleEndLine ≠ none → result.1 = s.rsltDataLen) := by
  unfold parseRound at h
  split at h
  · split at h
    · rename_i hend
      obtain ⟨contents, -, hitems, ⟨_, _, -, heq⟩ | ⟨_, heq⟩⟩ := endHeader_cases data s
      · cases heq.symm.trans h
      · obtain rfl := Outcome.done.inj (heq.symm.trans h)
        exact ⟨fun node _ => hitems node, fun hsome => absurd hend.1 hsome⟩
    · split at h
      · split at h
        · split at h <;> cases h
        · cases h
      · cases h
  · obtain rfl := Outcome.done.inj h
    exact ⟨fun _ _ => rfl, fun _ => rfl⟩

lemma Leaves.exists_result (hleaves : Leaves p.root) {fuel : Nat} (s : ParseState)
    (hfuel : s.datalen - s.i < fuel) : ∃ result, runLoop (parseRound p data) fuel s = some result := by
  refine exists_runLoop_of_lt (I := fun _ => True) (fun s => s.datalen - s.i) ?_
    (fun s _ => parseRound_ne_broken s) trivial hfuel
  intro s t _ h
  have hgoes := hleaves.goes h
  refine ⟨trivial, ?_⟩
  have hlt := hgoes.lt
  have hadvance := hgoes.advance
  have hle := hgoes.datalen_le
  omega

lemma Leaves.item_result (hleaves : Leaves p.root) {node : Leaf} {result : Nat × PpContents}
    {fuel : Nat} (hset : (s.contents.item node).length ≠ 0)
    (h : runLoop (parseRound p data) fuel s = some result) :
    result.2.item node = s.contents.item node := by
  refine runLoop_invariant (I := fun t => t.contents.item node = s.contents.item node)
    (Q := fun r => r.2.item node = s.contents.item node) ?_ ?_ rfl h
  · intro t u ht hround
    rw [(hleaves.goes hround).items node (by rwa [ht]), ht]
  · intro t r ht hround
    rw [(parseRound_done hround).1 node (by rwa [ht]), ht]

lemma Leaves.length_result (hleaves : Leaves p.root) {result : Nat × PpContents} {fuel : Nat}
    (hended : s.contents.doubleEndLine ≠ none)
    (h : runLoop (parseRound p data) fuel s = some result) : result.1 = s.rsltDataLen := by
  refine runLoop_invariant
    (I := fun t => t.contents.doubleEndLine ≠ none ∧ t.rsltDataLen = s.rsltDataLen)
    (Q := fun r => r.1 = s.rsltDataLen) ?_ ?_ ⟨hended, rfl⟩ h
  · intro t u ht hround
    obtain ⟨hkept, hlength⟩ := (hleaves.goes hround).ended ht.1
    exact ⟨hkept, hlength.trans ht.2⟩
  · intro t r ht hround
    exact ((parseRound_done hround).2 ht.1).trans ht.2

end

/-!
## The pass over the lines of a header

At the begin of a line the pass looks for a name and reads its value; it goes on behind the line
end. So the contents behind a header are those that its lines give one after the other.
-/

def IsLine (line : Bytes) : Prop := line ≠ [] ∧ 0 ∉ line ∧ 10 ∉ line ∧ 13 ∉ line

def readLine (p : Dictionary) (data : Bytes) (start : Nat) (line : Bytes)
    (contents : PpContents) : PpContents :=
  match getNode line line.length p with
  | some (node, namelength) =>
    if contents.isSetNode node then contents
    else
      let item := PpContentItem.trim data ⟨start + namelength, line.length - namelength⟩
      let contents := contents.setItem node item
      if node.isContentLength ∧ item.length ≠ 0 then
        { contents with contentLength := atoi (data.drop item.offset) }
      else contents
  | none => contents

def readLines (p : Dictionary) (data : Bytes) : Nat → List Bytes → PpContents → PpContents
  | _, [], contents => contents
  | start, line :: lines, contents =>
    readLines p data (start + line.length + 2) lines (readLine p data start line contents)

structure LineAt (data before line after : Bytes) : Prop where
  data_eq : data = before ++ (line ++ 13 :: 10 :: after)
  isLine : IsLine line
  begin_eq : before = [] ∨ before.getLast? = some 10
  size : data.length < 2 ^ 32

section
variable {p : Dictionary} {data before line after : Bytes}

namespace LineAt

lemma length_eq (h : LineAt data before line after) :
    data.length = before.length + line.length + 2 + after.length := by
  rw [h.data_eq]
  simp only [List.length_append, List.length_cons]
  omega

lemma drop_eq (h : LineAt data before line after) {k : Nat} (hk : k ≤ line.length) :
    data.drop (before.length + k) = line.drop k ++ 13 :: 10 :: after := by
  rw [h.data_eq, List.drop_length_add_append, List.drop_append_of_le_length hk]

lemma byteAt_line (h : LineAt data before line after) {j : Nat} (hj : j < line.length) :
    byteAt data (before.length + j) ≠ 10 ∧ byteAt data (before.length + j) ≠ 13 := by
  have hprefix : line <+: line ++ 13 :: 10 :: after := List.prefix_append _ _
  have hbyte : byteAt data (before.length + j) = byteAt line j := by
    rw [h.data_eq, byteAt_append_right, byteAt_of_isPrefix hprefix hj]
  have hmem : line.getD j 0 ∈ line := by
    rw [List.getD_eq_getElem?_getD, List.getElem?_eq_getElem hj]
    exact List.getElem_mem hj
  rw [hbyte]
  constructor
  · intro heq
    exact h.isLine.2.2.1 ((byteAt_eq_iff (c := 10) rfl).mp heq ▸ hmem)
  · intro heq
    exact h.isLine.2.2.2 ((byteAt_eq_iff (c := 13) rfl).mp heq ▸ hmem)

lemma byteAt_after (h : LineAt data before line after) (j : Nat) :
    byteAt data (before.length + line.length + j) = byteAt (13 :: 10 :: after) j := by
  rw [h.data_eq, ← List.append_assoc, ← List.length_append, byteAt_append_right]

lemma getNode_eq (h : LineAt data before line after) (hleaves : Leaves p.root) :
    getNode (data.drop before.length) ((data.length - before.length - 1) % 2 ^ 32) p =
      getNode line line.length p := by
  have hlength := h.length_eq
  have hsize := h.size
  have hdrop := h.drop_eq (Nat.zero_le _)
  rw [Nat.add_zero, List.drop_zero] at hdrop
  have hlimit : 0 + line.length ≤ (data.length - before.length - 1) % 2 ^ 32 := by omega
  have hline : ∀ path l, p.root.leafAt path = some l → 13 ∉ path :=
    fun path l hl => (hleaves.name path l hl).2.2
  rw [getNode, hdrop, PpNode.getContent_line hline hlimit, Nat.zero_add]
  rfl

lemma isLineBegin_start (h : LineAt data before line after) :
    isLineBegin data before.length = true := by
  rcases h.begin_eq with rfl | hlast
  · rfl
  · obtain ⟨b, rfl⟩ := List.getLast?_eq_some_iff.mp hlast
    have hbyte : byteAt data ((b ++ [10]).length - 1) = 10 := by
      rw [h.data_eq, List.append_assoc, List.length_append, List.length_singleton,
        Nat.add_sub_cancel]
      exact byteAt_append_right b _ 0
    unfold isLineBegin
    rw [hbyte]
    simp

lemma lineStop_eq (h : LineAt data before line after) {k : Nat} (hk : k ≤ line.length) :
    lineStop data data.length (before.length + k) = before.length + line.length := by
  have hlength := h.length_eq
  have hrest : slice data (before.length + k) (data.length - (before.length + k)) =
      line.drop k ++ 13 :: 10 :: after := by
    rw [slice, h.drop_eq hk, List.take_of_length_le]
    simp only [List.length_append, List.length_drop, List.length_cons]
    omega
  have htake : (line.drop k ++ 13 :: 10 :: after).takeWhile (fun c => c ≠ 13 && c ≠ 10) =
      line.drop k := by
    refine takeWhile_append_of_all ?_ (fun c hc => ?_)
    · intro c hc
      have hmem : c ∈ line := List.mem_of_mem_drop hc
      have h13 : c ≠ 13 := fun heq => h.isLine.2.2.2 (heq ▸ hmem)
      have h10 : c ≠ 10 := fun heq => h.isLine.2.2.1 (heq ▸ hmem)
      simp [h13, h10]
    · rw [← Option.mem_some_iff.mp hc]
      rfl
  rw [lineStop, hrest, htake, List.length_drop]
  omega

end LineAt

/-! ## One line -/

variable {contents : PpContents} {rslt : Nat}

lemma parseRound_plain {i : Nat} (hi : i < data.length)
    (hend : isDoubleEnd data data.length i = false) (hbegin : isLineBegin data i = false) :
    parseRound p data ⟨i, data.length, rslt, contents⟩ =
      .next ⟨i + 1, data.length, rslt, contents⟩ := by
  have hnot : ¬(contents.doubleEndLine = none ∧ isDoubleEnd data data.length i = true) := by
    rw [hend]
    exact fun hand => Bool.noConfusion hand.2
  rw [parseRound, if_pos hi, if_neg hnot, if_neg (by rw [hbegin]; exact Bool.false_ne_true)]

lemma isDoubleEnd_eq_false {i : Nat} (h10 : byteAt data i ≠ 10) (h13 : byteAt data i ≠ 13) :
    isDoubleEnd data data.length i = false := by
  unfold isDoubleEnd
  simp [h10, h13]

lemma isLineBegin_eq_false {i : Nat} (hi : i ≠ 0) (h10 : byteAt data (i - 1) ≠ 10)
    (h13 : byteAt data (i - 1) ≠ 13) : isLineBegin data i = false := by
  unfold isLineBegin
  simp [hi, h10, h13]

lemma LineAt.visits_rest (h : LineAt data before line after) {j : Nat} (hj : 0 < j)
    (hle : j ≤ line.length) :
    Visits (parseRound p data) ⟨before.length + j, data.length, rslt, contents⟩
      ⟨before.length + line.length, data.length, rslt, contents⟩ := by
  induction hn : line.length - j generalizing j with
  | zero =>
    obtain rfl : j = line.length := by omega
    exact .refl _
  | succ n ih =>
    have hlt : j < line.length := by omega
    have hlength := h.length_eq
    obtain ⟨h10, h13⟩ := h.byteAt_line hlt
    obtain ⟨h10', h13'⟩ := h.byteAt_line (show j - 1 < line.length by omega)
    have hprev : before.length + j - 1 = before.length + (j - 1) := by omega
    refine .head (parseRound_plain (by omega) (isDoubleEnd_eq_false h10 h13) ?_)
      (ih (Nat.succ_pos j) hlt (by omega))
    exact isLineBegin_eq_false (by omega) (by rwa [hprev]) (by rwa [hprev])

lemma LineAt.readHeader_eq (h : LineAt data before line after) {node : Leaf} {namelength : Nat}
    (hname : namelength ≤ line.length) :
    readHeader data ⟨before.length, data.length, rslt, contents⟩ node namelength =
      ⟨before.length + line.length, data.length, rslt,
        let item := PpContentItem.trim data
          ⟨before.length + namelength, line.length - namelength⟩
        let contents := contents.setItem node item
        if node.isContentLength ∧ item.length ≠ 0 then
          { contents with contentLength := atoi (data.drop item.offset) }
        else contents⟩ := by
  have hlength := h.length_eq
  have hsize := h.size
  have hoffset : (before.length + namelength) % 2 ^ 32 = before.length + namelength :=
    Nat.mod_eq_of_lt (by omega)
  have hvalue : sub32 (before.length + line.length) (before.length + namelength) =
      line.length - namelength := by
    rw [sub32_eq (by omega) (by omega)]
    omega
  have htrims : PpContentItem.Trims data ⟨before.length + namelength, line.length - namelength⟩
      (PpContentItem.trim data ⟨before.length + namelength, line.length - namelength⟩) :=
    PpContentItem.trims_trim (by dsimp only; omega)
  have hstop := htrims.stop_le
  have hread : ∀ datalen, datalen = data.length →
      readLength data datalen
        (PpContentItem.trim data ⟨before.length + namelength, line.length - namelength⟩) =
      atoi (data.drop
        (PpContentItem.trim data ⟨before.length + namelength, line.length - namelength⟩).offset) := by
    rintro datalen rfl
    dsimp only at hstop
    rw [readLength, add32_eq (by omega), if_neg (by omega)]
  unfold readHeader
  dsimp only
  rw [h.lineStop_eq hname, hoffset, hvalue, if_pos (by omega), if_pos (by omega), hread _ rfl]

lemma LineAt.visits (h : LineAt data before line after) (hleaves : Leaves p.root) :
    Visits (parseRound p data) ⟨before.length, data.length, rslt, contents⟩
      ⟨before.length + line.length, data.length, rslt,
        readLine p data before.length line contents⟩ := by
  have hlength := h.length_eq
  have hpos : 0 < line.length := List.length_pos_of_ne_nil h.isLine.1
  obtain ⟨h10, h13⟩ := h.byteAt_line hpos
  rw [Nat.add_zero] at h10 h13
  have hend : isDoubleEnd data data.length before.length = false := isDoubleEnd_eq_false h10 h13
  have hnot : ¬(contents.doubleEndLine = none ∧
      isDoubleEnd data data.length before.length = true) := by
    rw [hend]
    exact fun hand => Bool.noConfusion hand.2
  have hround : parseRound p data ⟨before.length, data.length, rslt, contents⟩ =
      match getNode line line.length p with
      | some (node, namelength) =>
        if contents.isSetNode node then .next ⟨before.length + 1, data.length, rslt, contents⟩
        else .next (readHeader data ⟨before.length, data.length, rslt, contents⟩ node namelength)
      | none => .next ⟨before.length + 1, data.length, rslt, contents⟩ := by
    rw [parseRound, if_pos (by dsimp only; omega), if_neg hnot, if_pos h.isLineBegin_start]
    cases hnode : getNode line line.length p with
    | none => simp only [h.getNode_eq hleaves, hnode]
    | some found => simp only [h.getNode_eq hleaves, hnode]
  have hrest : Visits (parseRound p data) ⟨before.length + 1, data.length, rslt, contents⟩
      ⟨before.length + line.length, data.length, rslt, contents⟩ := h.visits_rest Nat.one_pos hpos
  unfold readLine
  cases hnode : getNode line line.length p with
  | none =>
    rw [hnode] at hround
    exact .head hround hrest
  | some found =>
    obtain ⟨node, namelength⟩ := found
    rw [hnode] at hround
    dsimp only at hround ⊢
    by_cases hset : contents.isSetNode node = true
    · rw [if_pos hset] at hround ⊢
      exact .head hround hrest
    · obtain ⟨j, hj, hname, -⟩ := PpNode.leafAt_of_getContent hnode
      rw [if_neg hset, h.readHeader_eq (by omega)] at hround
      rw [if_neg hset]
      exact .head hround (.refl _)

/-! ## Line ends -/

lemma LineAt.visits_next (h : LineAt data before line after)
    (hafter : ∃ c rest, after = c :: rest ∧ c ≠ 10 ∧ c ≠ 13) :
    Visits (parseRound p data) ⟨before.length + line.length, data.length, rslt, contents⟩
      ⟨before.length + line.length + 2, data.length, rslt, contents⟩ := by
  obtain ⟨c, rest, hafter, h10, h13⟩ := hafter
  have hlength := h.length_eq
  have hpos : 0 < line.length := List.length_pos_of_ne_nil h.isLine.1
  obtain ⟨h10', h13'⟩ := h.byteAt_line (show line.length - 1 < line.length by omega)
  have hprev : before.length + line.length - 1 = before.length + (line.length - 1) := by omega
  have hbytes := h.byteAt_after
  rw [hafter] at hbytes
  have hcr : byteAt data (before.length + line.length) = 13 := hbytes 0
  have hlf : byteAt data (before.length + line.length + 1) = 10 := hbytes 1
  have hc : byteAt data (before.length + line.length + 2) = c.toNat := hbytes 2
  have hc10 : c.toNat ≠ 10 := fun heq => h10 (UInt8.toNat_inj.mp heq)
  have hc13 : c.toNat ≠ 13 := fun heq => h13 (UInt8.toNat_inj.mp heq)
  have hfirst : parseRound p data ⟨before.length + line.length, data.length, rslt, contents⟩ =
      .next ⟨before.length + line.length + 1, data.length, rslt, contents⟩ := by
    refine parseRound_plain (by omega) ?_ ?_
    · unfold isDoubleEnd
      rw [hcr, hc]
      simp [hc13]
    · exact isLineBegin_eq_false (by omega) (by rwa [hprev]) (by rwa [hprev])
  have hsecond : parseRound p data ⟨before.length + line.length + 1, data.length, rslt, contents⟩ =
      .next ⟨before.length + line.length + 2, data.length, rslt, contents⟩ := by
    refine parseRound_plain (by omega) ?_ ?_
    · unfold isDoubleEnd
      rw [hlf, hc]
      simp [hc10]
    · unfold isLineBegin
      rw [Nat.add_sub_cancel, hcr, hlf]
      simp
  exact .head hfirst (.head hsecond (.refl _))

lemma LineAt.parseRound_end (h : LineAt data before line after) {rest : Bytes}
    (hafter : after = 13 :: 10 :: rest) (hnone : contents.doubleEndLine = none) :
    parseRound p data ⟨before.length + line.length, data.length, rslt, contents⟩ =
      endHeader data ⟨before.length + line.length, data.length, rslt, contents⟩ := by
  have hlength := h.length_eq
  have hbytes := h.byteAt_after
  rw [hafter] at hbytes hlength
  rw [List.length_cons, List.length_cons] at hlength
  have hend : isDoubleEnd data data.length (before.length + line.length) = true := by
    have hcr : byteAt data (before.length + line.length) = 13 := hbytes 0
    have hlf : byteAt data (before.length + line.length + 1) = 10 := hbytes 1
    have hcr' : byteAt data (before.length + line.length + 2) = 13 := hbytes 2
    have hlf' : byteAt data (before.length + line.length + 3) = 10 := hbytes 3
    have hlong : 3 < data.length := by omega
    have hroom : before.length + line.length < data.length - 3 := by omega
    unfold isDoubleEnd
    simp [hcr, hlf, hcr', hlf', hlong, hroom]
  rw [parseRound, if_pos (by dsimp only; omega), if_pos ⟨hnone, hend⟩]

/-! ## The lines of a header -/

inductive HeaderAt (data body : Bytes) : Bytes → List Bytes → Prop
  | last {before line : Bytes} (h : LineAt data before line (13 :: 10 :: body)) :
      HeaderAt data body before [line]
  | next {before line after : Bytes} {lines : List Bytes} (h : LineAt data before line after)
      (hafter : ∃ c rest, after = c :: rest ∧ c ≠ 10 ∧ c ≠ 13)
      (hrest : HeaderAt data body (before ++ (line ++ [13, 10])) lines) :
      HeaderAt data body before (line :: lines)

lemma headerAt_joinLines {first body : Bytes} {lines : List Bytes}
    (hdata : data = before ++ (joinLines first lines ++ 13 :: 10 :: 13 :: 10 :: body))
    (hlines : ∀ l ∈ first :: lines, IsLine l) (hbegin : before = [] ∨ before.getLast? = some 10)
    (hsize : data.length < 2 ^ 32) : HeaderAt data body before (first :: lines) := by
  induction lines generalizing before first with
  | nil =>
    rw [joinLines_nil] at hdata
    exact .last ⟨hdata, hlines first List.mem_cons_self, hbegin, hsize⟩
  | cons l lines ih =>
    have hl : IsLine l := hlines l (List.mem_cons_of_mem _ List.mem_cons_self)
    have hat : LineAt data before first (joinLines l lines ++ 13 :: 10 :: 13 :: 10 :: body) := by
      refine ⟨?_, hlines first List.mem_cons_self, hbegin, hsize⟩
      rw [hdata, joinLines_cons, List.append_assoc]
      rfl
    refine .next hat ?_ (ih ?_ (fun l' hl' => hlines l' (List.mem_cons_of_mem _ hl'))
      (.inr (by simp)))
    · obtain ⟨c, rest, hc⟩ := List.exists_cons_of_ne_nil hl.1
      refine ⟨c, rest ++ (lines.flatMap (fun l => 13 :: 10 :: l) ++
        13 :: 10 :: 13 :: 10 :: body), ?_, ?_, ?_⟩
      · rw [hc, joinLines, List.append_assoc]
        rfl
      · rintro rfl
        exact hl.2.2.1 (hc ▸ List.mem_cons_self)
      · rintro rfl
        exact hl.2.2.2 (hc ▸ List.mem_cons_self)
    · rw [hdata, joinLines_cons]
      simp only [List.append_assoc, List.cons_append, List.nil_append]

namespace HeaderAt

variable {body : Bytes} {lines : List Bytes}

lemma length_next (before line : Bytes) :
    (before ++ (line ++ [13, 10])).length = before.length + line.length + 2 := by
  rw [List.length_append, List.length_append]
  rfl

lemma exists_last (h : HeaderAt data body before lines) :
    ∃ before' line', LineAt data before' line' (13 :: 10 :: body) ∧
      data.length - (body.length + 4) = before'.length + line'.length := by
  induction h with
  | @last before line h =>
    have hlength := h.length_eq
    rw [List.length_cons, List.length_cons] at hlength
    exact ⟨before, line, h, by omega⟩
  | next _ _ _ ih => exact ih

lemma visits (h : HeaderAt data body before lines) (hleaves : Leaves p.root) :
    Visits (parseRound p data) ⟨before.length, data.length, rslt, contents⟩
      ⟨data.length - (body.length + 4), data.length, rslt,
        readLines p data before.length lines contents⟩ := by
  induction h generalizing contents with
  | @last before line h =>
    have hlength := h.length_eq
    have hstop : data.length - (body.length + 4) = before.length + line.length := by
      rw [List.length_cons, List.length_cons] at hlength
      omega
    rw [hstop]
    exact h.visits hleaves
  | @next before line after lines h hafter _ ih =>
    rw [length_next] at ih
    exact (h.visits hleaves).trans ((h.visits_next hafter).trans ih)

lemma byteAt_stop (h : HeaderAt data body before lines) :
    byteAt data (data.length - (body.length + 4)) = 13 := by
  obtain ⟨before', line', hlast, hstop⟩ := h.exists_last
  rw [hstop]
  exact hlast.byteAt_after 0

lemma parseRound_stop (h : HeaderAt data body before lines)
    (hnone : contents.doubleEndLine = none) :
    parseRound p data ⟨data.length - (body.length + 4), data.length, rslt, contents⟩ =
      endHeader data ⟨data.length - (body.length + 4), data.length, rslt, contents⟩ := by
  obtain ⟨before', line', hlast, hstop⟩ := h.exists_last
  rw [hstop]
  exact hlast.parseRound_end rfl hnone

end HeaderAt

end

end VoipMonitor.ParsePacket
