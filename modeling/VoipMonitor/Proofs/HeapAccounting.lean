import VoipMonitor.Proofs.HeapChunkSteps

/-!
# The accounting of the heap

The heap counts the sizes of the blocks in use as long as every new item gives a block, and `Free`
gets a pointer in use or one below the buffers: the header of a pointer is read before it is known
that there is one.
-/

namespace VoipMonitor.Heap
open VoipMonitor.Library

namespace Block

def pointer (b : Block) : Nat := b.start + 16

end Block

/-- The items with their rows: the buffers are separate and above `min_ptr`, the pointers in use are
those of the used blocks, and the counter has their sizes. -/
structure HeapInv (s : HeapState) (rows : List (List Block)) : Prop where
  rowsOk : List.Forall₂ ItemOk s.heap.items rows
  separate : SeparateRegions (regionAt s.heap.items noAnswers)
  low : ∀ k, ∀ r ∈ regionAt s.heap.items noAnswers k, IsLow s.heap.minPtr r
  live : s.live.Perm ((used rows).map Block.pointer)
  allocSize : s.heap.allocSize = UInt64.ofNat ((used rows).map Block.sizeField).sum

def Owned (heap : CHeap) (p : Nat) : Prop := ∃ h ∈ heap.items, h.isOwnItem p = true

variable {foreign : Memory} {heap : CHeap} {h g : HeapItem} {blocks blocks' : List Block}
  {b : Block} {n p i j k a minPtr : Nat} {answers : Nat → Option Buffer} {items items' : List HeapItem}
  {rows rows' : List (List Block)} {s : HeapState}

/-- The calls that are promised: buffers that have no byte in common, and `Free` of a pointer in use
or one that the heap does not own. -/
def CallAllowed (s : HeapState) : HeapCall → Prop
  | .mAlloc n answers => n < 2 ^ 32 ∧ ValidAnswers answers ∧
      SeparateRegions (regionAt s.heap.items answers)
  | .free p _ => p ∈ s.live ∨ ¬Owned s.heap p

/-- `MAlloc` makes a new item. -/
def NewItem (heap : CHeap) (n : Nat) (answers : Nat → Option Buffer) : Prop :=
  Refused n answers 0 heap.items ∧ (heap.items = [] ∨ heap.items.length < heap.maxHeapItems)

def GivesRoom (n : Nat) (answer : Option Buffer) : Prop :=
  n ≠ 0 ∧ HeapItem.blockSize n ≠ 0 ∧ ∃ b ∈ answer, HeapItem.blockSize n ≤ b.size

/-- The calls that go right: a new item gives a block, no length passes 32 bits, and a pointer that
is not in use is below `min_ptr`. -/
def GoesRight (s : HeapState) : HeapCall → Prop
  | .mAlloc n answers => AskedFit n answers 0 s.heap.items ∧
      (NewItem s.heap n answers → GivesRoom n (answers s.heap.items.length))
  | .free p _ => p ∈ s.live ∨ p < s.heap.minPtr

/-! ## The header of a block -/

lemma regionAt_of_getElem? (hk : items[k]? = some h) (hbuff : h.buff ≠ 0) :
    regionAt items noAnswers k = some (h.buff, h.size) := by
  rw [regionAt, hk, Option.getD_some, region_of_buff hbuff]

lemma eq_of_inBuffer (hseparate : SeparateRegions (regionAt items noAnswers))
    (hj : items[j]? = some g) (hk : items[k]? = some h) (hg : g.buff ≠ 0) (hh : h.buff ≠ 0)
    (hag : g.buff ≤ a ∧ a < g.buff + g.size) (hah : h.buff ≤ a ∧ a < h.buff + h.size) : j = k := by
  by_contra hne
  have := hseparate j k hne _ (regionAt_of_getElem? hj hg) _ (regionAt_of_getElem? hk hh)
  rw [Separate] at this
  omega

lemma exists_item_of_row (hrows : List.Forall₂ ItemOk items rows) (hk : rows[k]? = some blocks) :
    ∃ h, items[k]? = some h ∧ ItemOk h blocks := by
  obtain ⟨hlt, rfl⟩ := List.getElem?_eq_some_iff.mp hk
  have hlt' : k < items.length := by
    rw [hrows.length_eq]
    exact hlt
  exact ⟨_, List.getElem?_eq_getElem hlt', hrows.get hlt' hlt⟩

lemma exists_row_of_used (hrows : List.Forall₂ ItemOk items rows) (hb : b ∈ used rows) :
    ∃ (k : Nat) (h : HeapItem) (blocks : List Block) (ring : List Nat),
      items[k]? = some h ∧ rows[k]? = some blocks ∧ b ∈ usedBlocks blocks ∧
      Rep h blocks ring ∧ Apart blocks := by
  obtain ⟨blocks, hblocks, hb⟩ := List.mem_flatMap.mp hb
  obtain ⟨k, hk⟩ := List.mem_iff_getElem?.mp hblocks
  obtain ⟨h, hitem, hok⟩ := exists_item_of_row hrows hk
  cases hok with
  | noBuffer hnone hempty =>
    subst hempty
    cases hb
  | row ring hrep hapart => exact ⟨k, h, blocks, ring, hitem, hk, hb, hrep, hapart⟩

lemma Rep.block_of_mem {ring : List Nat} (hrep : Rep h blocks ring) (hb : b ∈ usedBlocks blocks) :
    h.buff ≠ 0 ∧ h.buff ≤ b.start ∧ b.start + 32 ≤ h.buff + h.size ∧ h.mem b.start = b.sizeField := by
  obtain ⟨before, behind, rfl⟩ := List.append_of_mem (List.mem_of_mem_filter hb)
  have hrange := hrep.block
  have hbrk := hrep.brk_le
  have hpos := hrep.buff_pos
  exact ⟨by omega, hrange.1, by omega, hrep.sizeAt_eq⟩

lemma itemSize_used (foreign : Memory) (hrows : List.Forall₂ ItemOk heap.items rows)
    (hseparate : SeparateRegions (regionAt heap.items noAnswers)) (hb : b ∈ used rows) :
    heap.itemSize foreign b.pointer = b.sizeField ∧ Owned heap b.pointer := by
  obtain ⟨k, h, blocks, ring, hk, -, hmem, hrep, -⟩ := exists_row_of_used hrows hb
  obtain ⟨hbuff, hle, hend, hsize⟩ := hrep.block_of_mem hmem
  have hitem : h ∈ heap.items := List.mem_iff_getElem?.mpr ⟨k, hk⟩
  have hstart : b.pointer - usedHeaderSize = b.start := Nat.add_sub_cancel _ _
  have hholds : CHeap.holds h b.start = true := by
    rw [CHeap.holds]
    simp only [Bool.and_eq_true, decide_eq_true_eq]
    exact ⟨⟨hbuff, hle⟩, by omega⟩
  constructor
  · rw [CHeap.itemSize, hstart]
    cases hfind : heap.items.find? fun h => CHeap.holds h b.start with
    | none => exact absurd hholds (List.find?_eq_none.mp hfind h hitem)
    | some g =>
      obtain ⟨j, hj⟩ := List.mem_iff_getElem?.mp (List.mem_of_find?_eq_some hfind)
      have hg := List.find?_some hfind
      rw [CHeap.holds] at hg
      simp only [Bool.and_eq_true, decide_eq_true_eq] at hg
      obtain rfl := eq_of_inBuffer hseparate hj hk hg.1.1 hbuff ⟨hg.1.2, hg.2⟩ ⟨hle, by omega⟩
      obtain rfl := Option.some.inj (hj.symm.trans hk)
      exact hsize
  · refine ⟨h, hitem, ?_⟩
    rw [HeapItem.isOwnItem, decide_eq_true_iff, Block.pointer]
    omega

/-! ## `MAlloc` -/

lemma forall_regionAt_append {P : Nat → Nat × Nat → Prop}
    (hitems : ∀ k, ∀ q ∈ regionAt items noAnswers k, P k q)
    (hlast : ∀ q ∈ region h none, P items.length q) :
    ∀ k, ∀ q ∈ regionAt (items ++ [h]) noAnswers k, P k q := by
  intro k q hq
  rw [regionAt] at hq
  rcases Nat.lt_trichotomy k items.length with hlt | rfl | hgt
  · rw [List.getElem?_append_left hlt] at hq
    exact hitems k q hq
  · rw [List.getElem?_concat_length, Option.getD_some] at hq
    exact hlast q hq
  · rw [List.getElem?_eq_none (by rw [List.length_append, List.length_singleton]; omega)] at hq
    cases hq

lemma SeparateRegions.mono {regions regions' : Nat → Option (Nat × Nat)}
    (hseparate : SeparateRegions regions) (hsub : ∀ k, ∀ q ∈ regions' k, q ∈ regions k) :
    SeparateRegions regions' :=
  fun i j hne q hq r hr => hseparate i j hne q (hsub i q hq) r (hsub j r hr)

structure MAllocRight (s : HeapState) (r : CHeap.MAllocResult) : Prop where
  read : ∀ p ∈ r.headersRead, p ≠ 0 ∧ Owned r.heap p
  failed : r.p = 0 → r.heap.allocSize = s.heap.allocSize
  inv : ∃ rows, HeapInv ⟨r.heap, if r.p = 0 then s.live else r.p :: s.live⟩ rows

lemma HeapInv.newBlock (hinv : HeapInv s rows) (hrows : List.Forall₂ ItemOk items rows')
    (hseparate : SeparateRegions (regionAt items noAnswers))
    (hlow : ∀ k, ∀ r ∈ regionAt items noAnswers k, IsLow minPtr r)
    (hperm : (b :: used rows).Perm (used rows')) (index : Option Nat) :
    MAllocRight s
      ⟨CHeap.incAllocSize foreign { s.heap with items := items, minPtr := minPtr } b.pointer,
        b.pointer, index, [b.pointer]⟩ := by
  have hb : b ∈ used rows' := hperm.mem_iff.mp List.mem_cons_self
  obtain ⟨hitem, howned⟩ :
      CHeap.itemSize foreign { s.heap with items := items, minPtr := minPtr } b.pointer = b.sizeField ∧
        Owned { s.heap with items := items, minPtr := minPtr } b.pointer :=
    itemSize_used foreign hrows hseparate hb
  have hne : b.pointer ≠ 0 := Nat.succ_ne_zero _
  refine ⟨fun p hp => ?_, fun hzero => absurd hzero hne, rows', ?_⟩
  · rw [List.mem_singleton.mp hp]
    exact ⟨hne, howned⟩
  · rw [if_neg hne]
    refine ⟨hrows, hseparate, hlow, ?_, ?_⟩
    · exact (hinv.live.cons b.pointer).trans (hperm.map Block.pointer)
    · rw [CHeap.incAllocSize, hitem, hinv.allocSize, ← (hperm.map Block.sizeField).sum_eq,
        List.map_cons, List.sum_cons, Nat.add_comm, UInt64.ofNat_add]

lemma HeapInv.mAlloc (foreign : Memory) (hinv : HeapInv s rows) (hallowed : CallAllowed s (.mAlloc n answers))
    (hright : GoesRight s (.mAlloc n answers)) :
    ∃ r, s.heap.mAlloc foreign n answers = some r ∧ MAllocRight s r := by
  obtain ⟨-, hanswers, hseparate⟩ := hallowed
  obtain ⟨r, rows', hloop, hsearch, hkeep⟩ :=
    mAllocLoop_spec hinv.rowsOk hanswers hright.1 hinv.low
  have hregions : ∀ k, ∀ q ∈ regionAt r.items noAnswers k, q ∈ regionAt s.heap.items answers k := by
    have hregions := hsearch.regions
    simp only [Nat.zero_add] at hregions
    exact hregions
  rw [CHeap.mAlloc, hloop, Option.bind_some]
  rcases hsearch.found with ⟨hzero, hrefused, hperm⟩ | ⟨b, hptr, hperm⟩
  · rw [if_neg (not_not.mpr hzero)]
    split
    · rename_i hmore
      -- a new item, which gives a block
      obtain ⟨hn, hblock, buffer, hbuffer, hroom⟩ := hright.2 ⟨hrefused, hmore⟩
      have hanswer := hanswers s.heap.items.length
      have hnew : ItemOk .new [] := .noBuffer noBuffer_new rfl
      obtain ⟨⟨h, p⟩, blocks', hcall, hok, hregion, hcases⟩ := hnew.mAlloc hanswer
        (Or.inr (Or.inr ⟨hblock, fun hbuff => absurd noBuffer_new.buff hbuff⟩))
      have hpos := (hanswer buffer hbuffer).1
      have hcall' := hcall
      rw [hbuffer] at hcall'
      obtain ⟨b, hptr, hused⟩ := hcases.resolve_left fun hno =>
        new_mAlloc_ne_zero hpos hn hroom hcall' hno.1
      subst hptr
      rw [hcall, Option.map_some]
      refine ⟨_, rfl, hinv.newBlock (List.rel_append hsearch.rowsOk (.cons hok .nil))
        (hseparate.mono (forall_regionAt_append hregions fun q hq => ?_))
        (forall_regionAt_append (fun k q hq => ?_) fun q hq => ?_) ?_ _⟩
      · rw [hsearch.length, regionAt, List.getElem?_eq_none le_rfl]
        exact hregion ▸ hq
      · exact (hsearch.low k q hq).minPtrAfter .new hanswer
      · exact hnew.low_minPtrAfter hanswer (fun _ hb => by cases hb) (hregion ▸ hq)
      · have hlast : used (rows' ++ [blocks']) = used rows' ++ usedBlocks blocks' := by
          rw [used, List.flatMap_append, List.flatMap_singleton]
          rfl
        have hcons : (b :: used rows).Perm (used rows ++ b :: usedBlocks []) :=
          (List.perm_append_singleton b (used rows)).symm
        exact hcons.trans ((hperm.append hused).trans (List.Perm.of_eq hlast.symm))
    · refine ⟨_, rfl, ⟨fun _ hp => (by cases hp), fun _ => rfl, rows', ?_⟩⟩
      rw [if_pos rfl]
      exact ⟨hsearch.rowsOk, hseparate.mono hregions, hsearch.low,
        hinv.live.trans (hperm.map Block.pointer),
        hinv.allocSize.trans (congrArg UInt64.ofNat (hperm.map Block.sizeField).sum_eq)⟩
  · rw [hptr, if_pos (by omega)]
    exact ⟨_, rfl, hinv.newBlock hsearch.rowsOk (hseparate.mono hregions) hsearch.low hperm _⟩

/-! ## `Free` -/

lemma freeAt_eq_none (hown : ∀ g, items[j]? = some g → g.isOwnItem p = false) :
    CHeap.freeAt items p j = none := by
  rw [CHeap.freeAt]
  cases hj : items[j]? with
  | none => rfl
  | some g =>
    rw [Option.bind_some, HeapItem.free, hown g hj]
    rfl

lemma findFree_eq (hother : ∀ j, j ≠ k → CHeap.freeAt items p j = none)
    (hfree : CHeap.freeAt items p k = some items') (hlt : k < items.length) (heapItemIndex : Nat) :
    (if heapItemIndex ≠ 0 then CHeap.freeAt items p (heapItemIndex - 1) else none).or
      ((List.range items.length).findSome? (CHeap.freeAt items p)) = some items' := by
  have hall : (List.range items.length).findSome? (CHeap.freeAt items p) = some items' := by
    cases hfound : (List.range items.length).findSome? (CHeap.freeAt items p) with
    | none =>
      have hnone := List.findSome?_eq_none_iff.mp hfound k (List.mem_range.mpr hlt)
      exact absurd (hfree.symm.trans hnone) (by simp)
    | some found =>
      obtain ⟨j, -, hj⟩ := List.exists_of_findSome?_eq_some hfound
      by_cases hjk : j = k
      · rw [← hfree, ← hj, hjk]
      · rw [hother j hjk] at hj
        cases hj
  rw [hall]
  split
  · by_cases hindex : heapItemIndex - 1 = k
    · rw [hindex, hfree, Option.some_or]
    · rw [hother _ hindex, Option.none_or]
  · rw [Option.none_or]

lemma forall₂_set (hrows : List.Forall₂ ItemOk items rows) (hok : ItemOk h blocks) (k : Nat) :
    List.Forall₂ ItemOk (items.set k h) (rows.set k blocks) := by
  induction hrows generalizing k with
  | nil => exact .nil
  | cons hhead hrest ih =>
    cases k with
    | zero => exact .cons hok hrest
    | succ k => exact .cons hhead (ih k)

lemma used_set_perm (hk : rows[k]? = some blocks)
    (hperm : (usedBlocks blocks).Perm (b :: usedBlocks blocks')) :
    (used rows).Perm (b :: used (rows.set k blocks')) := by
  induction rows generalizing k with
  | nil => cases hk
  | cons row rows ih =>
    cases k with
    | zero =>
      obtain rfl := Option.some.inj hk
      rw [List.set_cons_zero, used_cons, used_cons]
      exact hperm.append_right _
    | succ k =>
      rw [List.set_cons_succ, used_cons, used_cons]
      exact ((ih hk).append_left _).trans List.perm_middle

lemma destroyLastHeapItem_spec (hrows : List.Forall₂ ItemOk items rows) :
    ∃ rows', List.Forall₂ ItemOk (CHeap.destroyLastHeapItem items) rows' ∧ used rows' = used rows ∧
      ∀ k, ∀ q ∈ regionAt (CHeap.destroyLastHeapItem items) noAnswers k,
        q ∈ regionAt items noAnswers k := by
  have hstay : ∃ rows', List.Forall₂ ItemOk items rows' ∧ used rows' = used rows ∧
      ∀ k, ∀ q ∈ regionAt items noAnswers k, q ∈ regionAt items noAnswers k :=
    ⟨rows, hrows, rfl, fun _ _ => id⟩
  rw [CHeap.destroyLastHeapItem]
  cases hlast : rows.getLast? with
  | none =>
    obtain rfl := List.getLast?_eq_none_iff.mp hlast
    obtain rfl := List.forall₂_nil_right_iff.mp hrows
    exact hstay
  | some blocks =>
    have hk := hlast
    rw [List.getLast?_eq_getElem?] at hk
    obtain ⟨h, hitem, hok⟩ := exists_item_of_row hrows hk
    rw [← hrows.length_eq, ← List.getLast?_eq_getElem?] at hitem
    rw [hitem]
    dsimp only
    split
    · rename_i hbuff
      have hempty : blocks = [] := by
        cases hok with
        | noBuffer hnone hempty => exact hempty
        | row ring hrep hapart => exact absurd hbuff hrep.buff_pos.ne'
      refine ⟨rows.dropLast, ?_, ?_, fun k q hq => ?_⟩
      · rw [List.dropLast_eq_take, List.dropLast_eq_take, hrows.length_eq]
        exact List.forall₂_take _ hrows
      · have hsplit : used rows = used (rows.dropLast ++ [blocks]) :=
          congrArg used (List.dropLast_append_getLast? blocks hlast).symm
        rw [hsplit, hempty, used, used, List.flatMap_append, List.flatMap_singleton]
        exact (List.append_nil _).symm
      · rw [regionAt, List.getElem?_dropLast] at hq
        split at hq
        · exact hq
        · cases hq
    · exact hstay

lemma HeapInv.freeAt (hinv : HeapInv s rows) (hb : b ∈ used rows) :
    ∃ k items' rows', k < s.heap.items.length ∧
      (∀ j, j ≠ k → CHeap.freeAt s.heap.items b.pointer j = none) ∧
      CHeap.freeAt s.heap.items b.pointer k = some items' ∧
      List.Forall₂ ItemOk items' rows' ∧ (used rows).Perm (b :: used rows') ∧
      ∀ k, ∀ q ∈ regionAt items' noAnswers k, q ∈ regionAt s.heap.items noAnswers k := by
  obtain ⟨k, h, blocks, ring, hk, hrow, hmem, hrep, hapart⟩ := exists_row_of_used hinv.rowsOk hb
  obtain ⟨hbuff, hle, hend, -⟩ := hrep.block_of_mem hmem
  have hother : ∀ j, j ≠ k → CHeap.freeAt s.heap.items b.pointer j = none := by
    refine fun j hjk => freeAt_eq_none fun g hj => Bool.not_eq_true _ ▸ fun hown => hjk ?_
    rw [HeapItem.isOwnItem, decide_eq_true_iff] at hown
    rw [Block.pointer] at hown
    exact eq_of_inBuffer hinv.separate hj hk hown.1 hbuff ⟨hown.2.2.1.le, hown.2.2.2⟩ (by omega)
  obtain ⟨hmem, hasked⟩ := List.mem_filter.mp hmem
  obtain ⟨before, behind, rfl⟩ := List.append_of_mem hmem
  obtain ⟨req, hreq⟩ := Option.isSome_iff_exists.mp hasked
  have hlt := (List.getElem?_eq_some_iff.mp hk).1
  have hperm : (usedBlocks (before ++ b :: behind)).Perm
      (b :: (usedBlocks before ++ usedBlocks behind)) := by
    rw [usedBlocks_middle hasked]
    exact List.perm_middle
  -- the regions behind the change of the item
  have hregions : ∀ h', (∀ q ∈ region h' none, q ∈ region h none) →
      ∀ j, ∀ q ∈ regionAt (s.heap.items.set k h') noAnswers j, q ∈ regionAt s.heap.items noAnswers j := by
    intro h' hsub j q hq
    rw [regionAt] at hq ⊢
    rcases eq_or_ne k j with rfl | hkj
    · rw [List.getElem?_set_self hlt] at hq
      rw [hk]
      exact hsub q hq
    · rw [List.getElem?_set_ne hkj] at hq
      exact hq
  rcases hrep.freeBlock hreq hapart with
    ⟨hnone, hresult, hnil⟩ | ⟨blocks', ring', hrep', hapart', hused, -, hsame, hresult⟩
  · have hrows := forall₂_set hinv.rowsOk (.noBuffer hnone rfl) k
    have hperm' : (used rows).Perm (b :: used (rows.set k [])) := by
      refine used_set_perm hrow ?_
      rw [hnil] at hperm
      exact hperm
    have hsub := hregions (h.free (b.start + 16)).1 fun q hq => by
      rw [region, if_pos hnone.buff] at hq
      cases hq
    have hfree : CHeap.freeAt s.heap.items b.pointer k = some (if k + 1 = s.heap.items.length then
        CHeap.destroyLastHeapItem (s.heap.items.set k (h.free (b.start + 16)).1)
        else s.heap.items.set k (h.free (b.start + 16)).1) := by
      rw [CHeap.freeAt, hk, Option.bind_some, Block.pointer, hresult, if_pos (by decide)]
      simp only [true_and]
    split at hfree
    · obtain ⟨rows', hrows', hused, hsub'⟩ := destroyLastHeapItem_spec hrows
      exact ⟨k, _, rows', hlt, hother, hfree, hrows', hused ▸ hperm',
        fun j q hq => hsub j q (hsub' j q hq)⟩
    · exact ⟨k, _, _, hlt, hother, hfree, hrows, hperm', hsub⟩
  · have hrows := forall₂_set hinv.rowsOk (.row ring' hrep' hapart') k
    refine ⟨k, _, _, hlt, hother, ?_, hrows, used_set_perm hrow (hused ▸ hperm), hregions _ fun q hq => ?_⟩
    · rw [CHeap.freeAt, hk, Option.bind_some, Block.pointer, hresult]
      rfl
    · exact hsame.region none ▸ hq

structure FreeRight (s : HeapState) (p : Nat) (r : CHeap.FreeResult) : Prop where
  read : ∀ q ∈ r.headersRead, q ≠ 0 ∧ Owned s.heap q
  failed : r.done = false → r.heap.allocSize = s.heap.allocSize
  inv : ∃ rows, HeapInv ⟨r.heap, if r.done then s.live.erase p else s.live⟩ rows

lemma HeapInv.free (foreign : Memory) {heapItemIndex : Nat} (hinv : HeapInv s rows)
    (hright : GoesRight s (.free p heapItemIndex)) :
    FreeRight s p (s.heap.free foreign p heapItemIndex) := by
  by_cases hp : p ∈ s.live
  · obtain ⟨b, hb, rfl⟩ := List.mem_map.mp (hinv.live.mem_iff.mp hp)
    obtain ⟨hitem, howned⟩ := itemSize_used foreign hinv.rowsOk hinv.separate hb
    obtain ⟨k, items', rows', hlt, hother, hfree, hrows, hperm, hsub⟩ := hinv.freeAt hb
    have hlow : ¬b.pointer < s.heap.minPtr := by
      obtain ⟨k, h, blocks, ring, hk, -, hmem, hrep, -⟩ := exists_row_of_used hinv.rowsOk hb
      obtain ⟨hbuff, hle, -, -⟩ := hrep.block_of_mem hmem
      have hlow := (hinv.low k _ (regionAt_of_getElem? hk hbuff)).2
      rw [Block.pointer]
      omega
    have hfound := findFree_eq hother hfree hlt heapItemIndex
    rw [CHeap.free, if_neg hlow]
    dsimp only [CHeap.decAllocSize]
    rw [hfound]
    refine ⟨fun q hq => ?_, nofun, rows', hrows, hinv.separate.mono hsub,
      fun k r hr => hinv.low k r (hsub k r hr), ?_, ?_⟩
    · rw [List.mem_singleton.mp hq]
      exact ⟨Nat.succ_ne_zero _, howned⟩
    · have hlive := (hinv.live.trans (hperm.map Block.pointer)).erase b.pointer
      rw [List.map_cons, List.erase_cons_head] at hlive
      exact hlive
    · rw [hitem, hinv.allocSize, (hperm.map Block.sizeField).sum_eq, List.map_cons, List.sum_cons,
        UInt64.ofNat_add, UInt64.add_comm, UInt64.add_sub_cancel]
  · rw [CHeap.free, if_pos (hright.resolve_left hp)]
    exact ⟨nofun, fun _ => rfl, rows, hinv⟩

/-! ## Runs -/

structure Accounts (foreign : Memory) (ok : HeapState → HeapCall → Prop) (s : HeapState) :
    Prop where
  allocSize : s.heap.allocSize = UInt64.ofNat (s.live.map (s.heap.itemSize foreign)).sum
  live : ∀ p ∈ s.live, p ≠ 0 ∧ Owned s.heap p
  mAlloc : ∀ n answers, ok s (.mAlloc n answers) → ∃ r, s.heap.mAlloc foreign n answers = some r ∧
    (∀ p ∈ r.headersRead, p ≠ 0 ∧ Owned r.heap p) ∧
    (r.p = 0 → r.heap.allocSize = s.heap.allocSize)
  free : ∀ p heapItemIndex, ok s (.free p heapItemIndex) →
    (∀ q ∈ (s.heap.free foreign p heapItemIndex).headersRead, q ≠ 0 ∧ Owned s.heap q) ∧
    ((s.heap.free foreign p heapItemIndex).done = false →
      (s.heap.free foreign p heapItemIndex).heap.allocSize = s.heap.allocSize)

lemma HeapInv.accounts (hinv : HeapInv s rows) :
    Accounts foreign (fun s c => CallAllowed s c ∧ GoesRight s c) s := by
  have hused : ∀ b ∈ used rows, s.heap.itemSize foreign b.pointer = b.sizeField ∧
      Owned s.heap b.pointer := fun b hb => itemSize_used foreign hinv.rowsOk hinv.separate hb
  refine ⟨?_, fun p hp => ?_, fun n answers hok => ?_, fun p heapItemIndex hok => ?_⟩
  · have hsizes := hinv.live.map (s.heap.itemSize foreign)
    have hsame : (used rows).map (s.heap.itemSize foreign ∘ Block.pointer) =
        (used rows).map Block.sizeField := List.map_congr_left fun b hb => (hused b hb).1
    rw [List.map_map, hsame] at hsizes
    rw [hsizes.sum_eq, hinv.allocSize]
  · obtain ⟨b, hb, rfl⟩ := List.mem_map.mp (hinv.live.mem_iff.mp hp)
    exact ⟨Nat.succ_ne_zero _, (hused b hb).2⟩
  · obtain ⟨r, hr, hright⟩ := hinv.mAlloc foreign hok.1 hok.2
    exact ⟨r, hr, hright.read, hright.failed⟩
  · have hright := hinv.free foreign hok.2
    exact ⟨hright.read, hright.failed⟩

lemma HeapInv.step {t : HeapState} {c : HeapCall} (hinv : HeapInv s rows)
    (hok : CallAllowed s c ∧ GoesRight s c) (hstep : heapStep foreign s c = some t) :
    ∃ rows, HeapInv t rows := by
  cases c with
  | mAlloc n answers =>
    obtain ⟨r, hr, hright⟩ := hinv.mAlloc foreign hok.1 hok.2
    rw [heapStep, hr] at hstep
    exact Option.some.inj hstep ▸ hright.inv
  | free p heapItemIndex =>
    exact Option.some.inj hstep ▸ (hinv.free foreign hok.2).inv

lemma heapInv_start (maxHeapItems : Nat) : HeapInv (.start maxHeapItems) [] := by
  have hnone : ∀ k, regionAt [] noAnswers k = none := fun _ => rfl
  refine ⟨.nil, fun i j _ q hq => ?_, fun k q hq => ?_, List.Perm.refl _, rfl⟩
  · cases (hnone i).symm.trans hq
  · cases (hnone k).symm.trans hq

/-- The heap in every run whose calls go right. -/
theorem reach_accounts {foreign : Memory} {maxHeapItems : Nat} {s : HeapState}
    (h : ReachBy (heapStep foreign) (fun s c => CallAllowed s c ∧ GoesRight s c)
      (.start maxHeapItems) s) :
    Accounts foreign (fun s c => CallAllowed s c ∧ GoesRight s c) s := by
  have hinv : ∃ rows, HeapInv s rows := by
    refine h.invariant (I := fun s => ∃ rows, HeapInv s rows)
      ⟨[], heapInv_start maxHeapItems⟩ fun s c t hinv hok hstep => ?_
    obtain ⟨rows, hinv⟩ := hinv
    exact hinv.step hok hstep
  obtain ⟨rows, hinv⟩ := hinv
  exact hinv.accounts

def firstAnswer (i : Nat) : Option Buffer := if i = 0 then some ⟨64, 1000, fun _ => 0⟩ else none

lemma allowed_firstAnswer : CallAllowed (.start 2) (.mAlloc 100 firstAnswer) := by
  have hzero : ∀ k, ∀ q ∈ regionAt [] firstAnswer k, k = 0 := by
    intro k q hq
    by_contra hk
    have hnone : firstAnswer k = none := if_neg hk
    have hregion : regionAt [] firstAnswer k = none := by
      rw [regionAt, hnone]
      rfl
    cases hregion.symm.trans hq
  refine ⟨by decide, fun i b hb => ?_, fun i j hne q hq r hr => ?_⟩
  · rw [firstAnswer] at hb
    split at hb
    · obtain rfl := Option.some.inj hb
      exact ⟨by decide, by decide⟩
    · cases hb
  · exact absurd ((hzero i q hq).trans (hzero j r hr).symm) hne

theorem reach_accounts_example : ∃ s t,
    heapStep (fun _ => 0) (.start 2) (.mAlloc 100 firstAnswer) = some s ∧ s.live = [80] ∧
    s.heap.allocSize = 129 ∧ heapStep (fun _ => 0) s (.free 80 1) = some t ∧
    Accounts (fun _ => 0) (fun s c => CallAllowed s c ∧ GoesRight s c) t := by
  have hrun : (heapStep (fun _ => 0) (.start 2) (.mAlloc 100 firstAnswer)).map
      (fun s => (s.live, s.heap.allocSize)) = some ([80], 129) := by
    decide +kernel
  obtain ⟨s, hs, hmembers⟩ := Option.map_eq_some_iff.mp hrun
  obtain ⟨hlive, hsize⟩ : s.live = [80] ∧ s.heap.allocSize = 129 := Prod.mk.inj hmembers
  have hright : GoesRight (.start 2) (.mAlloc 100 firstAnswer) :=
    ⟨trivial, fun _ => ⟨by decide, by decide, _, rfl, by decide⟩⟩
  have hfree : 80 ∈ s.live := hlive ▸ List.mem_singleton_self 80
  have hreach : ReachBy (heapStep fun _ => 0) (fun s c => CallAllowed s c ∧ GoesRight s c)
      (.start 2) s := ReachBy.initial.step ⟨allowed_firstAnswer, hright⟩ hs
  have hok : CallAllowed s (.free 80 1) ∧ GoesRight s (.free 80 1) :=
    ⟨Or.inl hfree, Or.inl hfree⟩
  exact ⟨s, _, hs, hlive, hsize, rfl, reach_accounts (hreach.step hok rfl)⟩

/-- The first item gets no buffer: the header of `NULL` is read. -/
theorem mAlloc_reads_null : ¬∀ (foreign : Memory) (maxHeapItems : Nat) (s : HeapState),
    ReachBy (heapStep foreign) CallAllowed (.start maxHeapItems) s →
      Accounts foreign CallAllowed s := by
  intro hall
  have hnone : ∀ k, regionAt [] noAnswers k = none := fun _ => rfl
  have hallowed : CallAllowed (.start 1) (.mAlloc 10 noAnswers) := by
    refine ⟨by decide, fun i b hb => ?_, fun i j _ q hq => ?_⟩
    · cases hb
    · cases (hnone i).symm.trans hq
  obtain ⟨r, hr, hread, -⟩ :=
    (hall (fun _ => 0) 1 (.start 1) .initial).mAlloc 10 noAnswers hallowed
  have hheaders : ((HeapState.start 1).heap.mAlloc (fun _ => 0) 10 noAnswers).map
      (·.headersRead) = some [0] := rfl
  rw [hr, Option.map_some, Option.some.injEq] at hheaders
  exact (hread 0 (hheaders ▸ List.mem_singleton_self 0)).1 rfl

end VoipMonitor.Heap
