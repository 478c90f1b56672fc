import VoipMonitor.Model.HeapChunk
import VoipMonitor.Proofs.HeapItemRuns

/-!
# What the calls do to the items of the heap

Every item has no buffer or holds a row of blocks, and the buffers have no byte in common. A call
changes the row of one item: there is one used block more, or one less.
-/

namespace VoipMonitor.Heap

inductive ItemOk (h : HeapItem) (blocks : List Block) : Prop
  | noBuffer (hnone : NoBuffer h) (hempty : blocks = [])
  | row (ring : List Nat) (hrep : Rep h blocks ring) (hapart : Apart blocks)

def region (h : HeapItem) (answer : Option Buffer) : Option (Nat × Nat) :=
  if h.buff = 0 then answer.map fun b => (b.address, b.size) else some (h.buff, h.size)

/-- The memory of the item at a place; there is a new one behind the last. -/
def regionAt (items : List HeapItem) (answers : Nat → Option Buffer) (k : Nat) :
    Option (Nat × Nat) :=
  region (items[k]?.getD .new) (answers k)

def noAnswers : Nat → Option Buffer := fun _ => none

def SeparateRegions (regions : Nat → Option (Nat × Nat)) : Prop :=
  ∀ i j, i ≠ j → ∀ q ∈ regions i, ∀ r ∈ regions j, Separate q.1 q.2 r.1 r.2

/-- What `initHeapBuffer` promises. -/
def ValidAnswers (answers : Nat → Option Buffer) : Prop :=
  ∀ i, ∀ b ∈ answers i, 0 < b.address ∧ b.size < 2 ^ 32

def used (rows : List (List Block)) : List Block := rows.flatMap usedBlocks

def Refuses (h : HeapItem) (n : Nat) (answer : Option Buffer) : Prop :=
  h.isFull = true ∨ ∃ r, h.mAlloc n answer = some r ∧ r.2 = 0

/-- No item gives a block. -/
def Refused (n : Nat) (answers : Nat → Option Buffer) : Nat → List HeapItem → Prop
  | _, [] => True
  | i, h :: rest => Refuses h n (answers i) ∧ Refused n answers (i + 1) rest

/-- No length in `Alloc` of the item passes 32 bits: that of the block is not zero, and the
comparison in `IncrementBreak` says whether the block is in the buffer. -/
def LengthsFit (h : HeapItem) (n : Nat) (answer : Option Buffer) : Prop :=
  n = 0 ∨ (h.buff = 0 ∧ answer = none) ∨
    HeapItem.blockSize n ≠ 0 ∧ (h.buff ≠ 0 → NoneFits h (HeapItem.blockSize n) →
      (h.brk - h.buff + HeapItem.blockSize n) % 2 ^ 32 ≤ h.size →
        h.brk - h.buff + HeapItem.blockSize n ≤ h.size)

def AskedFit (n : Nat) (answers : Nat → Option Buffer) : Nat → List HeapItem → Prop
  | _, [] => True
  | i, h :: rest => (h.isFull = false → LengthsFit h n (answers i)) ∧
      (Refuses h n (answers i) → AskedFit n answers (i + 1) rest)

variable {h g : HeapItem} {blocks blocks' : List Block} {b : Block} {n p i j k minPtr : Nat}
  {answer : Option Buffer} {answers : Nat → Option Buffer} {items : List HeapItem}
  {rows : List (List Block)}

lemma noBuffer_new : NoBuffer .new := ⟨rfl, rfl, rfl, rfl, rfl⟩

lemma region_of_buff (hbuff : h.buff ≠ 0) (answer : Option Buffer) :
    region h answer = some (h.buff, h.size) := if_neg hbuff

lemma SameBuffer.region {h' : HeapItem} (hsame : SameBuffer h h') (answer : Option Buffer) :
    region h' answer = region h answer := by
  rw [Heap.region, Heap.region, hsame.buff, hsame.size]

lemma region_none_subset (answer : Option Buffer) {r : Nat × Nat} (hr : r ∈ region h none) :
    r ∈ region h answer := by
  rw [region] at hr ⊢
  split at hr
  · cases hr
  · rename_i hbuff
    rw [if_neg hbuff]
    exact hr

lemma Rep.alloc_item {ring : List Nat} (hrep : Rep h blocks ring) (hapart : Apart blocks)
    (hsize : n = 0 ∨ HeapItem.blockSize n ≠ 0)
    (hroom : n ≠ 0 → NoneFits h (HeapItem.blockSize n) →
      (h.brk - h.buff + HeapItem.blockSize n) % 2 ^ 32 ≤ h.size →
        h.brk - h.buff + HeapItem.blockSize n ≤ h.size) :
    ∃ result blocks', h.alloc n = some result ∧ ItemOk result.1 blocks' ∧
      (result.2 = 0 ∧ (usedBlocks blocks).Perm (usedBlocks blocks') ∨
        ∃ b : Block, result.2 = b.start + 16 ∧
          (b :: usedBlocks blocks).Perm (usedBlocks blocks')) := by
  rcases Nat.eq_zero_or_pos n with rfl | hpos
  · exact ⟨(h, 0), blocks, rfl, .row ring hrep hapart, Or.inl ⟨rfl, List.Perm.refl _⟩⟩
  · have hunit := (blockSize_unit n).1
    have hfits : 0 + 16 ≤ HeapItem.blockSize n := by omega
    obtain ⟨result, blocks', ring', hcall, hrep', hapart', hused⟩ :=
      hrep.alloc hapart hpos hfits (hroom hpos.ne')
    refine ⟨result, blocks', hcall, .row ring' hrep' hapart', hused.imp_right ?_⟩
    rintro ⟨b, -, hptr, hperm⟩
    exact ⟨b, hptr, hperm⟩

lemma ItemOk.mAlloc (hok : ItemOk h blocks)
    (hanswer : ∀ b ∈ answer, 0 < b.address ∧ b.size < 2 ^ 32) (hfit : LengthsFit h n answer) :
    ∃ result blocks', h.mAlloc n answer = some result ∧ ItemOk result.1 blocks' ∧
      region result.1 none = region h answer ∧
      (result.2 = 0 ∧ (usedBlocks blocks).Perm (usedBlocks blocks') ∨
        ∃ b : Block, result.2 = b.start + 16 ∧
          (b :: usedBlocks blocks).Perm (usedBlocks blocks')) := by
  cases hok with
  | noBuffer hnone hempty =>
    subst hempty
    rw [HeapItem.mAlloc, if_pos hnone.buff, hnone.noError, region, if_pos hnone.buff]
    cases answer with
    | none =>
      exact ⟨_, [], rfl, .noBuffer ⟨rfl, hnone.first, hnone.last, hnone.rover, hnone.noError⟩ rfl,
        rfl, Or.inl ⟨rfl, List.Perm.refl _⟩⟩
    | some buffer =>
      obtain ⟨hpos, hlt⟩ := hanswer buffer rfl
      have hrep := rep_initBuff hpos hlt hnone.first hnone.last hnone.rover hnone.noError
      have hlength := (blockSize_unit n).2
      have hsize : n = 0 ∨ HeapItem.blockSize n ≠ 0 :=
        hfit.imp_right fun hrest => (hrest.resolve_left fun hno => by cases hno.2).1
      obtain ⟨result, blocks', hcall, hok', hused⟩ :=
        hrep.alloc_item (n := n) List.isChain_nil hsize fun _ _ hwrap => by
          dsimp only at hwrap ⊢
          omega
      have hsame := sameBuffer_alloc hcall
      refine ⟨result, blocks', hcall, hok', ?_, hused⟩
      rw [hsame.region]
      exact region_of_buff hpos.ne' none
  | row ring hrep hapart =>
    have hbuff : h.buff ≠ 0 := hrep.buff_pos.ne'
    rw [HeapItem.mAlloc, if_neg hbuff]
    have hsize : n = 0 ∨ HeapItem.blockSize n ≠ 0 :=
      hfit.imp_right fun hrest => (hrest.resolve_left fun hno => hbuff hno.1).1
    obtain ⟨result, blocks', hcall, hok', hused⟩ := hrep.alloc_item hapart hsize fun hn =>
      ((hfit.resolve_left hn).resolve_left fun hno => hbuff hno.1).2 hbuff
    refine ⟨result, blocks', hcall, hok', ?_, hused⟩
    rw [(sameBuffer_alloc hcall).region, region_of_buff hbuff, region_of_buff hbuff]

lemma createHeap_ne_zero {size : Nat} (hbuff : h.buff ≠ 0) (hbrk : h.brk = h.buff)
    (hroom : size ≤ h.size) (hlt : size < 2 ^ 32) : (h.createHeap size).2 ≠ 0 := by
  rw [HeapItem.createHeap, HeapItem.incrementBreak, if_neg (by omega), if_neg (by omega)]
  dsimp only
  rw [hbrk, if_neg hbuff]
  exact Nat.succ_ne_zero _

lemma new_mAlloc_ne_zero {buffer : Buffer} (hpos : 0 < buffer.address) (hn : n ≠ 0)
    (hroom : HeapItem.blockSize n ≤ buffer.size) {result : HeapItem × Nat}
    (hcall : HeapItem.new.mAlloc n (some buffer) = some result) : result.2 ≠ 0 := by
  have hlength := (blockSize_unit n).2
  rw [HeapItem.mAlloc, if_pos noBuffer_new.buff, noBuffer_new.noError] at hcall
  simp only [Bool.false_eq_true, if_false, HeapItem.initBuff, if_true] at hcall
  rw [HeapItem.alloc, if_neg hn, if_pos noBuffer_new.first] at hcall
  rw [← Option.some.inj hcall]
  exact createHeap_ne_zero hpos.ne' rfl hroom (by omega)

def IsLow (minPtr : Nat) (r : Nat × Nat) : Prop := 0 < minPtr ∧ minPtr ≤ r.1

lemma IsLow.minPtrAfter {r : Nat × Nat} (hlow : IsLow minPtr r) (h : HeapItem)
    (hanswer : ∀ b ∈ answer, 0 < b.address ∧ b.size < 2 ^ 32) :
    IsLow (CHeap.minPtrAfter minPtr h answer) r := by
  obtain ⟨hpos, hle⟩ := hlow
  rw [CHeap.minPtrAfter]
  split
  · cases answer with
    | none => exact ⟨hpos, hle⟩
    | some buffer =>
      have haddress := (hanswer buffer rfl).1
      rw [Option.elim_some, CHeap.setMinPtr]
      split
      · exact ⟨haddress, by omega⟩
      · exact ⟨hpos, hle⟩
  · exact ⟨hpos, hle⟩

lemma ItemOk.low_minPtrAfter (hok : ItemOk h blocks)
    (hanswer : ∀ b ∈ answer, 0 < b.address ∧ b.size < 2 ^ 32)
    (hlow : ∀ r ∈ region h none, IsLow minPtr r) {r : Nat × Nat} (hr : r ∈ region h answer) :
    IsLow (CHeap.minPtrAfter minPtr h answer) r := by
  cases hok with
  | noBuffer hnone hempty =>
    rw [region, if_pos hnone.buff] at hr
    cases answer with
    | none => cases hr
    | some buffer =>
      have haddress := (hanswer buffer rfl).1
      obtain rfl := Option.some.inj hr
      rw [CHeap.minPtrAfter, if_pos ⟨hnone.buff, hnone.noError⟩, Option.elim_some, CHeap.setMinPtr,
        IsLow]
      dsimp only
      split <;> omega
  | row ring hrep hapart =>
    have hbuff : h.buff ≠ 0 := hrep.buff_pos.ne'
    rw [region_of_buff hbuff] at hr hlow
    exact (hlow r hr).minPtrAfter h hanswer

lemma used_cons (blocks : List Block) (rows : List (List Block)) :
    used (blocks :: rows) = usedBlocks blocks ++ used rows := List.flatMap_cons

lemma regionAt_succ (k : Nat) : regionAt (h :: items) (fun k => answers (i + k)) (k + 1) =
    regionAt items (fun k => answers (i + 1 + k)) k := by
  rw [regionAt, regionAt, List.getElem?_cons_succ, Nat.add_right_comm, Nat.add_assoc]

lemma regionAt_subset_cons {h' : HeapItem} {items' : List HeapItem}
    (hhead : ∀ r ∈ region h' none, r ∈ region h (answers i))
    (hrest : ∀ k, ∀ r ∈ regionAt items' noAnswers k,
      r ∈ regionAt items (fun k => answers (i + 1 + k)) k) :
    ∀ k, ∀ r ∈ regionAt (h' :: items') noAnswers k,
      r ∈ regionAt (h :: items) (fun k => answers (i + k)) k := by
  intro k r hr
  cases k with
  | zero => exact hhead r hr
  | succ k =>
    rw [regionAt_succ]
    exact hrest k r hr

/-- What the loop of `MAlloc` leaves: the items have their rows, their buffers are those before and
the answers, and a pointer that is not `NULL` is that of a new block. -/
structure Searched (n : Nat) (answers : Nat → Option Buffer) (i : Nat) (items : List HeapItem)
    (rows : List (List Block)) (r : CHeap.Search) (rows' : List (List Block)) : Prop where
  rowsOk : List.Forall₂ ItemOk r.items rows'
  length : r.items.length = items.length
  regions : ∀ k, ∀ q ∈ regionAt r.items noAnswers k,
    q ∈ regionAt items (fun k => answers (i + k)) k
  low : ∀ k, ∀ q ∈ regionAt r.items noAnswers k, IsLow r.minPtr q
  found : r.p = 0 ∧ Refused n answers i items ∧ (used rows).Perm (used rows') ∨
    ∃ b : Block, r.p = b.start + 16 ∧ (b :: used rows).Perm (used rows')

lemma Searched.cons {h' : HeapItem} {r : CHeap.Search} {rows' : List (List Block)}
    (hsearch : Searched n answers (i + 1) items rows r rows') (hrefuses : Refuses h n (answers i))
    (hok : ItemOk h' blocks') (hregion : ∀ q ∈ region h' none, q ∈ region h (answers i))
    (hlow : ∀ q ∈ region h' none, IsLow r.minPtr q)
    (hused : (usedBlocks blocks).Perm (usedBlocks blocks')) :
    Searched n answers i (h :: items) (blocks :: rows) { r with items := h' :: r.items }
      (blocks' :: rows') := by
  refine ⟨.cons hok hsearch.rowsOk, congrArg (· + 1) hsearch.length,
    regionAt_subset_cons hregion hsearch.regions, ?_, ?_⟩
  · intro k q hq
    cases k with
    | zero => exact hlow q hq
    | succ k => exact hsearch.low k q hq
  · rw [used_cons, used_cons]
    rcases hsearch.found with ⟨hzero, hrefused, hperm⟩ | ⟨b, hptr, hperm⟩
    · exact Or.inl ⟨hzero, ⟨hrefuses, hrefused⟩, hused.append hperm⟩
    · refine Or.inr ⟨b, hptr, ?_⟩
      exact List.perm_middle.symm.trans (hused.append hperm)

lemma forall_regionAt_noAnswers {r : Nat × Nat} (hr : r ∈ regionAt items noAnswers k) :
    r ∈ regionAt items (fun k => answers (i + k)) k :=
  region_none_subset _ hr

lemma mAllocLoop_spec (hrows : List.Forall₂ ItemOk items rows) (hanswers : ValidAnswers answers)
    (hfit : AskedFit n answers i items)
    (hlow : ∀ k, ∀ q ∈ regionAt items noAnswers k, IsLow minPtr q) :
    ∃ r rows', CHeap.mAllocLoop n answers i items minPtr = some r ∧
      Searched n answers i items rows r rows' ∧ (∀ q, IsLow minPtr q → IsLow r.minPtr q) := by
  induction hrows generalizing i minPtr with
  | nil =>
    refine ⟨_, [], rfl, ⟨.nil, rfl, fun k q hq => ?_, hlow, Or.inl ⟨rfl, trivial, List.Perm.refl _⟩⟩,
      fun _ hq => hq⟩
    exact forall_regionAt_noAnswers hq
  | @cons h blocks items rows hok hrows ih =>
    have hlowRest : ∀ k, ∀ q ∈ regionAt items noAnswers k, IsLow minPtr q :=
      fun k => hlow (k + 1)
    rw [CHeap.mAllocLoop]
    by_cases hfull : h.isFull = true
    · obtain ⟨r, rows', hloop, hsearch, hkeep⟩ := ih (hfit.2 (Or.inl hfull)) hlowRest
      rw [if_pos hfull, hloop]
      exact ⟨_, _, rfl, hsearch.cons (Or.inl hfull) hok (fun q => region_none_subset _)
        (fun q hq => hkeep q (hlow 0 q hq)) (List.Perm.refl _), hkeep⟩
    · obtain ⟨result, blocks', hcall, hok', hregion, hused⟩ :=
        hok.mAlloc (hanswers i) (hfit.1 (Bool.not_eq_true _ ▸ hfull))
      have hkeepHead : ∀ q, IsLow minPtr q → IsLow (CHeap.minPtrAfter minPtr h (answers i)) q :=
        fun q hq => hq.minPtrAfter h (hanswers i)
      have hlowHead : ∀ q ∈ region result.1 none, IsLow (CHeap.minPtrAfter minPtr h (answers i)) q :=
        fun q hq => hok.low_minPtrAfter (hanswers i) (hlow 0) (hregion ▸ hq)
      rw [if_neg hfull, hcall, Option.bind_some]
      dsimp only
      rcases hused with ⟨hzero, hused⟩ | ⟨b, hptr, hused⟩
      · have hrefuses : Refuses h n (answers i) := Or.inr ⟨result, hcall, hzero⟩
        obtain ⟨r, rows', hloop, hsearch, hkeep⟩ :=
          ih (hfit.2 hrefuses) fun k q hq => hkeepHead q (hlowRest k q hq)
        rw [if_neg (not_not.mpr hzero), hloop]
        exact ⟨_, _, rfl, hsearch.cons hrefuses hok' (fun q hq => hregion ▸ hq)
          (fun q hq => hkeep q (hlowHead q hq)) hused, fun q hq => hkeep q (hkeepHead q hq)⟩
      · rw [if_pos (by omega)]
        refine ⟨_, blocks' :: rows, rfl, ⟨.cons hok' hrows, rfl, ?_, ?_, Or.inr ⟨b, hptr, ?_⟩⟩,
          hkeepHead⟩
        · exact regionAt_subset_cons (fun q hq => hregion ▸ hq)
            fun k q hq => forall_regionAt_noAnswers hq
        · intro k q hq
          cases k with
          | zero => exact hlowHead q hq
          | succ k => exact hkeepHead q (hlowRest k q hq)
        · rw [used_cons, used_cons]
          exact hused.append_right _

end VoipMonitor.Heap
