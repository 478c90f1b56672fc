import VoipMonitor.Proofs.HeapItemSteps

/-!
# Runs of the heap item

The row of blocks survives every call. The only call that does not keep it asks for nearly `2^31`
bytes when `2^31 - 32` are in use: the length behind the new block is then zero in 32 bits.
-/

namespace VoipMonitor.Heap
open VoipMonitor.Library

variable {mem : Memory} {lo hi p sz n req r : Nat} {b c : Block}
  {blocks before behind : List Block} {h : HeapItem} {ring : List Nat}

lemma Rep.settle (hrep : Rep h (before ++ ⟨p, sz, none⟩ :: c :: behind) ring)
    (hbefore : Apart before) (hused : ∀ a ∈ before.getLast?, a.asked.isSome)
    (hbehind : Apart (c :: behind)) :
    ∃ blocks' ring', Rep (if h.sizeAt c.start % 2 = 0 then h.joinFreeBlocks p c.start else h)
      blocks' ring' ∧ Apart blocks' ∧
      usedBlocks blocks' = usedBlocks before ++ usedBlocks (c :: behind) ∧ blocks' ≠ [] := by
  have hrep' : Rep h ((before ++ [⟨p, sz, none⟩]) ++ c :: behind) ring := by
    rwa [List.append_assoc]
  have hsize : h.sizeAt c.start = c.sizeField := hrep'.sizeAt_eq
  have hunit := hrep'.block.2.2.2.2.1
  rw [hsize]
  by_cases hc : c.asked = none
  · rw [if_pos ((sizeField_even hunit).mpr hc)]
    obtain ⟨start, size, asked⟩ := c
    obtain rfl : asked = none := hc
    obtain ⟨ring', hjoined⟩ := hrep.joinFreeBlocks
    obtain ⟨-, hrest, hc' | ⟨-, hhead⟩⟩ := (@apart_split ⟨start, size, none⟩ [] behind).mp hbehind
    · cases hc'
    · refine ⟨_, ring', hjoined, apart_split.mpr ⟨hbefore, hrest, Or.inr ⟨hused, hhead⟩⟩, ?_,
        by simp⟩
      rw [usedBlocks_free rfl]
      exact congrArg (usedBlocks before ++ ·)
        (@usedBlocks_free ⟨start, size, none⟩ [] behind rfl).symm
  · rw [if_neg (mt (sizeField_even hunit).mp hc)]
    refine ⟨_, ring, hrep, apart_split.mpr ⟨hbefore, hbehind, Or.inr ⟨hused, ?_⟩⟩, ?_, by simp⟩
    · intro d hd
      rw [List.head?_cons, Option.mem_def, Option.some.injEq] at hd
      exact hd ▸ Option.ne_none_iff_isSome.mp hc
    · exact usedBlocks_free rfl

lemma Rep.freeInnerBlock (hrep : Rep h (before ++ ⟨p, sz, some n⟩ :: c :: behind) ring)
    (hapart : Apart (before ++ ⟨p, sz, some n⟩ :: c :: behind)) :
    ∃ blocks' ring', Rep (h.freeInnerBlock p) blocks' ring' ∧ Apart blocks' ∧
      usedBlocks blocks' = usedBlocks before ++ usedBlocks (c :: behind) ∧ blocks' ≠ [] := by
  obtain ⟨hbefore, hbehind, -⟩ := apart_split.mp hapart
  have hprange := hrep.block
  have hsizep : h.sizeAt p = sz + 1 := hrep.sizeAt_eq
  have hprev : h.prevReal p = lastStart 0 before := hrep.prevReal_eq
  obtain ⟨-, -, hcstart, -, -⟩ := tiles_split.mp hrep.tiles
  dsimp only at hprange hcstart
  have hcut : sub32 (sz + 1) 1 = sz := by
    rw [sub32_eq (by omega) (by omega)]
    omega
  have hself : (h.setSize p sz).sizeAt p = sz := Function.update_self ..
  have hprev' : (h.setSize p sz).prevReal p = lastStart 0 before := by
    rw [← hprev]
    exact Function.update_of_ne (by omega) ..
  have hfirst : (h.setSize p sz).first = h.first := rfl
  simp only [HeapItem.freeInnerBlock, hsizep, hcut, hself, hprev', hfirst, ← hcstart]
  rcases List.eq_nil_or_concat before with rfl | ⟨front, a, rfl⟩
  · -- no block in front
    rw [if_neg fun hcond => hcond.1 rfl]
    obtain ⟨ring', hrep'⟩ := hrep.release (List.cons_ne_nil c behind)
    exact hrep'.settle hbefore nofun hbehind
  · rw [List.concat_eq_append] at *
    have hrepa := hrep
    rw [List.append_assoc, List.singleton_append] at hrepa
    have harange := hrepa.block
    obtain ⟨-, -, hpstart, -, -⟩ := tiles_split.mp hrepa.tiles
    dsimp only at hpstart
    have hsizea : (h.setSize p sz).sizeAt a.start = a.sizeField := by
      rw [← hrepa.sizeAt_eq]
      exact Function.update_of_ne (by omega) ..
    have hfirstne : p ≠ h.first := fun heq => by
      have := hrep.first_eq_iff.mp heq
      simp at this
    rw [lastStart_concat, hsizea]
    by_cases ha : a.asked = none
    · have hsizea' : a.sizeField = a.size := by
        rw [Block.sizeField, ha]
        rfl
      have hbrkle := hrep.brk_le
      have hsizelt := hrep.size_lt
      have hadd : add32 a.size sz = a.size + sz := add32_eq (by omega)
      rw [if_pos ⟨harange.2.2.2.2.2.1, (sizeField_even harange.2.2.2.2.1).mpr ha, hfirstne⟩,
        hsizea', hadd]
      obtain ⟨start, size, asked⟩ := a
      obtain rfl : asked = none := ha
      obtain ⟨hfront, -, ha' | ⟨hused, -⟩⟩ := apart_split.mp hbefore
      · cases ha'
      have hmerged := hrepa.merge (List.cons_ne_nil c behind)
      rw [← hcstart] at hmerged
      obtain ⟨blocks', ring', hrep', hapart', hobjects, hne⟩ := hmerged.settle hfront hused hbehind
      refine ⟨blocks', ring', hrep', hapart', hobjects.trans ?_, hne⟩
      rw [usedBlocks_free rfl]
      exact congrArg (· ++ usedBlocks (c :: behind)) (List.append_nil (usedBlocks front)).symm
    · rw [if_neg fun hcond => ha ((sizeField_even harange.2.2.2.2.1).mp hcond.2.1)]
      obtain ⟨ring', hrep'⟩ := hrep.release (List.cons_ne_nil c behind)
      refine hrep'.settle hbefore (fun d hd => ?_) hbehind
      rw [List.getLast?_concat, Option.mem_def, Option.some.injEq] at hd
      exact hd ▸ Option.ne_none_iff_isSome.mp ha

lemma FreeRing.allocLoop (hr : FreeRing r h ring) (size : Nat) (front : List Nat)
    {rest : List Nat} {temp : Nat} (hring : ring = front ++ temp :: rest) (fuel : Nat) (hfuel : rest.length < fuel) :
    ∃ result, h.allocLoop size fuel temp = some result ∧
      ((∃ q ∈ ring, size + 96 ≤ h.sizeAt q ∧ result = h.allocatePartialBlock q size) ∨
        (∃ q ∈ ring, size ≤ h.sizeAt q ∧ result = ((h.pullFreeBlock q).setSize q
          (add32 ((h.pullFreeBlock q).sizeAt q) 1), q + 16)) ∨
        (∀ q ∈ temp :: rest, h.sizeAt q < size) ∧ result = h.extendHeap size) := by
  induction rest generalizing front temp fuel with
  | nil =>
    obtain ⟨fuel, rfl⟩ : ∃ f, fuel = f + 1 := ⟨fuel - 1, by omega⟩
    have hmem : temp ∈ ring := by simp [hring]
    -- behind the last block the search is at `Rover` again
    have hnext : h.nextFree temp = h.rover := by
      have hcircular := hr.circular
      rw [hr.rover, hring]
      rw [hring] at hcircular
      cases front with
      | nil => exact (circular_singleton.mp hcircular).1
      | cons d front => exact hcircular.ends.1
    rw [HeapItem.allocLoop]
    split
    · rename_i hbig
      exact ⟨_, rfl, Or.inl ⟨temp, hmem, hbig, rfl⟩⟩
    · split
      · rename_i hfits
        exact ⟨_, rfl, Or.inr (Or.inl ⟨temp, hmem, hfits, rfl⟩)⟩
      · rw [if_neg (not_not.mpr hnext)]
        refine ⟨_, rfl, Or.inr (Or.inr ⟨fun q hq => ?_, rfl⟩)⟩
        rw [List.mem_singleton.mp hq]
        omega
  | cons y rest ih =>
    obtain ⟨fuel, rfl⟩ : ∃ f, fuel = f + 1 := ⟨fuel - 1, by omega⟩
    have hmem : temp ∈ ring := by simp [hring]
    have hnext : h.nextFree temp = y := by
      have hcircular := hr.circular
      rw [hring] at hcircular
      exact hcircular.rotate.next_cons.1
    have hne : y ≠ h.rover := by
      have hnodup := hr.nodup
      rw [hr.rover, hring]
      rw [hring] at hnodup
      cases front with
      | nil => exact fun heq => (List.nodup_cons.mp hnodup).1 (heq ▸ List.mem_cons_self)
      | cons d front =>
        refine fun heq => (List.nodup_cons.mp hnodup).1 ?_
        have hy : y ∈ front ++ temp :: y :: rest := by simp
        exact heq ▸ hy
    rw [HeapItem.allocLoop]
    split
    · rename_i hbig
      exact ⟨_, rfl, Or.inl ⟨temp, hmem, hbig, rfl⟩⟩
    · split
      · rename_i hfits
        exact ⟨_, rfl, Or.inr (Or.inl ⟨temp, hmem, hfits, rfl⟩)⟩
      · rw [hnext, if_pos hne]
        rw [List.length_cons] at hfuel
        obtain ⟨result, hcall, hcases⟩ := ih (front ++ [temp])
          (by rw [hring, List.append_assoc, List.singleton_append]) fuel (by omega)
        refine ⟨result, hcall, hcases.imp_right (Or.imp_right fun hnone => ⟨fun q hq => ?_, hnone.2⟩)⟩
        rcases List.mem_cons.mp hq with rfl | hq
        · omega
        · exact hnone.1 q hq

lemma blockSize_eq (hlt : n + 47 < 2 ^ 32) : HeapItem.blockSize n = (n + 47) / 32 * 32 := by
  rw [HeapItem.blockSize, usedHeaderSize, headerSize, add32_eq (by omega)]
  omega

lemma blockSize_unit (n : Nat) :
    HeapItem.blockSize n % 32 = 0 ∧ HeapItem.blockSize n + 1 < 2 ^ 32 := by
  rw [HeapItem.blockSize, headerSize]
  omega

/-- No free block has this length. -/
def NoneFits (h : HeapItem) (size : Nat) : Prop :=
  h.first = 0 ∨ h.rover = 0 ∨
    ∀ k < (h.brk - h.buff) / headerSize, h.sizeAt (h.nextFree^[k] h.rover) < size

lemma FreeRing.iterate_mem (hr : FreeRing r h ring) (hne : h.rover ≠ 0) (k : Nat) :
    h.nextFree^[k] h.rover ∈ ring := by
  induction k with
  | zero =>
    obtain ⟨q, rest, rfl⟩ := List.exists_cons_of_ne_nil (mt hr.eq_nil_iff.mpr hne)
    have hq : h.rover = q := hr.rover
    rw [Function.iterate_zero_apply, hq]
    exact List.mem_cons_self
  | succ k ih =>
    rw [Function.iterate_succ_apply']
    exact (hr.circular.neighbours_mem ih).1

lemma Rep.alloc_cases (hrep : Rep h blocks ring) (hpos : 0 < n) :
    ∃ result, h.alloc n = some result ∧
      ((∃ q ∈ ring, HeapItem.blockSize n + 96 ≤ h.sizeAt q ∧
          result = h.allocatePartialBlock q (HeapItem.blockSize n)) ∨
        (∃ q ∈ ring, HeapItem.blockSize n ≤ h.sizeAt q ∧ result =
          ((h.pullFreeBlock q).setSize q (add32 ((h.pullFreeBlock q).sizeAt q) 1), q + 16)) ∨
        NoneFits h (HeapItem.blockSize n) ∧
          result = if h.first = 0 then h.createHeap (HeapItem.blockSize n)
            else h.extendHeap (HeapItem.blockSize n)) := by
  rw [HeapItem.alloc, if_neg (by omega)]
  by_cases hfirst : h.first = 0
  · rw [if_pos hfirst, if_pos hfirst]
    exact ⟨_, rfl, Or.inr (Or.inr ⟨Or.inl hfirst, rfl⟩)⟩
  · rw [if_neg hfirst, if_neg hfirst]
    by_cases hrover : h.rover = 0
    · rw [if_neg (not_not.mpr hrover)]
      exact ⟨_, rfl, Or.inr (Or.inr ⟨Or.inr (Or.inl hrover), rfl⟩)⟩
    · rw [if_pos hrover]
      have hwalk := hrep.freeRing.iterate_mem hrover
      obtain ⟨q, rest, rfl⟩ := List.exists_cons_of_ne_nil (mt hrep.freeRing.eq_nil_iff.mpr hrover)
      have hq : h.rover = q := hrep.freeRing.rover
      have hturns : rest.length < (h.brk - h.buff) / headerSize := by
        have hlength := hrep.free.length_eq
        have hle : (freeStarts blocks).length ≤ blocks.length := List.length_filterMap_le _ _
        have htiles := hrep.tiles.length_le
        rw [List.length_cons] at hlength
        rw [headerSize]
        omega
      obtain ⟨result, hcall, hcases⟩ :=
        hrep.freeRing.allocLoop (HeapItem.blockSize n) [] rfl _ hturns
      rw [hq]
      exact ⟨result, hcall, hcases.imp_right (Or.imp_right fun hnone =>
        ⟨Or.inr (Or.inr fun k _ => hnone.1 _ (hwalk k)), hnone.2⟩)⟩

lemma Rep.of_mem_ring (hrep : Rep h blocks ring) {q : Nat} (hq : q ∈ ring) :
    ∃ before sz behind, blocks = before ++ ⟨q, sz, none⟩ :: behind ∧ h.sizeAt q = sz := by
  obtain ⟨b, hb, hstart⟩ := List.mem_filterMap.mp (hrep.free.mem_iff.mp hq)
  obtain ⟨before, behind, rfl⟩ := List.append_of_mem hb
  obtain ⟨start, sz, asked⟩ := b
  rw [Block.freeStart] at hstart
  split at hstart
  · cases hstart
  · rename_i hasked
    obtain rfl : start = q := Option.some.inj hstart
    obtain rfl : asked = none := Option.not_isSome_iff_eq_none.mp hasked
    exact ⟨before, sz, behind, rfl, hrep.sizeAt_eq⟩

structure SameBuffer (h h' : HeapItem) : Prop where
  buff : h'.buff = h.buff
  size : h'.size = h.size

lemma SameBuffer.trans {h' h'' : HeapItem} (h₁ : SameBuffer h h') (h₂ : SameBuffer h' h'') :
    SameBuffer h h'' :=
  ⟨h₂.buff.trans h₁.buff, h₂.size.trans h₁.size⟩

lemma sameBuffer_incrementBreak (h : HeapItem) (n : Nat) : SameBuffer h (h.incrementBreak n).1 := by
  rw [HeapItem.incrementBreak]
  split
  · exact ⟨rfl, rfl⟩
  · split <;> exact ⟨rfl, rfl⟩

lemma sameBuffer_createHeap (h : HeapItem) (n : Nat) : SameBuffer h (h.createHeap n).1 := by
  have hinc := sameBuffer_incrementBreak h n
  rw [HeapItem.createHeap]
  dsimp only
  split
  · exact hinc
  · exact hinc.trans ⟨rfl, rfl⟩

lemma sameBuffer_extendHeap (h : HeapItem) (n : Nat) : SameBuffer h (h.extendHeap n).1 := by
  have hinc := sameBuffer_incrementBreak h n
  rw [HeapItem.extendHeap]
  dsimp only
  split
  · exact hinc
  · exact hinc.trans ⟨rfl, rfl⟩

lemma sameBuffer_allocatePartialBlock (h : HeapItem) (p n : Nat) :
    SameBuffer h (h.allocatePartialBlock p n).1 := by
  rw [HeapItem.allocatePartialBlock]
  split <;> exact ⟨rfl, rfl⟩

lemma sameBuffer_pullFreeBlock (h : HeapItem) (p : Nat) : SameBuffer h (h.pullFreeBlock p) := by
  rw [HeapItem.pullFreeBlock]
  split <;> exact ⟨rfl, rfl⟩

lemma sameBuffer_allocLoop {size fuel temp : Nat} {result : HeapItem × Nat}
    (hcall : h.allocLoop size fuel temp = some result) : SameBuffer h result.1 := by
  induction fuel generalizing temp with
  | zero => cases hcall
  | succ fuel ih =>
    rw [HeapItem.allocLoop] at hcall
    split at hcall
    · obtain rfl := Option.some.inj hcall
      exact sameBuffer_allocatePartialBlock h temp size
    · split at hcall
      · obtain rfl := Option.some.inj hcall
        exact (sameBuffer_pullFreeBlock h temp).trans ⟨rfl, rfl⟩
      · dsimp only at hcall
        split at hcall
        · exact ih hcall
        · obtain rfl := Option.some.inj hcall
          exact sameBuffer_extendHeap h size

lemma sameBuffer_alloc {result : HeapItem × Nat} (hcall : h.alloc n = some result) :
    SameBuffer h result.1 := by
  rw [HeapItem.alloc] at hcall
  split at hcall
  · obtain rfl := Option.some.inj hcall
    exact ⟨rfl, rfl⟩
  · split at hcall
    · obtain rfl := Option.some.inj hcall
      exact sameBuffer_createHeap h _
    · split at hcall
      · exact sameBuffer_allocLoop hcall
      · obtain rfl := Option.some.inj hcall
        exact sameBuffer_extendHeap h _

lemma Rep.alloc (hrep : Rep h blocks ring) (hapart : Apart blocks) (hpos : 0 < n)
    (hfits : req + 16 ≤ HeapItem.blockSize n)
    (hroom : NoneFits h (HeapItem.blockSize n) →
      (h.brk - h.buff + HeapItem.blockSize n) % 2 ^ 32 ≤ h.size →
        h.brk - h.buff + HeapItem.blockSize n ≤ h.size) :
    ∃ result blocks' ring', h.alloc n = some result ∧ Rep result.1 blocks' ring' ∧ Apart blocks' ∧
      (result.2 = 0 ∧ (usedBlocks blocks).Perm (usedBlocks blocks') ∨
        ∃ b : Block, b.asked = some req ∧ result.2 = b.start + 16 ∧
          (b :: usedBlocks blocks).Perm (usedBlocks blocks')) := by
  obtain ⟨hunit, hmax⟩ := blockSize_unit n
  have hmin : 32 ≤ HeapItem.blockSize n := by omega
  obtain ⟨result, halloc, hcases⟩ := hrep.alloc_cases hpos
  rcases hcases with ⟨q, hq, hbig, hresult⟩ | ⟨q, hq, hbig, hresult⟩ | ⟨hnone, hresult⟩
  · obtain ⟨before, sz, behind, rfl, hsz⟩ := hrep.of_mem_ring hq
    obtain ⟨hbefore, hbehind, hq' | ⟨hused, -⟩⟩ := apart_split.mp hapart
    · cases hq'
    obtain ⟨hptr, hrep'⟩ := hrep.allocatePartialBlock hunit hmin hfits (by omega)
    rw [← hresult] at hptr hrep'
    have hused' : Apart (⟨q + (sz - HeapItem.blockSize n), HeapItem.blockSize n, some req⟩ :: behind) :=
      (@apart_split ⟨_, _, some req⟩ [] behind).mpr ⟨List.isChain_nil, hbehind, Or.inl rfl⟩
    refine ⟨result, _, ring, halloc, hrep',
      apart_split.mpr ⟨hbefore, hused', Or.inr ⟨hused, ?_⟩⟩,
      Or.inr ⟨⟨q + (sz - HeapItem.blockSize n), HeapItem.blockSize n, some req⟩, rfl, hptr, ?_⟩⟩
    · intro c hc
      rw [List.head?_cons, Option.mem_def, Option.some.injEq] at hc
      exact hc ▸ rfl
    · rw [usedBlocks_free rfl, usedBlocks_free rfl]
      exact List.perm_middle.symm
  · obtain ⟨before, sz, behind, rfl, hsz⟩ := hrep.of_mem_ring hq
    obtain ⟨hbefore, hbehind, -⟩ := apart_split.mp hapart
    have hroom : req + 16 ≤ sz := by omega
    obtain ⟨ring', hrep'⟩ := hrep.takeBlock hroom
    have hptr : result.2 = q + 16 := by rw [hresult]
    have hrep'' : Rep result.1 (before ++ ⟨q, sz, some req⟩ :: behind) ring' := by
      rw [hresult]
      exact hrep'
    refine ⟨result, _, ring', halloc, hrep'', apart_split.mpr ⟨hbefore, hbehind, Or.inl rfl⟩,
      Or.inr ⟨⟨q, sz, some req⟩, rfl, hptr, ?_⟩⟩
    rw [usedBlocks_free rfl, usedBlocks_middle rfl]
    exact List.perm_middle.symm
  · have hle := hrep.tiles.le
    have hsub : h.brk + HeapItem.blockSize n - h.buff = h.brk - h.buff + HeapItem.blockSize n := by
      omega
    have hgrow := hrep.grow hunit hmin hmax hfits fun hwrap => by
      have := hroom hnone (hsub ▸ hwrap)
      omega
    rw [← hresult] at hgrow
    rcases hgrow with ⟨hptr, hrep'⟩ | ⟨hptr, hrep'⟩
    · exact ⟨result, blocks, ring, halloc, hrep', hapart, Or.inl ⟨hptr, List.Perm.refl _⟩⟩
    · refine ⟨result, _, ring, halloc, hrep',
        apart_split.mpr ⟨hapart, List.isChain_nil, Or.inl rfl⟩,
        Or.inr ⟨⟨h.brk, HeapItem.blockSize n, some req⟩, rfl, hptr, ?_⟩⟩
      rw [usedBlocks_middle rfl]
      exact (List.perm_append_singleton _ _).symm

inductive Inv (s : State) : Prop
  | empty (hbuff : s.item.buff = 0) (hfirst : s.item.first = 0) (hlast : s.item.last = 0)
      (hrover : s.item.rover = 0) (hnoError : s.item.initBuffError = false) (hlive : s.live = [])
  | row (blocks : List Block) (ring : List Nat) (hrep : Rep s.item blocks ring)
      (hapart : Apart blocks) (hsize : s.item.size < 2 ^ 31)
      (hlive : s.live.Perm (objects blocks))

/-- The only call that goes wrong: nearly `2^31` bytes when `2^31 - 32` are in use. -/
def NoWrap (s : State) : Action → Prop
  | .mAlloc n _ =>
    ¬(s.item.buff ≠ 0 ∧ s.item.brk - s.item.buff = 2 ^ 31 - 32 ∧ 2 ^ 31 - 15 ≤ n)
  | .free _ => True
  | .write _ _ => True

instance (s : State) (a : Action) : Decidable (NoWrap s a) :=
  match a with
  | .mAlloc n _ => inferInstanceAs (Decidable
      ¬(s.item.buff ≠ 0 ∧ s.item.brk - s.item.buff = 2 ^ 31 - 32 ∧ 2 ^ 31 - 15 ≤ n))
  | .free _ => inferInstanceAs (Decidable True)
  | .write _ _ => inferInstanceAs (Decidable True)

variable {s t : State}

lemma rep_initBuff {buffer : Buffer} (hpos : 0 < buffer.address) (hlt : buffer.size < 2 ^ 32)
    (hfirst : h.first = 0) (hlast : h.last = 0) (hrover : h.rover = 0)
    (herror : h.initBuffError = false) :
    Rep { h with
      buff := buffer.address
      size := buffer.size
      brk := buffer.address
      mem := buffer.content } [] [] :=
  ⟨hpos, Nat.le_add_right _ _, hlt, herror, rfl, hfirst, hlast,
    ⟨circular_nil, hrover, List.nodup_nil, nofun⟩, List.Perm.refl _, nofun⟩

lemma Inv.mAlloc_returns {answer : Option Buffer} (hinv : Inv s)
    (hallowed : Allowed s (.mAlloc n answer)) : ∃ result, s.item.mAlloc n answer = some result := by
  have halloc : ∀ {h : HeapItem} {blocks : List Block} {ring : List Nat}, Rep h blocks ring →
      ∃ result, h.alloc n = some result := by
    intro h blocks ring hrep
    rcases Nat.eq_zero_or_pos n with rfl | hpos
    · exact ⟨(h, 0), rfl⟩
    · obtain ⟨result, hresult, -⟩ := hrep.alloc_cases hpos
      exact ⟨result, hresult⟩
  cases hinv with
  | empty hbuff hfirst hlast hrover hnoError hlive =>
    rw [HeapItem.mAlloc, if_pos hbuff, hnoError]
    cases answer with
    | none => exact ⟨_, rfl⟩
    | some buffer =>
      obtain ⟨hpos, hlt⟩ := hallowed.2 buffer rfl
      exact halloc (rep_initBuff hpos (by omega) hfirst hlast hrover hnoError)
  | row blocks ring hrep hapart hsize hlive =>
    have hpos := hrep.buff_pos
    rw [HeapItem.mAlloc, if_neg (by omega)]
    exact halloc hrep

lemma Inv.mAlloc {answer : Option Buffer} (hinv : Inv s) (hallowed : Allowed s (.mAlloc n answer))
    (hwrap : NoWrap s (.mAlloc n answer)) (hstep : step s (.mAlloc n answer) = some t) : Inv t := by
  obtain ⟨result, hresult, rfl⟩ := Option.map_eq_some_iff.mp hstep
  -- `Alloc` on a row of blocks, whether the buffer is new or not
  have halloc : ∀ {h : HeapItem} {blocks : List Block} {ring : List Nat}, Rep h blocks ring →
      Apart blocks → h.size < 2 ^ 31 → s.live.Perm (objects blocks) →
      ¬(h.brk - h.buff = 2 ^ 31 - 32 ∧ 2 ^ 31 - 15 ≤ n) → h.alloc n = some result →
      Inv ⟨result.1, if result.2 = 0 then s.live else (result.2, n) :: s.live⟩ := by
    intro h blocks ring hrep hapart hsize hlive hno hcall
    have hn := hallowed.1
    rcases Nat.eq_zero_or_pos n with rfl | hpos
    · obtain rfl : (h, 0) = result := Option.some.inj hcall
      exact .row blocks ring hrep hapart hsize hlive
    have hle := hrep.tiles.le
    have hbrk := hrep.brk_le
    have hblock := blockSize_eq (n := n) (by omega)
    have hfits : n + 16 ≤ HeapItem.blockSize n := by omega
    obtain ⟨result', blocks', ring', hresult', hrep', hapart', hobjects⟩ :=
      hrep.alloc hapart hpos hfits fun _ hwrap => by omega
    obtain rfl : result' = result := Option.some.inj (hresult'.symm.trans hcall)
    have hsize' : result'.1.size < 2 ^ 31 := by
      rw [(sameBuffer_alloc hcall).size]
      exact hsize
    rcases hobjects with ⟨hzero, hperm⟩ | ⟨b, hasked, hptr, hperm⟩
    · refine .row blocks' ring' hrep' hapart' hsize' ?_
      rw [if_pos hzero]
      refine hlive.trans ?_
      rw [objects_eq, objects_eq]
      exact hperm.filterMap _
    · refine .row blocks' ring' hrep' hapart' hsize' ?_
      have hobject : b.object = some (result'.2, n) := by
        rw [Block.object, hasked, Option.map_some, hptr]
      have hcons := hperm.filterMap Block.object
      rw [List.filterMap_cons_some hobject, ← objects_eq, ← objects_eq] at hcons
      rw [if_neg (by omega)]
      exact (hlive.cons _).trans hcons
  cases hinv with
  | empty hbuff hfirst hlast hrover hnoError hlive =>
    rw [HeapItem.mAlloc, if_pos hbuff, hnoError] at hresult
    cases answer with
    | none =>
      obtain rfl := Option.some.inj hresult
      exact .empty rfl hfirst hlast hrover hnoError hlive
    | some buffer =>
      obtain ⟨hpos, hlt⟩ := hallowed.2 buffer rfl
      refine halloc (rep_initBuff hpos (by omega) hfirst hlast hrover hnoError) List.isChain_nil hlt
        (hlive ▸ List.Perm.refl _) ?_ hresult
      dsimp only
      omega
  | row blocks ring hrep hapart hsize hlive =>
    have hpos := hrep.buff_pos
    rw [HeapItem.mAlloc, if_neg (by omega)] at hresult
    exact halloc hrep hapart hsize hlive (fun hno => hwrap ⟨by omega, hno⟩) hresult

lemma exists_block_of_live (hlive : s.live.Perm (objects blocks)) {r : Nat × Nat}
    (hr : r ∈ s.live) : ∃ before b behind, blocks = before ++ b :: behind ∧
      b.asked = some r.2 ∧ r.1 = b.start + 16 := by
  obtain ⟨b, hb, hobject⟩ := List.mem_filterMap.mp (hlive.mem_iff.mp hr)
  obtain ⟨before, behind, rfl⟩ := List.append_of_mem hb
  rw [Block.object, Option.map_eq_some_iff] at hobject
  obtain ⟨n, hn, rfl⟩ := hobject
  exact ⟨before, b, behind, rfl, hn, rfl⟩

lemma Rep.filter_objects (hrep : Rep h (before ++ b :: behind) ring) (hb : b.asked = some n) :
    (objects (before ++ b :: behind)).filter (·.1 ≠ b.start + 16) =
      objects before ++ objects behind := by
  have hother : ∀ part : List Block, (∀ c ∈ part, c ∈ before ++ behind) →
      (objects part).filter (·.1 ≠ b.start + 16) = objects part := by
    intro part hpart
    rw [List.filter_eq_self]
    intro o ho
    obtain ⟨c, hc, hobject⟩ := List.mem_filterMap.mp ho
    rw [Block.object, Option.map_eq_some_iff] at hobject
    obtain ⟨m, -, rfl⟩ := hobject
    have hne := hrep.tiles.start_inj (hpart c hc)
    simpa using hne
  rw [objects_middle hb, List.filter_append, List.filter_cons_of_neg (by simp),
    hother before (fun c hc => List.mem_append_left _ hc),
    hother behind (fun c hc => List.mem_append_right _ hc)]

lemma sameBuffer_freeLastBlock (h : HeapItem) : SameBuffer h h.freeLastBlock := by
  rw [HeapItem.freeLastBlock]
  split
  · exact ⟨rfl, rfl⟩
  · dsimp only
    split
    · refine (sameBuffer_pullFreeBlock h (h.prevReal h.last)).trans ?_
      split <;> exact ⟨rfl, rfl⟩
    · exact ⟨rfl, rfl⟩

lemma sameBuffer_insertFreeBlock (h : HeapItem) (p : Nat) : SameBuffer h (h.insertFreeBlock p) := by
  rw [HeapItem.insertFreeBlock]
  split <;> exact ⟨rfl, rfl⟩

lemma sameBuffer_joinFreeBlocks (h : HeapItem) (p q : Nat) : SameBuffer h (h.joinFreeBlocks p q) := by
  rw [HeapItem.joinFreeBlocks]
  refine SameBuffer.trans ?_ (sameBuffer_pullFreeBlock _ q)
  split <;> exact ⟨rfl, rfl⟩

lemma sameBuffer_setSize (h : HeapItem) (p v : Nat) : SameBuffer h (h.setSize p v) := ⟨rfl, rfl⟩

lemma sameBuffer_setPrevReal (h : HeapItem) (p v : Nat) : SameBuffer h (h.setPrevReal p v) :=
  ⟨rfl, rfl⟩

lemma sameBuffer_freeInnerBlock (h : HeapItem) (p : Nat) : SameBuffer h (h.freeInnerBlock p) := by
  rw [HeapItem.freeInnerBlock]
  refine (sameBuffer_setSize h p (sub32 (h.sizeAt p) 1)).trans ?_
  generalize h.setSize p (sub32 (h.sizeAt p) 1) = g
  dsimp only
  split
  · have hmerge := (sameBuffer_setSize g (g.prevReal p)
      (add32 (g.sizeAt (g.prevReal p)) (g.sizeAt p))).trans
        (sameBuffer_setPrevReal _ (p + g.sizeAt p) (g.prevReal p))
    split
    · exact hmerge.trans (sameBuffer_joinFreeBlocks _ _ _)
    · exact hmerge
  · split
    · exact (sameBuffer_insertFreeBlock g p).trans (sameBuffer_joinFreeBlocks _ _ _)
    · exact sameBuffer_insertFreeBlock g p

structure NoBuffer (h : HeapItem) : Prop where
  buff : h.buff = 0
  first : h.first = 0
  last : h.last = 0
  rover : h.rover = 0
  noError : h.initBuffError = false

lemma Rep.freeBlock (hrep : Rep h (before ++ b :: behind) ring) (hb : b.asked = some n)
    (hapart : Apart (before ++ b :: behind)) :
    (NoBuffer (h.free (b.start + 16)).1 ∧ (h.free (b.start + 16)).2 = 2 ∧
        usedBlocks before ++ usedBlocks behind = []) ∨
      ∃ blocks' ring', Rep (h.free (b.start + 16)).1 blocks' ring' ∧ Apart blocks' ∧
        usedBlocks blocks' = usedBlocks before ++ usedBlocks behind ∧ usedBlocks blocks' ≠ [] ∧
        SameBuffer h (h.free (b.start + 16)).1 ∧ (h.free (b.start + 16)).2 = 1 := by
  have hrange := hrep.block
  have hbrk := hrep.brk_le
  have hown : h.isOwnItem (b.start + 16) = true := by
    have hpos := hrep.buff_pos
    rw [HeapItem.isOwnItem, decide_eq_true_iff]
    omega
  have hblock : b.start + 16 - usedHeaderSize = b.start := Nat.add_sub_cancel _ _
  -- the row behind the call, before the buffer is given back
  obtain ⟨blocks', ring', hrep', hapart', hobjects, hlast⟩ : ∃ blocks' ring',
      Rep (if b.start = h.last then h.freeLastBlock else h.freeInnerBlock b.start)
        blocks' ring' ∧ Apart blocks' ∧
        usedBlocks blocks' = usedBlocks before ++ usedBlocks behind ∧
        (∀ b ∈ blocks'.getLast?, b.asked.isSome) := by
    cases behind with
    | nil =>
      rw [if_pos (by rw [hrep.last, lastStart_concat])]
      obtain ⟨blocks', ring', hrep', hapart', hobjects⟩ :=
        hrep.freeLastBlock (by rw [hb]; rfl) hapart
      exact ⟨blocks', ring', hrep', hapart',
        hobjects.trans (List.append_nil (usedBlocks before)).symm, hrep'.lastUsed⟩
    | cons c behind =>
      rw [if_neg (hrep.last_ne (List.cons_ne_nil c behind)).symm]
      obtain ⟨start, sz, asked⟩ := b
      obtain rfl : asked = some n := hb
      obtain ⟨blocks', ring', hrep', hapart', hobjects, -⟩ := hrep.freeInnerBlock hapart
      exact ⟨blocks', ring', hrep', hapart', hobjects, hrep'.lastUsed⟩
  have hsame : SameBuffer h
      (if b.start = h.last then h.freeLastBlock else h.freeInnerBlock b.start) := by
    split
    · exact sameBuffer_freeLastBlock h
    · exact sameBuffer_freeInnerBlock h b.start
  rw [HeapItem.free, hown, hblock]
  simp only [if_true]
  generalize (if b.start = h.last then h.freeLastBlock
    else h.freeInnerBlock b.start) = g at hrep' hsame ⊢
  have hfull := hrep'.setFull false
  split
  · rename_i hempty
    -- nothing is left in the buffer
    obtain rfl : blocks' = [] := by
      cases blocks' with
      | nil => rfl
      | cons c rest =>
        have hrange := (@Rep.block c [] rest _ ring' hfull)
        dsimp only at hrange hempty
        omega
    left
    refine ⟨⟨rfl, hrep'.first, hrep'.last, ?_, hrep'.noError⟩, rfl, hobjects.symm⟩
    have hring : ring' = [] := hrep'.free.eq_nil
    rw [hring] at hrep'
    exact hrep'.freeRing.rover
  · rename_i hfullBuffer
    have hne : blocks' ≠ [] := by
      rintro rfl
      exact hfullBuffer hfull.tiles
    have hused : usedBlocks blocks' ≠ [] := by
      obtain ⟨front, c, rfl⟩ := (List.eq_nil_or_concat blocks').resolve_left hne
      rw [List.concat_eq_append] at hlast ⊢
      rw [usedBlocks_middle (hlast c (by simp))]
      simp
    exact Or.inr ⟨blocks', ring', hfull, hapart', hobjects, hused, hsame.trans ⟨rfl, rfl⟩, rfl⟩

lemma Inv.free (hinv : Inv s) (hp : (p, n) ∈ s.live) :
    Inv ⟨(s.item.free p).1, s.live.filter (·.1 ≠ p)⟩ ∧
      (s.item.free p).2 = if s.live.length = 1 then 2 else 1 := by
  cases hinv with
  | empty hbuff hfirst hlast hrover hnoError hlive =>
    rw [hlive] at hp
    cases hp
  | row blocks ring hrep hapart hsize hlive =>
    obtain ⟨before, b, behind, rfl, hb, hpb⟩ := exists_block_of_live hlive hp
    dsimp only at hb hpb
    have hothers : (s.live.filter (·.1 ≠ p)).Perm (objects before ++ objects behind) := by
      rw [← hrep.filter_objects hb, hpb]
      exact hlive.filter _
    have hlength : s.live.length = (objects before ++ objects behind).length + 1 := by
      rw [hlive.length_eq, objects_middle hb, List.length_append, List.length_append,
        List.length_cons]
      omega
    have hsplit : objects before ++ objects behind =
        (usedBlocks before ++ usedBlocks behind).filterMap Block.object := by
      rw [objects_eq, objects_eq, List.filterMap_append]
    subst hpb
    rcases hrep.freeBlock hb hapart with
      ⟨hnone, hresult, hnil⟩ | ⟨blocks', ring', hrep', hapart', hused, hne, hsame, hresult⟩
    · rw [hsplit, hnil] at hothers hlength
      rw [hresult, if_pos (by rw [hlength]; rfl)]
      exact ⟨.empty hnone.buff hnone.first hnone.last hnone.rover hnone.noError hothers.eq_nil, rfl⟩
    · rw [hsplit, ← hused, ← objects_eq] at hothers hlength
      have hpos : objects blocks' ≠ [] := by
        obtain ⟨c, hc⟩ := List.exists_mem_of_ne_nil _ hne
        obtain ⟨hmem, hasked⟩ := List.mem_filter.mp hc
        obtain ⟨m, hm⟩ := Option.isSome_iff_exists.mp hasked
        refine List.ne_nil_of_mem (List.mem_filterMap.mpr ⟨c, hmem, ?_⟩) (a := (c.start + 16, m))
        rw [Block.object, hm, Option.map_some]
      have := List.length_pos_iff.mpr hpos
      rw [hresult, if_neg (by omega)]
      exact ⟨.row blocks' ring' hrep' hapart' (by dsimp only; rw [hsame.size]; exact hsize) hothers,
        rfl⟩

lemma Tiles.disjoint (ht : Tiles mem 0 lo (before ++ b :: behind) hi)
    (hc : c ∈ before ++ b :: behind) :
    c = b ∨ c.start + c.size ≤ b.start ∨ b.start + b.size ≤ c.start := by
  obtain ⟨hfront, -, hback⟩ := tiles_split.mp ht
  rcases List.mem_append.mp hc with hc | hc
  · exact Or.inr (Or.inl (hfront.range hc).2.1)
  · rcases List.mem_cons.mp hc with rfl | hc
    · exact Or.inl rfl
    · exact Or.inr (Or.inr (hback.range hc).1)

lemma Inv.write {a v : Nat} (hinv : Inv s) (hallowed : Allowed s (.write a v)) :
    Inv { s with item := s.item.store a v } := by
  obtain ⟨hbuff, haligned, r, hr, hbelow, habove⟩ := hallowed
  cases hinv with
  | empty hbuff hfirst hlast hrover hnoError hlive =>
    rw [hlive] at hr
    cases hr
  | row blocks ring hrep hapart hsize hlive =>
    obtain ⟨before, b, behind, rfl, hb, hpb⟩ := exists_block_of_live hlive hr
    have hfits := (tiles_split.mp hrep.tiles).2.1.fits _ hb
    have hrange := hrep.block
    refine .row _ ring (hrep.transfer ⟨rfl, rfl, rfl, rfl, rfl, rfl⟩ ?_ rfl rfl ?_ hrep.free
      hrep.lastUsed) hapart hsize hlive
    · refine hrep.tiles.congr fun c hc => ?_
      have hcrange := hrep.tiles.range hc
      have hdisjoint := hrep.tiles.disjoint hc
      simp only [HeapItem.store]
      rcases hdisjoint with rfl | hdisjoint
      · constructor <;> simp (disch := omega) only [Function.update_of_ne]
      · constructor <;> simp (disch := omega) only [Function.update_of_ne]
    · refine hrep.freeRing.congr rfl fun q hq => ?_
      obtain ⟨front, sz, back, hsplit, -⟩ := hrep.of_mem_ring hq
      have hc : (⟨q, sz, none⟩ : Block) ∈ before ++ b :: behind := by
        rw [hsplit]
        simp
      have hcrange := hrep.tiles.range hc
      simp only [HeapItem.store]
      rcases hrep.tiles.disjoint hc with rfl | hdisjoint
      · cases hb
      · dsimp only at hcrange hdisjoint
        constructor <;> simp (disch := omega) only [Function.update_of_ne]

lemma Inv.step {a : Action} (hinv : Inv s) (hallowed : Allowed s a) (hwrap : NoWrap s a)
    (hstep : step s a = some t) : Inv t := by
  cases a with
  | mAlloc n answer => exact hinv.mAlloc hallowed hwrap hstep
  | free p =>
    obtain ⟨n, hp⟩ := hallowed
    exact Option.some.inj hstep ▸ (hinv.free hp).1
  | write a v => exact Option.some.inj hstep ▸ hinv.write hallowed

/-- The blocks of the item: they tile the buffer up to `Break`, each with a link to the one in
front, the ring at `Rover` has exactly the free ones, no two of which are side by side, and the
last block is in use. -/
structure Represents (h : HeapItem) (blocks : List Block) : Prop where
  tiles : if h.buff = 0 then blocks = [] else Tiles h.mem 0 h.buff blocks h.brk
  first : h.first = firstStart blocks
  last : h.last = lastStart 0 blocks
  ring : ∃ ring, Circular h.nextFree h.prevFree ring ∧ h.rover = ring.head?.getD 0 ∧
    ring.Nodup ∧ ring.Perm (freeStarts blocks)
  apart : Apart blocks
  lastUsed : ∀ b ∈ blocks.getLast?, b.asked.isSome

def Block.headerLength (b : Block) : Nat := if b.asked.isSome then usedHeaderSize else headerSize

def Separate (p n q m : Nat) : Prop := p + n ≤ q ∨ q + m ≤ p

/-- The item is a correct allocator. -/
structure Correct (s : State) : Prop where
  blocks : ∃ blocks, Represents s.item blocks ∧ s.live.Perm (objects blocks) ∧
    ∀ r ∈ s.live, (∃ b ∈ blocks, b.object = some r ∧ usedHeaderSize + r.2 ≤ b.size) ∧
      (s.item.buff ≤ r.1 ∧ r.1 + r.2 ≤ s.item.buff + s.item.size) ∧
      ∀ b ∈ blocks, Separate r.1 r.2 b.start b.headerLength
  disjoint : s.live.Pairwise fun r r' => Separate r.1 r.2 r'.1 r'.2
  free : ∀ r ∈ s.live, (s.item.free r.1).2 = if s.live.length = 1 then 2 else 1
  returns : ∀ a, Allowed s a → ∃ t, step s a = some t

lemma Tiles.pairwise (ht : Tiles mem p lo blocks hi) :
    blocks.Pairwise fun a b => a.start + a.size ≤ b.start := by
  induction blocks generalizing p lo with
  | nil => exact List.Pairwise.nil
  | cons b blocks ih =>
    obtain ⟨rfl, -, hrest⟩ := ht
    exact List.pairwise_cons.mpr ⟨fun c hc => (hrest.range hc).1, ih hrest⟩

lemma Tiles.fits (ht : Tiles mem 0 lo blocks hi) (hb : b ∈ blocks) (hn : b.asked = some n) :
    n + 16 ≤ b.size := by
  obtain ⟨before, behind, rfl⟩ := List.append_of_mem hb
  exact (tiles_split.mp ht).2.1.fits n hn

lemma Inv.correct (hinv : Inv s) : Correct s := by
  have hreturns : ∀ a, Allowed s a → ∃ t, Heap.step s a = some t := by
    intro a hallowed
    cases a with
    | mAlloc n answer =>
      obtain ⟨result, hresult⟩ := hinv.mAlloc_returns hallowed
      exact ⟨_, congrArg (Option.map _) hresult⟩
    | free p => exact ⟨_, rfl⟩
    | write a v => exact ⟨_, rfl⟩
  have hfree : ∀ r ∈ s.live, (s.item.free r.1).2 = if s.live.length = 1 then 2 else 1 :=
    fun r hr => (hinv.free hr).2
  cases hinv with
  | empty hbuff hfirst hlast hrover hnoError hlive =>
    have hnone : ∀ r, r ∉ s.live := by
      intro r
      rw [hlive]
      exact List.not_mem_nil
    refine ⟨⟨[], ⟨if_pos hbuff ▸ rfl, hfirst, hlast, ⟨[], circular_nil, hrover, List.nodup_nil,
      List.Perm.refl _⟩, List.isChain_nil, nofun⟩, hlive ▸ List.Perm.refl _,
      fun r hr => absurd hr (hnone r)⟩, ?_, hfree, hreturns⟩
    rw [hlive]
    exact List.Pairwise.nil
  | row blocks ring hrep hapart hsize hlive =>
    have hpos := hrep.buff_pos
    refine ⟨⟨blocks, ⟨?_, hrep.first, hrep.last, ⟨ring, hrep.freeRing.circular,
      hrep.freeRing.rover, hrep.freeRing.nodup, hrep.free⟩, hapart, hrep.lastUsed⟩, hlive,
      fun r hr => ?_⟩, ?_, hfree, hreturns⟩
    · rw [if_neg (by omega)]
      exact hrep.tiles
    · obtain ⟨before, b, behind, rfl, hb, hrb⟩ := exists_block_of_live hlive hr
      have hmem : b ∈ before ++ b :: behind := by simp
      have hfits := hrep.tiles.fits hmem hb
      have hrange := hrep.block
      have hbrk := hrep.brk_le
      refine ⟨⟨b, hmem, ?_, ?_⟩, ?_, fun c hc => ?_⟩
      · rw [Block.object, hb, Option.map_some, ← hrb]
      · rw [usedHeaderSize]
        omega
      · omega
      · have hcrange := hrep.tiles.range hc
        rw [Separate, Block.headerLength, usedHeaderSize, headerSize]
        rcases hrep.tiles.disjoint hc with rfl | hdisjoint
        · rw [hb, Option.isSome_some, if_pos rfl]
          omega
        · split <;> omega
    · rw [hlive.pairwise_iff fun hd => hd.symm, List.pairwise_filterMap]
      refine hrep.tiles.pairwise.imp_of_mem fun {a b} ha hb hab o ho o' ho' => ?_
      rw [Block.object, Option.map_eq_some_iff] at ho ho'
      obtain ⟨n, hn, rfl⟩ := ho
      obtain ⟨m, hm, rfl⟩ := ho'
      have hfits := hrep.tiles.fits ha hn
      exact Or.inl (by dsimp only; omega)

/-- The heap item in every run whose calls do not make the length in use pass `2^32`. -/
theorem reach_correct {s : State}
    (h : ReachBy step (fun s a => Allowed s a ∧ NoWrap s a) start s) : Correct s := by
  have hinv : Inv s := by
    refine h.invariant (.empty rfl rfl rfl rfl rfl rfl) fun s a t hinv hok hstep => ?_
    exact hinv.step hok.1 hok.2 hstep
  exact hinv.correct

theorem reach_correct_example : ∃ s, run step start
    [.mAlloc 100 (some ⟨64, 1000, fun _ => 0⟩), .mAlloc 10 none, .free 80] = some s ∧
    s.live = [(208, 10)] ∧ Correct s := by
  have hlive : (checkedRun step (fun s a => Allowed s a ∧ NoWrap s a) start
      [.mAlloc 100 (some ⟨64, 1000, fun _ => 0⟩), .mAlloc 10 none, .free 80]).map (·.live) =
      some [(208, 10)] := by
    decide +kernel
  obtain ⟨s, hs, hlive⟩ := Option.map_eq_some_iff.mp hlive
  exact ⟨s, hs, hlive, reach_correct (ReachBy.initial.checkedRun _ hs)⟩

/-- The buffer has `2^31 - 1` bytes and `2^31 - 32` are in use: an object of `2^31 - 1` bytes is
given behind its end. -/
theorem mAlloc_passes_end : ¬∀ s, ReachBy step Allowed start s → Correct s := by
  intro hall
  have hrun : (checkedRun step Allowed start
      [.mAlloc 2147483600 (some ⟨64, 2147483647, fun _ => 0⟩), .mAlloc 2147483647 none]).map
      (fun s => (s.live, s.item.buff, s.item.size)) =
      some ([(2147483696, 2147483647), (80, 2147483600)], 64, 2147483647) := by
    decide +kernel
  obtain ⟨s, hs, hmembers⟩ := Option.map_eq_some_iff.mp hrun
  obtain ⟨hlive, hbuff, hsize⟩ : s.live = [(2147483696, 2147483647), (80, 2147483600)] ∧
      s.item.buff = 64 ∧ s.item.size = 2147483647 := by
    simpa only [Prod.mk.injEq] using hmembers
  obtain ⟨blocks, -, -, howns⟩ := (hall s (ReachBy.initial.checkedRun _ hs)).blocks
  have hinside := (howns (2147483696, 2147483647) (by rw [hlive]; simp)).2.1.2
  rw [hbuff, hsize] at hinside
  exact absurd hinside (by decide)

end VoipMonitor.Heap
