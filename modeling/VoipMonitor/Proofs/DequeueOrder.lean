import VoipMonitor.Model.Dequeue

/-!
# Time-ordered dequeue: nothing lost, nothing twice, oldest first

The used and free places partition the table, the heap holds the used places in the order of
their current packets, and each held block has handed out exactly its packets before the current
one.
-/

namespace VoipMonitor.Dequeue
open VoipMonitor.Library

/-! ## Positions -/

/-- The positions before `p` of packets that are not ignored. -/
def before (b : PcapBlockStore) (p : Nat) : List Nat :=
  (List.range p).filter (fun k => !b.isIgnore k)

def nonIgnored (b : PcapBlockStore) : List Nat := before b b.count

section Positions
variable {b : PcapBlockStore} {p q : Nat}

lemma isIgnore_eq {k : Nat} (hk : k < b.packets.length) : b.isIgnore k = b.packets[k].ignore := by
  rw [PcapBlockStore.isIgnore, PcapBlockStore.packet, List.getD_eq_getElem?_getD,
    List.getElem?_eq_getElem hk, Option.getD_some]

lemma before_succ (b : PcapBlockStore) (p : Nat) :
    before b (p + 1) = before b p ++ if b.isIgnore p then [] else [p] := by
  unfold before
  rw [List.range_succ, List.filter_append]
  cases h : b.isIgnore p <;> simp [h]

lemma before_eq_of_ignored (hpq : p ≤ q) (h : ∀ k, p ≤ k → k < q → b.isIgnore k = true) :
    before b q = before b p := by
  induction hpq with
  | refl => rfl
  | step hpq ih =>
    rename_i q
    have hq : b.isIgnore q = true := h q hpq (Nat.lt_succ_self q)
    rw [before_succ, hq, if_pos rfl, List.append_nil]
    exact ih (fun k hk hkq => h k hk (Nat.lt_succ_of_lt hkq))

lemma before_pass (hp : b.isIgnore p = false) (hpq : p < q)
    (h : ∀ k, p < k → k < q → b.isIgnore k = true) : before b q = before b p ++ [p] := by
  rw [before_eq_of_ignored (p := p + 1) hpq (fun k hk => h k hk), before_succ, hp, if_neg (by simp)]

lemma before_prefix (hpq : p ≤ q) : before b p <+: before b q := by
  induction hpq with
  | refl => exact List.prefix_rfl
  | step hpq ih =>
    rw [before_succ]
    exact ih.trans (List.prefix_append _ _)

lemma skipLast_spec (posFirst pos : Nat) (hle : posFirst ≤ pos)
    (hfirst : b.isIgnore posFirst = false) :
    posFirst ≤ skipLast b posFirst pos ∧ skipLast b posFirst pos ≤ pos ∧
      b.isIgnore (skipLast b posFirst pos) = false ∧
      ∀ k, skipLast b posFirst pos < k → k ≤ pos → b.isIgnore k = true := by
  induction pos with
  | zero =>
    obtain rfl : posFirst = 0 := by omega
    refine ⟨le_rfl, le_rfl, hfirst, ?_⟩
    intro k hk hk'
    rw [skipLast] at hk
    omega
  | succ pos ih =>
    rw [skipLast]
    split
    · rename_i hskip
      obtain ⟨h₁, h₂, h₃, h₄⟩ := ih (by omega)
      refine ⟨h₁, by omega, h₃, ?_⟩
      intro k hk hk'
      by_cases hkp : k = pos + 1
      · rw [hkp]
        exact hskip.2
      · exact h₄ k hk (by omega)
    · rename_i hstop
      refine ⟨hle, le_rfl, ?_, fun k hk hk' => absurd hk' (by omega)⟩
      by_cases heq : posFirst = pos + 1
      · rw [← heq]
        exact hfirst
      · by_contra hign
        exact hstop ⟨by omega, by simpa using hign⟩

structure Positions (i : BlockInfo) : Prop where
  act_le : i.posAct ≤ i.posLast
  last_lt : i.posLast < i.blockStore.count
  act_kept : i.blockStore.isIgnore i.posAct = false
  last_kept : i.blockStore.isIgnore i.posLast = false
  rest : ∀ k, i.posLast < k → k < i.blockStore.count → i.blockStore.isIgnore k = true

lemma setFirstLast_none {i : BlockInfo} (h : setFirstLast i = none) :
    nonIgnored i.blockStore = [] := by
  unfold setFirstLast at h
  dsimp only at h
  split at h
  · rename_i hfirst
    have hnone := List.findIdx_eq_length.mp hfirst
    unfold nonIgnored before
    rw [List.filter_eq_nil_iff]
    intro k hk
    rw [List.mem_range] at hk
    have hmem := hnone i.blockStore.packets[k] (List.getElem_mem hk)
    rw [isIgnore_eq hk]
    simpa using hmem
  · cases h

lemma setFirstLast_some {i i' : BlockInfo} (h : setFirstLast i = some i') :
    i'.blockStore = i.blockStore ∧ i'.posAct = i'.posFirst ∧ Positions i' ∧
      before i'.blockStore i'.posAct = [] := by
  unfold setFirstLast at h
  dsimp only at h
  split at h
  · cases h
  · rename_i hne
    cases h
    have hlt : i.blockStore.packets.findIdx (fun p => !p.ignore) < i.blockStore.packets.length :=
      lt_of_le_of_ne List.findIdx_le_length hne
    have hkept : i.blockStore.isIgnore (i.blockStore.packets.findIdx (fun p => !p.ignore)) =
        false := by
      rw [isIgnore_eq hlt]
      simpa using List.findIdx_getElem (w := hlt)
    have hbefore : ∀ k, k < i.blockStore.packets.findIdx (fun p => !p.ignore) →
        i.blockStore.isIgnore k = true := by
      intro k hk
      have := List.not_of_lt_findIdx hk
      rw [isIgnore_eq (hk.trans hlt)]
      simpa using this
    have hcount : i.blockStore.count = i.blockStore.packets.length := rfl
    obtain ⟨h₁, h₂, h₃, h₄⟩ := skipLast_spec _ (i.blockStore.count - 1) (by omega) hkept
    refine ⟨rfl, rfl, ⟨h₁, ?_, hkept, h₃, ?_⟩, ?_⟩
    · dsimp only
      omega
    · intro k hk hk'
      exact h₄ k hk (by dsimp only at hk'; omega)
    · exact before_eq_of_ignored (p := 0) (Nat.zero_le _) (fun k _ hk => hbefore k hk)

lemma nextPos_spec (b : PcapBlockStore) (posLast fuel pos : Nat) (hfuel : posLast ≤ pos + fuel) :
    ((nextPos b posLast fuel pos).2 = true → pos < (nextPos b posLast fuel pos).1 ∧
      (nextPos b posLast fuel pos).1 ≤ posLast ∧
      b.isIgnore (nextPos b posLast fuel pos).1 = false ∧
      ∀ k, pos < k → k < (nextPos b posLast fuel pos).1 → b.isIgnore k = true) ∧
    ((nextPos b posLast fuel pos).2 = false →
      ∀ k, pos < k → k ≤ posLast → b.isIgnore k = true) := by
  induction fuel generalizing pos with
  | zero =>
    refine ⟨(fun h => by cases h), ?_⟩
    intro _ k hk hk'
    omega
  | succ fuel ih =>
    rw [nextPos]
    split
    · rename_i hlt
      split
      · rename_i hign
        obtain ⟨ht, hf⟩ := ih (pos + 1) (by omega)
        refine ⟨?_, ?_⟩
        · intro h
          obtain ⟨h₁, h₂, h₃, h₄⟩ := ht h
          refine ⟨by omega, h₂, h₃, ?_⟩
          intro k hk hk'
          by_cases hkp : k = pos + 1
          · rw [hkp]
            exact hign
          · exact h₄ k (by omega) hk'
        · intro h k hk hk'
          by_cases hkp : k = pos + 1
          · rw [hkp]
            exact hign
          · exact hf h k (by omega) hk'
      · rename_i hkept
        refine ⟨fun _ => ⟨Nat.lt_succ_self _, hlt, by simpa using hkept, ?_⟩,
          (fun h => by cases h)⟩
        intro k hk hk'
        omega
    · rename_i hge
      refine ⟨(fun h => by cases h), ?_⟩
      intro _ k hk hk'
      omega

lemma incPosAct_true {i : BlockInfo} (h : Positions i) (hr : (incPosAct i).2 = true) :
    Positions (incPosAct i).1 ∧
      before i.blockStore (incPosAct i).1.posAct = before i.blockStore i.posAct ++ [i.posAct] := by
  obtain ⟨h₁, h₂, h₃, h₄⟩ := (nextPos_spec i.blockStore i.posLast
    (i.posLast - i.posAct) i.posAct (by omega)).1 hr
  exact ⟨⟨h₂, h.last_lt, h₃, h.last_kept, h.rest⟩, before_pass h.act_kept h₁ h₄⟩

lemma incPosAct_false {i : BlockInfo} (h : Positions i) (hr : (incPosAct i).2 = false) :
    nonIgnored i.blockStore = before i.blockStore i.posAct ++ [i.posAct] := by
  have hnone := (nextPos_spec i.blockStore i.posLast
    (i.posLast - i.posAct) i.posAct (by omega)).2 hr
  have heq : i.posAct = i.posLast := by
    by_contra hne
    have hlast := hnone i.posLast (lt_of_le_of_ne h.act_le hne) le_rfl
    rw [h.last_kept] at hlast
    cases hlast
  have hlt := h.last_lt
  refine before_pass h.act_kept (by omega) ?_
  intro k hk hk'
  exact h.rest k (by omega) hk'

end Positions

/-! ## The table -/

/-- `used` and `free` are the two lists of the table and share out its places; the heap holds
the used ones in order. -/
structure TableInv (s : BlocksInfo) (used free : List Nat) : Prop where
  usedLinked : Linked s.nextBlock s.usedHead used
  freeLinked : Linked s.nextBlock s.freeHead free
  perm : (used ++ free).Perm (List.range s.blockInfoMax)
  usedCount : s.usedCount = used.length
  capacity : s.minHeap.capacity = s.blockInfoMax
  heapPerm : s.minHeap.toList.Perm used
  ordered : s.minHeap.Ordered s.key

section Table
variable {s : BlocksInfo} {used free : List Nat}

lemma linked_range (n k m : Nat) (hm : 0 < m) (hn : k + m = n) :
    Linked (fun i => if i + 1 < n then some (i + 1) else none) (some k) (List.range' k m) := by
  induction m generalizing k with
  | zero => omega
  | succ m ih =>
    rw [List.range'_succ]
    refine ⟨rfl, ?_⟩
    dsimp only
    by_cases hm' : m = 0
    · subst hm'
      rw [if_neg (by omega)]
      rfl
    · rw [if_pos (by omega)]
      exact ih (k + 1) (by omega) (by omega)

lemma tableInv_init {n : Nat} (hn : 0 < n) : TableInv (BlocksInfo.init n) [] (List.range n) where
  usedLinked := rfl
  freeLinked := by
    have h := linked_range n 0 n hn (Nat.zero_add n)
    rwa [← List.range_eq_range'] at h
  perm := List.Perm.refl _
  usedCount := rfl
  capacity := rfl
  heapPerm := List.Perm.refl _
  ordered := fun k _ hk => absurd hk (Nat.not_lt_zero k)

lemma TableInv.nodup (h : TableInv s used free) : (used ++ free).Nodup :=
  h.perm.nodup_iff.mpr List.nodup_range

lemma TableInv.used_nodup (h : TableInv s used free) : used.Nodup :=
  (List.nodup_append.mp h.nodup).1

lemma TableInv.not_mem_free (h : TableInv s used free) {i : Nat} (hi : i ∈ used) : i ∉ free := by
  intro hf
  exact (List.nodup_append.mp h.nodup).2.2 i hi i hf rfl

lemma TableInv.length_le (h : TableInv s used free) :
    used.length + free.length = s.blockInfoMax := by
  have hlen := h.perm.length_eq
  rwa [List.length_append, List.length_range] at hlen

lemma TableInv.used_lt (h : TableInv s used free) {i : Nat} (hi : i ∈ used) :
    i < s.blockInfoMax :=
  List.mem_range.mp (h.perm.subset (List.mem_append_left _ hi))

lemma TableInv.getUsed_eq (h : TableInv s used free) : s.getUsed = used :=
  h.usedLinked.walk_eq (by have := h.length_le; omega)

lemma TableInv.heap_size (h : TableInv s used free) : s.minHeap.size = used.length := by
  rw [← h.heapPerm.length_eq, MinHeap.length_toList]

lemma TableInv.isFull_iff (h : TableInv s used free) : s.isFull = true ↔ free = [] := by
  rw [BlocksInfo.isFull, Option.isNone_iff_eq_none]
  exact h.freeLinked.eq_nil_iff

lemma TableInv.getMin_some (h : TableInv s used free) (hused : used ≠ []) :
    s.minHeap.getMin = some (s.minHeap.data 0) ∧ s.minHeap.data 0 ∈ used := by
  have hsize := h.heap_size
  have hpos := List.length_pos_iff.mpr hused
  refine ⟨?_, ?_⟩
  · rw [MinHeap.getMin, if_neg (by omega)]
  · exact h.heapPerm.subset (MinHeap.mem_toList.mpr ⟨0, by omega, rfl⟩)

lemma foldl_updateTimesOf_eq (l : List Nat) (s : BlocksInfo) : ∃ a b c d,
    l.foldl BlocksInfo.updateTimesOf s =
      { s with utimeFirst := a, utimeLast := b, atFirst := c, atLast := d } := by
  induction l generalizing s with
  | nil => exact ⟨_, _, _, _, rfl⟩
  | cons i l ih =>
    obtain ⟨a, b, c, d, heq⟩ := ih (s.updateTimesOf i)
    exact ⟨a, b, c, d, heq⟩

lemma TableInv.changeTimes (h : TableInv s used free) (a b c d : Nat) :
    TableInv { s with utimeFirst := a, utimeLast := b, atFirst := c, atLast := d } used free :=
  ⟨h.usedLinked, h.freeLinked, h.perm, h.usedCount, h.capacity, h.heapPerm, h.ordered⟩

lemma TableInv.insert (h : TableInv s used free) {i : Nat} {s' : BlocksInfo}
    (hnew : s.newBlock = some (i, s')) (data : BlockInfo) :
    let t := (s'.set i data).updateTimesOf i
    ∃ free', free = i :: free' ∧ i ∉ used ∧
      TableInv { t with minHeap := t.minHeap.insert t.key i } (i :: used) free' ∧
      t.blocks = Function.update s.blocks i data := by
  intro t
  have hnodup := h.nodup
  unfold BlocksInfo.newBlock at hnew
  cases hfree : s.freeHead with
  | none =>
    rw [hfree] at hnew
    cases hnew
  | some j =>
    rw [hfree] at hnew
    cases hnew
    have hlist := h.freeLinked
    rw [hfree] at hlist
    cases free with
    | nil => cases hlist
    | cons k free' =>
      obtain ⟨hk, hlist⟩ := hlist
      cases hk
      have hperm : (i :: used ++ free').Perm (used ++ i :: free') := List.perm_middle.symm
      have hi : i ∉ used ++ free' := by
        have := hperm.nodup_iff.mpr hnodup
        exact (List.nodup_cons.mp this).1
      have hiu : i ∉ used := fun hmem => hi (List.mem_append_left _ hmem)
      have hif : i ∉ free' := fun hmem => hi (List.mem_append_right _ hmem)
      have hord : s.minHeap.Ordered t.key := by
        refine h.ordered.congr ?_
        intro x hx
        have hxi : x ≠ i := by
          rintro rfl
          exact hiu (h.heapPerm.subset hx)
        change (Function.update s.blocks i data x).utimeFirst = _
        rw [Function.update_of_ne hxi]
        rfl
      have hroom : s.minHeap.size < s.minHeap.capacity := by
        have hlen := h.length_le
        rw [List.length_cons] at hlen
        rw [h.heap_size, h.capacity]
        omega
      obtain ⟨hins, hinsPerm⟩ := MinHeap.insert_spec hord hroom i
      refine ⟨free', rfl, hiu,
        ⟨h.usedLinked.push hiu, ?_, hperm.trans h.perm, ?_, ?_, ?_, hins⟩, rfl⟩
      · refine Linked.congr hlist ?_
        intro j hj
        refine Function.update_of_ne ?_ _ _
        rintro rfl
        exact hif hj
      · change s.usedCount + 1 = _
        rw [h.usedCount]
        simp
      · exact (MinHeap.insert_capacity _ _ _).trans h.capacity
      · exact hinsPerm.trans (h.heapPerm.cons i)

lemma TableInv.extract (h : TableInv s used free) (hused : used ≠ []) {data : BlockInfo}
    (hdata : data.utimeFirst = s.key (s.minHeap.data 0)) :
    let i := s.minHeap.data 0
    let t := (s.set i data).freeBlock i
    let t' := ({ t with minHeap := t.minHeap.extractMin t.key } : BlocksInfo).updateTimes
    TableInv t' (used.erase i) (i :: free) ∧ t'.blocks = Function.update s.blocks i data := by
  intro i t t'
  obtain ⟨-, hi⟩ := h.getMin_some hused
  have hlen := h.length_le
  have hnotfree := h.not_mem_free hi
  have hlt := h.used_lt hi
  obtain ⟨hunlink, hother⟩ := h.usedLinked.unlink h.used_nodup hi s.blockInfoMax (by omega)
  have hfree : t = { s.set i data with
      usedHead := (unlink i s.blockInfoMax s.usedHead s.nextBlock none).1
      nextBlock := Function.update (unlink i s.blockInfoMax s.usedHead s.nextBlock none).2 i
        s.freeHead
      freeHead := some i
      usedCount := s.usedCount - 1 } := by
    change BlocksInfo.freeBlock _ _ = _
    unfold BlocksInfo.freeBlock
    exact if_neg (not_le.mpr hlt)
  have hkey : t.key = s.key := by
    funext x
    rw [hfree]
    change (Function.update s.blocks i data x).utimeFirst = _
    by_cases hx : x = i
    · rw [hx, Function.update_self, hdata]
    · rw [Function.update_of_ne hx]
      rfl
  have hsize := h.heap_size
  have hpos := List.length_pos_iff.mpr hused
  have hheap : t.minHeap = s.minHeap := by rw [hfree]; rfl
  obtain ⟨hord, hperm⟩ := MinHeap.extractMin_spec h.ordered (by omega)
  have hnoterase : i ∉ used.erase i := h.used_nodup.not_mem_erase
  have hinv : TableInv { t with minHeap := t.minHeap.extractMin t.key } (used.erase i)
      (i :: free) := by
    rw [hkey, hheap, hfree]
    refine ⟨?_, ?_, ?_, ?_, ?_, ?_, ?_⟩
    · refine Linked.congr hunlink ?_
      intro j hj
      refine Function.update_of_ne ?_ _ _
      rintro rfl
      exact hnoterase hj
    · refine Linked.push (Linked.congr h.freeLinked ?_) hnotfree
      intro j hj
      refine hother j ?_
      intro hmem
      exact h.not_mem_free (List.mem_of_mem_erase hmem) hj
    · have hsplit : (i :: used.erase i).Perm used := (List.perm_cons_erase hi).symm
      refine List.perm_middle.trans ?_
      exact (hsplit.append_right free).trans h.perm
    · change s.usedCount - 1 = _
      rw [h.usedCount, List.length_erase_of_mem hi]
      omega
    · exact (MinHeap.extractMin_capacity _ _).trans h.capacity
    · have hcons : (i :: (s.minHeap.extractMin s.key).toList).Perm (i :: used.erase i) :=
        (hperm.trans h.heapPerm).trans (List.perm_cons_erase hi)
      exact hcons.cons_inv
    · refine hord.congr ?_
      intro x _
      rw [← hkey, hfree]
      rfl
  obtain ⟨a, b, c, d, htimes⟩ := foldl_updateTimesOf_eq
    ({ t with minHeap := t.minHeap.extractMin t.key } : BlocksInfo).getUsed
    ({ t with minHeap := t.minHeap.extractMin t.key } : BlocksInfo).cleanTimes
  have ht' : t' = { ({ t with minHeap := t.minHeap.extractMin t.key } : BlocksInfo) with
      utimeFirst := a, utimeLast := b, atFirst := c, atLast := d } := htimes
  rw [ht']
  refine ⟨hinv.changeTimes a b c d, ?_⟩
  change t.blocks = _
  rw [hfree]
  rfl

lemma TableInv.update (h : TableInv s used free) (data : BlockInfo) :
    let i := s.minHeap.data 0
    let t := s.set i data
    TableInv { t with minHeap := t.minHeap.doHeapify t.key } used free := by
  intro i t
  have hnodup : s.minHeap.toList.Nodup := h.heapPerm.nodup_iff.mpr h.used_nodup
  have hkey : ∀ k, 0 < k → k < s.minHeap.size →
      t.key (s.minHeap.data k) = s.key (s.minHeap.data k) := by
    intro k hk hks
    have hne : s.minHeap.data k ≠ i := MinHeap.data_ne hnodup hks (by omega) (by omega)
    change (Function.update s.blocks i data _).utimeFirst = _
    rw [Function.update_of_ne hne]
    rfl
  have hdown : ∀ k, 0 < k → k < s.minHeap.size → MinHeap.parent k ≠ 0 →
      t.key (s.minHeap.data (MinHeap.parent k)) ≤ t.key (s.minHeap.data k) := by
    intro k hk hks hpk
    have hp := MinHeap.parent_lt hk
    rw [hkey k hk hks, hkey _ (Nat.pos_of_ne_zero hpk) (by omega)]
    exact h.ordered k hk hks
  obtain ⟨hord, hperm⟩ := MinHeap.doHeapify_spec hdown
  exact ⟨h.usedLinked, h.freeLinked, h.perm, h.usedCount,
    (MinHeap.heapify_capacity _ _ _ _).trans h.capacity, hperm.trans h.heapPerm, hord⟩

end Table

end VoipMonitor.Dequeue
