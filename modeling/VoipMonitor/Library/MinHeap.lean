import Mathlib.Data.List.Perm.Basic
import Mathlib.Data.List.Range
import Mathlib.Order.Basic
import Mathlib.Tactic

/-!
# A binary heap in an array

The heap keeps its entries in the first `size` places of an array and compares them through a
key that lives outside of it. The key may change between two operations: `heapify` repairs the
order as long as only the entry at its start is out of place.
-/

namespace VoipMonitor.Library

structure MinHeap (α : Type) where
  data : Nat → α
  capacity : Nat
  size : Nat := 0

namespace MinHeap
variable {α β : Type} [LinearOrder β] (key : α → β)

def parent (i : Nat) : Nat := (i - 1) / 2
def leftChild (i : Nat) : Nat := 2 * i + 1
def rightChild (i : Nat) : Nat := 2 * i + 2

def swap (h : MinHeap α) (i j : Nat) : MinHeap α :=
  { h with data := fun k => if k = i then h.data j else if k = j then h.data i else h.data k }

/-- Moves the entry at `current` up while its parent has a greater key. -/
def siftUp : Nat → MinHeap α → Nat → MinHeap α
  | 0, h, _ => h
  | fuel + 1, h, current =>
    if current ≠ 0 ∧ key (h.data current) < key (h.data (parent current)) then
      siftUp fuel (h.swap current (parent current)) (parent current)
    else h

def append (h : MinHeap α) (x : α) : MinHeap α :=
  { h with data := fun k => if k = h.size then x else h.data k, size := h.size + 1 }

/-- A full heap is left as it is. -/
def insert (h : MinHeap α) (x : α) : MinHeap α :=
  if h.capacity ≤ h.size then h else siftUp key h.size (h.append x) h.size

def getMin (h : MinHeap α) : Option α := if h.size = 0 then none else some (h.data 0)

/-- The place of the smallest key among `i` and its children. -/
def smallest (h : MinHeap α) (i : Nat) : Nat :=
  let s := if leftChild i < h.size ∧ key (h.data (leftChild i)) < key (h.data i) then leftChild i
    else i
  if rightChild i < h.size ∧ key (h.data (rightChild i)) < key (h.data s) then rightChild i else s

def heapify : Nat → MinHeap α → Nat → MinHeap α
  | 0, h, _ => h
  | fuel + 1, h, i =>
    if smallest key h i ≠ i then
      heapify fuel (h.swap i (smallest key h i)) (smallest key h i)
    else h

def doHeapify (h : MinHeap α) : MinHeap α := heapify key h.size h 0

def lastToRoot (h : MinHeap α) : MinHeap α :=
  { h with data := fun k => if k = 0 then h.data (h.size - 1) else h.data k, size := h.size - 1 }

def extractMin (h : MinHeap α) : MinHeap α :=
  if h.size = 0 then h
  else if h.size = 1 then { h with size := 0 }
  else doHeapify key h.lastToRoot

def toList (h : MinHeap α) : List α := (List.range h.size).map h.data

/-- No entry has a smaller key than its parent. -/
def Ordered (h : MinHeap α) : Prop :=
  ∀ k, 0 < k → k < h.size → key (h.data (parent k)) ≤ key (h.data k)

/-! ## The entries -/

@[simp] lemma swap_size (h : MinHeap α) (i j : Nat) : (h.swap i j).size = h.size := rfl

lemma siftUp_capacity (fuel : Nat) (h : MinHeap α) (i : Nat) :
    (siftUp key fuel h i).capacity = h.capacity := by
  induction fuel generalizing h i with
  | zero => rfl
  | succ fuel ih =>
    rw [siftUp]
    split
    · exact ih _ _
    · rfl

lemma heapify_capacity (fuel : Nat) (h : MinHeap α) (i : Nat) :
    (heapify key fuel h i).capacity = h.capacity := by
  induction fuel generalizing h i with
  | zero => rfl
  | succ fuel ih =>
    rw [heapify]
    split
    · exact ih _ _
    · rfl

lemma insert_capacity (h : MinHeap α) (x : α) : (h.insert key x).capacity = h.capacity := by
  unfold insert
  split
  · rfl
  · exact siftUp_capacity key _ _ _

lemma extractMin_capacity (h : MinHeap α) : (h.extractMin key).capacity = h.capacity := by
  unfold extractMin
  split
  · rfl
  split
  · rfl
  · exact heapify_capacity key _ _ _

lemma length_toList (h : MinHeap α) : h.toList.length = h.size := by simp [toList]

lemma mem_toList {h : MinHeap α} {x : α} : x ∈ h.toList ↔ ∃ k < h.size, h.data k = x := by
  simp [toList]

lemma swap_perm (h : MinHeap α) {i j : Nat} (hi : i < h.size) (hj : j < h.size) :
    (h.swap i j).toList.Perm h.toList := by
  have heq : (h.swap i j).data = h.data ∘ Equiv.swap i j := by
    funext k
    simp only [swap, Function.comp_apply, Equiv.swap_apply_def]
    split_ifs <;> simp_all
  have hperm : ((List.range h.size).map (Equiv.swap i j)).Perm (List.range h.size) := by
    refine (List.perm_ext_iff_of_nodup ?_ List.nodup_range).mpr ?_
    · exact List.nodup_range.map (Equiv.swap i j).injective
    · intro k
      rw [List.mem_map]
      constructor
      · rintro ⟨l, hl, rfl⟩
        rw [List.mem_range] at hl ⊢
        rw [Equiv.swap_apply_def]
        split_ifs <;> omega
      · intro hk
        refine ⟨Equiv.swap i j k, ?_, Equiv.swap_apply_self i j k⟩
        rw [List.mem_range] at hk ⊢
        rw [Equiv.swap_apply_def]
        split_ifs <;> omega
  have hmap := hperm.map h.data
  rw [List.map_map] at hmap
  unfold toList
  rw [heq]
  exact hmap

lemma parent_lt {i : Nat} (h : 0 < i) : parent i < i := by
  unfold parent
  omega

lemma swap_data_left (h : MinHeap α) (i j : Nat) : (h.swap i j).data i = h.data j := by
  simp [swap]

lemma swap_data_right (h : MinHeap α) (i j : Nat) : (h.swap i j).data j = h.data i := by
  by_cases hij : j = i
  · simp [swap, hij]
  · simp [swap, hij]

lemma swap_data_of_ne (h : MinHeap α) {i j k : Nat} (hi : k ≠ i) (hj : k ≠ j) :
    (h.swap i j).data k = h.data k := by
  simp [swap, hi, hj]

lemma Ordered.congr {key key' : α → β} {h : MinHeap α} (o : Ordered key h)
    (heq : ∀ x ∈ h.toList, key' x = key x) : Ordered key' h := by
  intro k hk hks
  have hp := parent_lt hk
  rw [heq _ (mem_toList.mpr ⟨k, hks, rfl⟩), heq _ (mem_toList.mpr ⟨parent k, by omega, rfl⟩)]
  exact o k hk hks

lemma data_ne {h : MinHeap α} (hnodup : h.toList.Nodup) {i j : Nat} (hi : i < h.size)
    (hj : j < h.size) (hij : i ≠ j) : h.data i ≠ h.data j := by
  intro heq
  have hinj := List.inj_on_of_nodup_map hnodup
  exact hij (hinj (List.mem_range.mpr hi) (List.mem_range.mpr hj) heq)

/-! ## Moving up -/

/-- The order holds but for the entry at `i` and its parent. -/
structure UpOrder (h : MinHeap α) (i : Nat) : Prop where
  rest : ∀ k, 0 < k → k < h.size → k ≠ i → key (h.data (parent k)) ≤ key (h.data k)
  grand : 0 < i → ∀ c, 0 < c → c < h.size → parent c = i →
    key (h.data (parent i)) ≤ key (h.data c)

variable {key}

lemma UpOrder.swap {h : MinHeap α} {i : Nat} (o : UpOrder key h i) (hi : 0 < i) (hlt : i < h.size)
    (hless : key (h.data i) < key (h.data (parent i))) :
    UpOrder key (h.swap i (parent i)) (parent i) := by
  have hp := parent_lt hi
  refine ⟨?_, ?_⟩
  · intro k hk hks hkp
    rw [swap_size] at hks
    by_cases hki : k = i
    · subst hki
      rw [swap_data_left, swap_data_right]
      exact hless.le
    rw [swap_data_of_ne h hki hkp]
    by_cases hpi : parent k = i
    · rw [hpi, swap_data_left]
      exact o.grand hi k hk hks hpi
    by_cases hpp : parent k = parent i
    · have hrest := o.rest k hk hks hki
      rw [hpp] at hrest
      rw [hpp, swap_data_right]
      exact hless.le.trans hrest
    · rw [swap_data_of_ne h hpi hpp]
      exact o.rest k hk hks hki
  · intro hpos c hc hcs hcp
    rw [swap_size] at hcs
    have hup := o.rest (parent i) hpos (by omega) (by omega)
    have hpp := parent_lt hpos
    rw [swap_data_of_ne h (by omega) (by omega)]
    by_cases hci : c = i
    · rw [hci, swap_data_left]
      exact hup
    · have hcp' := parent_lt hc
      rw [swap_data_of_ne h hci (by omega)]
      have := o.rest c hc hcs hci
      rw [hcp] at this
      exact hup.trans this

lemma UpOrder.ordered {h : MinHeap α} {i : Nat} (o : UpOrder key h i)
    (hstop : ¬(i ≠ 0 ∧ key (h.data i) < key (h.data (parent i)))) : Ordered key h := by
  intro k hk hks
  by_cases hki : k = i
  · subst hki
    exact not_lt.mp (fun hless => hstop ⟨by omega, hless⟩)
  · exact o.rest k hk hks hki

lemma siftUp_spec (fuel : Nat) (h : MinHeap α) (i : Nat) (hfuel : i ≤ fuel) (hi : i < h.size)
    (o : UpOrder key h i) :
    Ordered key (siftUp key fuel h i) ∧ (siftUp key fuel h i).toList.Perm h.toList := by
  induction fuel generalizing h i with
  | zero =>
    obtain rfl : i = 0 := by omega
    exact ⟨o.ordered (fun hn => hn.1 rfl), List.Perm.refl _⟩
  | succ fuel ih =>
    rw [siftUp]
    split
    · rename_i hmove
      have hpos : 0 < i := Nat.pos_of_ne_zero hmove.1
      have hp := parent_lt hpos
      obtain ⟨hord, hperm⟩ := ih (h.swap i (parent i)) (parent i) (by omega)
        (by rw [swap_size]; omega) (o.swap hpos hi hmove.2)
      exact ⟨hord, hperm.trans (swap_perm h hi (by omega))⟩
    · rename_i hstop
      exact ⟨o.ordered hstop, List.Perm.refl _⟩

/-- Inserting keeps the order and adds the entry. -/
theorem insert_spec {h : MinHeap α} (o : Ordered key h) (hroom : h.size < h.capacity) (x : α) :
    Ordered key (h.insert key x) ∧ (h.insert key x).toList.Perm (x :: h.toList) := by
  rw [insert, if_neg (Nat.not_le.mpr hroom)]
  have hdata : ∀ k, k ≠ h.size → (h.append x).data k = h.data k := by
    intro k hk
    simp [append, hk]
  have hup : UpOrder key (h.append x) h.size := by
    refine ⟨?_, ?_⟩
    · intro k hk hks hkn
      have hp := parent_lt hk
      have hks' : k < h.size + 1 := hks
      rw [hdata k hkn, hdata (parent k) (by omega)]
      exact o k hk (by omega)
    · intro _ c hc hcs hcp
      have hp := parent_lt hc
      have hcs' : c < h.size + 1 := hcs
      omega
  obtain ⟨hord, hperm⟩ := siftUp_spec h.size (h.append x) h.size le_rfl (Nat.lt_succ_self _) hup
  refine ⟨hord, hperm.trans ?_⟩
  have hlist : (h.append x).toList = h.toList ++ [x] := by
    change (List.range (h.size + 1)).map (h.append x).data = _
    rw [List.range_succ, List.map_append]
    refine congrArg₂ _ (List.map_congr_left ?_) ?_
    · intro k hk
      exact hdata k (List.mem_range.mp hk).ne
    · simp [append]
  rw [hlist]
  exact List.perm_append_singleton x h.toList

/-! ## Moving down -/

variable (key)

/-- The order holds but for the entry at `i` and its children. -/
structure DownOrder (h : MinHeap α) (i : Nat) : Prop where
  rest : ∀ k, 0 < k → k < h.size → parent k ≠ i → key (h.data (parent k)) ≤ key (h.data k)
  grand : 0 < i → ∀ c, 0 < c → c < h.size → parent c = i →
    key (h.data (parent i)) ≤ key (h.data c)

variable {key}

lemma smallest_cases (key : α → β) (h : MinHeap α) (i : Nat) :
    (smallest key h i = i ∨
      (0 < smallest key h i ∧ smallest key h i < h.size ∧ parent (smallest key h i) = i ∧
        key (h.data (smallest key h i)) < key (h.data i))) ∧
    ∀ c, 0 < c → c < h.size → parent c = i →
      key (h.data (smallest key h i)) ≤ key (h.data c) := by
  have hchild : ∀ c, 0 < c → parent c = i → c = leftChild i ∨ c = rightChild i := by
    intro c hc hp
    unfold parent at hp
    unfold leftChild rightChild
    omega
  have hleft : parent (leftChild i) = i := by
    unfold parent leftChild
    omega
  have hright : parent (rightChild i) = i := by
    unfold parent rightChild
    omega
  have hpos : 0 < leftChild i ∧ 0 < rightChild i := by
    unfold leftChild rightChild
    omega
  unfold smallest
  dsimp only
  split_ifs with hl hr hr
  · refine ⟨Or.inr ⟨hpos.2, hr.1, hright, hr.2.trans hl.2⟩, ?_⟩
    intro c hc _ hcp
    rcases hchild c hc hcp with rfl | rfl
    · exact hr.2.le
    · exact le_rfl
  · refine ⟨Or.inr ⟨hpos.1, hl.1, hleft, hl.2⟩, ?_⟩
    intro c hc hcs hcp
    rcases hchild c hc hcp with rfl | rfl
    · exact le_rfl
    · exact not_lt.mp (fun hlt => hr ⟨hcs, hlt⟩)
  · refine ⟨Or.inr ⟨hpos.2, hr.1, hright, hr.2⟩, ?_⟩
    intro c hc hcs hcp
    rcases hchild c hc hcp with rfl | rfl
    · exact hr.2.le.trans (not_lt.mp (fun hlt => hl ⟨hcs, hlt⟩))
    · exact le_rfl
  · refine ⟨Or.inl rfl, ?_⟩
    intro c hc hcs hcp
    rcases hchild c hc hcp with rfl | rfl
    · exact not_lt.mp (fun hlt => hl ⟨hcs, hlt⟩)
    · exact not_lt.mp (fun hlt => hr ⟨hcs, hlt⟩)

lemma DownOrder.swap {h : MinHeap α} {i j : Nat} (o : DownOrder key h i) (hj : 0 < j)
    (hjs : j < h.size) (hp : parent j = i) (hless : key (h.data j) < key (h.data i))
    (hmin : ∀ c, 0 < c → c < h.size → parent c = i → key (h.data j) ≤ key (h.data c)) :
    DownOrder key (h.swap i j) j := by
  have hij : i < j := by
    rw [← hp]
    exact parent_lt hj
  refine ⟨?_, ?_⟩
  · intro k hk hks hkp
    rw [swap_size] at hks
    have hpk := parent_lt hk
    by_cases hki : k = i
    · subst hki
      rw [swap_data_left, swap_data_of_ne h (by omega) (by omega)]
      exact o.grand hk j hj hjs hp
    by_cases hkj : k = j
    · subst hkj
      rw [hp, swap_data_left, swap_data_right]
      exact hless.le
    rw [swap_data_of_ne h hki hkj]
    by_cases hpi : parent k = i
    · rw [hpi, swap_data_left]
      exact hmin k hk hks hpi
    · rw [swap_data_of_ne h hpi hkp]
      exact o.rest k hk hks hpi
  · intro _ c hc hcs hcp
    rw [swap_size] at hcs
    have hpc := parent_lt hc
    rw [hp, swap_data_left, swap_data_of_ne h (by omega) (by omega), ← hcp]
    exact o.rest c hc hcs (by omega)

lemma heapify_spec (fuel : Nat) (h : MinHeap α) (i : Nat) (hfuel : h.size ≤ fuel + i)
    (hi : i < h.size) (o : DownOrder key h i) :
    Ordered key (heapify key fuel h i) ∧ (heapify key fuel h i).toList.Perm h.toList := by
  induction fuel generalizing h i with
  | zero => omega
  | succ fuel ih =>
    obtain ⟨hcases, hmin⟩ := smallest_cases key h i
    rw [heapify]
    split
    · rename_i hne
      obtain ⟨hpos, hlt, hpar, hless⟩ := hcases.resolve_left hne
      have hij := parent_lt hpos
      obtain ⟨hord, hperm⟩ := ih (h.swap i (smallest key h i)) (smallest key h i)
        (by rw [swap_size]; omega) (by rw [swap_size]; exact hlt)
        (o.swap hpos hlt hpar hless hmin)
      exact ⟨hord, hperm.trans (swap_perm h hi hlt)⟩
    · rename_i heq
      rw [ne_eq, not_not] at heq
      refine ⟨?_, List.Perm.refl _⟩
      intro k hk hks
      by_cases hpk : parent k = i
      · rw [hpk]
        rw [heq] at hmin
        exact hmin k hk hks hpk
      · exact o.rest k hk hks hpk

/-- The order but for the root is repaired. -/
theorem doHeapify_spec {h : MinHeap α}
    (o : ∀ k, 0 < k → k < h.size → parent k ≠ 0 → key (h.data (parent k)) ≤ key (h.data k)) :
    Ordered key (h.doHeapify key) ∧ (h.doHeapify key).toList.Perm h.toList := by
  unfold doHeapify
  by_cases hsize : h.size = 0
  · rw [hsize, heapify]
    refine ⟨?_, List.Perm.refl _⟩
    intro k _ hk
    omega
  · exact heapify_spec h.size h 0 (by omega) (by omega) ⟨o, fun h0 => absurd h0 (by omega)⟩

theorem extractMin_spec {h : MinHeap α} (o : Ordered key h) (hpos : 0 < h.size) :
    Ordered key (h.extractMin key) ∧ (h.data 0 :: (h.extractMin key).toList).Perm h.toList := by
  unfold extractMin
  rw [if_neg (by omega)]
  by_cases hone : h.size = 1
  · rw [if_pos hone]
    refine ⟨?_, ?_⟩
    · intro k _ hk
      exact absurd hk (Nat.not_lt_zero _)
    · simp [toList, hone]
  rw [if_neg hone]
  obtain ⟨n, hn⟩ : ∃ n, h.size = n + 2 := ⟨h.size - 2, by omega⟩
  have hdata : ∀ k, 0 < k → h.lastToRoot.data k = h.data k := by
    intro k hk
    simp [lastToRoot, hk.ne']
  have hdown : ∀ k, 0 < k → k < h.lastToRoot.size → parent k ≠ 0 →
      key (h.lastToRoot.data (parent k)) ≤ key (h.lastToRoot.data k) := by
    intro k hk hks hpk
    have hks' : k < h.size - 1 := hks
    rw [hdata k hk, hdata (parent k) (Nat.pos_of_ne_zero hpk)]
    exact o k hk (by omega)
  obtain ⟨hord, hperm⟩ := doHeapify_spec hdown
  refine ⟨hord, (hperm.cons _).trans ?_⟩
  have hlist : h.lastToRoot.toList =
      h.data (n + 1) :: (List.range n).map (fun k => h.data (k + 1)) := by
    change (List.range (h.size - 1)).map h.lastToRoot.data = _
    rw [hn, show n + 2 - 1 = n + 1 by omega, List.range_succ_eq_map]
    simp [lastToRoot, hn]
  have hold : h.toList =
      h.data 0 :: ((List.range n).map (fun k => h.data (k + 1)) ++ [h.data (n + 1)]) := by
    unfold toList
    rw [hn, List.range_succ_eq_map, List.map_cons, List.range_succ]
    simp
  rw [hlist, hold]
  exact (List.perm_append_singleton _ _).symm.cons _

/-- The root has the smallest key. -/
theorem root_le {h : MinHeap α} (o : Ordered key h) {x : α} (hx : x ∈ h.toList) :
    key (h.data 0) ≤ key x := by
  obtain ⟨k, hk, rfl⟩ := mem_toList.mp hx
  induction k using Nat.strong_induction_on with
  | _ k ih =>
    by_cases hk0 : k = 0
    · rw [hk0]
    · have hp := parent_lt (Nat.pos_of_ne_zero hk0)
      exact (ih (parent k) hp (by omega) (mem_toList.mpr ⟨_, by omega, rfl⟩)).trans
        (o k (Nat.pos_of_ne_zero hk0) hk)

end MinHeap

end VoipMonitor.Library
