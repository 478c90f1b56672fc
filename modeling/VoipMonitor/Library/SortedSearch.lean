import Mathlib.Data.List.Sort
import Mathlib.Data.List.TakeDrop

/-!
# Binary search, and lists that are sorted when they are first searched

`lowerBound` is `std::lower_bound` with the steps of the standard library, so that it has a
value on lists that are not sorted too. A `LazySorted` list is sorted behind a flag; whoever adds
to it later has to keep it sorted.
-/

namespace VoipMonitor.Library

variable {α : Type}

/-- The loop of `std::lower_bound` over `len` elements from `first` on. `fuel` is a bound on the
number of rounds. -/
def lowerBoundLoop (below : α → Bool) (l : List α) : Nat → Nat → Nat → Nat
  | 0, first, _ => first
  | fuel + 1, first, len =>
    if len = 0 then first
    else
      let half := len / 2
      if (l[first + half]?).any below then
        lowerBoundLoop below l fuel (first + half + 1) (len - half - 1)
      else lowerBoundLoop below l fuel first half

def lowerBound (below : α → Bool) (l : List α) : Nat := lowerBoundLoop below l l.length 0 l.length

/-- The elements below come first. -/
def Partitioned (below : α → Bool) (l : List α) : Prop :=
  l.Pairwise (fun x y => below y = true → below x = true)

section LowerBound
variable {below : α → Bool} {l before after : List α}

lemma Partitioned.split (h : Partitioned below l) :
    ∃ before after, l = before ++ after ∧ (∀ x ∈ before, below x = true) ∧
      ∀ x ∈ after, below x = false := by
  induction l with
  | nil => exact ⟨[], [], rfl, nofun, nofun⟩
  | cons x l ih =>
    obtain ⟨hx, hl⟩ := List.pairwise_cons.mp h
    cases hb : below x with
    | true =>
      obtain ⟨before, after, rfl, hbefore, hafter⟩ := ih hl
      exact ⟨x :: before, after, rfl, List.forall_mem_cons.mpr ⟨hb, hbefore⟩, hafter⟩
    | false =>
      refine ⟨[], x :: l, rfl, nofun, List.forall_mem_cons.mpr ⟨hb, ?_⟩⟩
      intro y hy
      cases hy' : below y with
      | false => rfl
      | true => exact (hx y hy hy').symm.trans hb

lemma any_getElem? (hbefore : ∀ x ∈ before, below x = true) (hafter : ∀ x ∈ after, below x = false)
    {i : Nat} (hi : i < before.length + after.length) :
    ((before ++ after)[i]?).any below = true ↔ i < before.length := by
  by_cases hlt : i < before.length
  · rw [List.getElem?_append_left hlt, List.getElem?_eq_getElem hlt]
    simp [hlt, hbefore]
  · have hle : before.length ≤ i := Nat.not_lt.mp hlt
    have hlt' : i - before.length < after.length := by omega
    rw [List.getElem?_append_right hle, List.getElem?_eq_getElem hlt']
    simp [hlt, hafter]

lemma lowerBoundLoop_eq (hbefore : ∀ x ∈ before, below x = true)
    (hafter : ∀ x ∈ after, below x = false) {fuel first len : Nat} (hfuel : len ≤ fuel)
    (hfirst : first ≤ before.length) (hlast : before.length ≤ first + len)
    (hlen : first + len ≤ before.length + after.length) :
    lowerBoundLoop below (before ++ after) fuel first len = before.length := by
  induction fuel generalizing first len with
  | zero =>
    rw [lowerBoundLoop]
    omega
  | succ fuel ih =>
    rw [lowerBoundLoop]
    split
    · omega
    rename_i hne
    dsimp only
    have hmiddle := any_getElem? hbefore hafter (i := first + len / 2) (by omega)
    split
    · rename_i hany
      have := hmiddle.mp hany
      exact ih (by omega) (by omega) (by omega) (by omega)
    · rename_i hany
      have := mt hmiddle.mpr hany
      exact ih (by omega) (by omega) (by omega) (by omega)

lemma lowerBound_append (hbefore : ∀ x ∈ before, below x = true)
    (hafter : ∀ x ∈ after, below x = false) :
    lowerBound below (before ++ after) = before.length := by
  rw [lowerBound, List.length_append]
  exact lowerBoundLoop_eq hbefore hafter (Nat.le_refl _) (Nat.zero_le _) (by omega) (by omega)

end LowerBound

section Sorting
variable {κ : Type} [LinearOrder κ] (key : α → κ)

def SortedBy (l : List α) : Prop := l.Pairwise (fun x y => key x ≤ key y)

/-- A sorting function such as `std::sort`: nothing is said about elements with the same key. -/
structure Sorter where
  sort : List α → List α
  perm : ∀ l, (sort l).Perm l
  sorted : ∀ l, SortedBy key (sort l)

def Sorter.insertion : Sorter key where
  sort := List.insertionSort (fun x y => key x ≤ key y)
  perm := List.perm_insertionSort _
  sorted := by
    have : Std.Total (fun x y => key x ≤ key y) := ⟨fun x y => le_total (key x) (key y)⟩
    have : IsTrans α (fun x y => key x ≤ key y) := ⟨fun _ _ _ => le_trans⟩
    exact List.pairwise_insertionSort _

variable {key}

lemma SortedBy.lowerBound {l : List α} (h : SortedBy key l) (k : κ) {below : α → Bool}
    (hbelow : ∀ x, below x = true ↔ key x < k) :
    ∃ before after, l = before ++ after ∧ lowerBound below l = before.length ∧
      (∀ x ∈ before, key x < k) ∧ ∀ x ∈ after, k ≤ key x := by
  have hpart : Partitioned below l := by
    apply List.Pairwise.imp _ h
    intro x y hxy hy
    exact (hbelow x).mpr (lt_of_le_of_lt hxy ((hbelow y).mp hy))
  obtain ⟨before, after, rfl, hbefore, hafter⟩ := hpart.split
  refine ⟨before, after, rfl, lowerBound_append hbefore hafter, ?_, ?_⟩
  · exact fun x hx => (hbelow x).mp (hbefore x hx)
  · intro x hx
    rw [← not_lt, ← hbelow, hafter x hx]
    exact Bool.false_ne_true

lemma SortedBy.lowerBound_eq_countP {l : List α} (h : SortedBy key l) (k : κ) {below : α → Bool}
    (hbelow : ∀ x, below x = true ↔ key x < k) : Library.lowerBound below l = l.countP below := by
  obtain ⟨before, after, rfl, hbound, hbefore, hafter⟩ := h.lowerBound k hbelow
  have hnone : after.countP below = 0 := List.countP_eq_zero.mpr fun x hx hx' =>
    absurd ((hbelow x).mp hx') (not_lt.mpr (hafter x hx))
  rw [hbound, List.countP_append, hnone,
    List.countP_eq_length.mpr fun x hx => (hbelow x).mpr (hbefore x hx), Nat.add_zero]

/-- A list that is sorted when it is first searched. -/
structure LazySorted (α : Type) where
  items : List α := []
  sorted : Bool := false

namespace LazySorted

def push (x : LazySorted α) (a : α) : LazySorted α := { x with items := x.items ++ [a] }

/-- The flag is not reset. -/
def clear (x : LazySorted α) : LazySorted α := { x with items := [] }

def prepare (sort : List α → List α) (x : LazySorted α) : LazySorted α :=
  if x.items.isEmpty then x
  else if x.sorted then x
  else { items := sort x.items, sorted := true }

/-- A new element does not break the order of a list that counts as sorted. -/
def Fits (key : α → κ) (x : LazySorted α) (a : α) : Prop :=
  x.sorted = true → ∀ b ∈ x.items, key b ≤ key a

def Honest (key : α → κ) (x : LazySorted α) : Prop := x.sorted = true → SortedBy key x.items

variable {x y : LazySorted α} {a : α}

lemma Honest.push (h : x.Honest key) (hfits : x.Fits key a) : (x.push a).Honest key := by
  intro hs
  refine List.pairwise_append.mpr ⟨h hs, List.pairwise_singleton _ _, ?_⟩
  intro b hb c hc
  obtain rfl := List.mem_singleton.mp hc
  exact hfits hs b hb

lemma Honest.clear : x.clear.Honest key := fun _ => List.Pairwise.nil

lemma perm_prepare (s : Sorter key) (x : LazySorted α) :
    (x.prepare s.sort).items.Perm x.items := by
  unfold prepare
  split
  · rfl
  · split
    · rfl
    · exact s.perm _

lemma Honest.prepare (h : x.Honest key) (s : Sorter key) : (x.prepare s.sort).Honest key := by
  unfold LazySorted.prepare
  split
  · exact h
  · split
    · exact h
    · exact fun _ => s.sorted _

lemma Honest.sorted_prepare (h : x.Honest key) (s : Sorter key) :
    SortedBy key (x.prepare s.sort).items := by
  unfold LazySorted.prepare
  split
  · rename_i hempty
    rw [List.isEmpty_iff.mp hempty]
    exact List.Pairwise.nil
  · split
    · rename_i hs
      exact h hs
    · exact s.sorted _

/-- Two lists of the same elements, the second of which was not searched more often. -/
structure Follows (key : α → κ) (x y : LazySorted α) : Prop where
  perm : x.items.Perm y.items
  sorted : y.sorted = true → x.sorted = true
  left : x.Honest key
  right : y.Honest key

lemma Follows.refl_empty : Follows key ({} : LazySorted α) {} :=
  ⟨List.Perm.nil, fun h => h, nofun, nofun⟩

lemma Follows.push (h : Follows key x y) (hfits : x.Fits key a) :
    Follows key (x.push a) (y.push a) := by
  refine ⟨h.perm.append_right _, h.sorted, h.left.push hfits, h.right.push ?_⟩
  intro hs b hb
  exact hfits (h.sorted hs) b (h.perm.mem_iff.mpr hb)

lemma Follows.clear (h : Follows key x y) : Follows key x.clear y.clear :=
  ⟨List.Perm.nil, h.sorted, Honest.clear, Honest.clear⟩

lemma Follows.prepare_left (h : Follows key x y) (s : Sorter key) :
    Follows key (x.prepare s.sort) y := by
  refine ⟨(perm_prepare s x).trans h.perm, ?_, h.left.prepare s, h.right⟩
  intro hs
  unfold LazySorted.prepare
  split
  · exact h.sorted hs
  · split
    · exact h.sorted hs
    · rfl

lemma Follows.prepare (h : Follows key x y) (s : Sorter key) :
    Follows key (x.prepare s.sort) (y.prepare s.sort) := by
  refine ⟨((perm_prepare s x).trans h.perm).trans (perm_prepare s y).symm, ?_, h.left.prepare s,
    h.right.prepare s⟩
  unfold LazySorted.prepare
  rw [h.perm.isEmpty_eq]
  split
  · exact h.sorted
  · intro _
    split
    · assumption
    · rfl

end LazySorted

end Sorting

end VoipMonitor.Library
