import VoipMonitor.Library.Bytes

/-!
# Cutting a byte stream

`cut l i` is the position in the concatenation of `l` at which its `i`-th part begins. Two
ways of cutting the same stream, into messages and into the chunks in which it arrives, are
compared through these positions.
-/

namespace VoipMonitor.Library

def cut (l : List Bytes) (i : Nat) : Nat := (l.take i).flatten.length

@[simp] lemma cut_zero (l : List Bytes) : cut l 0 = 0 := by simp [cut]

lemma cut_length (l : List Bytes) : cut l l.length = l.flatten.length := by simp [cut]

lemma cut_succ {l : List Bytes} {i : Nat} (hi : i < l.length) :
    cut l (i + 1) = cut l i + l[i].length := by
  unfold cut
  rw [List.take_succ_eq_append_getElem hi, List.flatten_append, List.length_append,
    List.flatten_singleton]

lemma cut_le_succ (l : List Bytes) (i : Nat) : cut l i ≤ cut l (i + 1) := by
  by_cases hi : i < l.length
  · rw [cut_succ hi]
    omega
  · unfold cut
    rw [List.take_of_length_le (by omega), List.take_of_length_le (by omega)]

lemma cut_mono (l : List Bytes) {i j : Nat} (h : i ≤ j) : cut l i ≤ cut l j := by
  induction h with
  | refl => exact le_rfl
  | step _ ih => exact ih.trans (cut_le_succ l _)

lemma cut_strictMono {l : List Bytes} (hne : ∀ p ∈ l, p ≠ []) {i j : Nat} (hij : i < j)
    (hj : j ≤ l.length) : cut l i < cut l j := by
  have hi : i < l.length := by omega
  have hpos : 0 < l[i].length := List.length_pos_iff.mpr (hne _ (List.getElem_mem hi))
  calc cut l i < cut l i + l[i].length := by omega
    _ = cut l (i + 1) := (cut_succ hi).symm
    _ ≤ cut l j := cut_mono l hij

lemma cut_le_length (l : List Bytes) (i : Nat) : cut l i ≤ l.flatten.length := by
  rcases Nat.le_total i l.length with h | h
  · rw [← cut_length]
    exact cut_mono l h
  · unfold cut
    rw [List.take_of_length_le h]

lemma drop_cut (l : List Bytes) (i : Nat) : l.flatten.drop (cut l i) = (l.drop i).flatten := by
  have h : l.flatten = (l.take i).flatten ++ (l.drop i).flatten := by
    rw [← List.flatten_append, List.take_append_drop]
  rw [h]
  exact List.drop_left' rfl

lemma slice_cut {l : List Bytes} {i : Nat} (hi : i < l.length) :
    slice l.flatten (cut l i) l[i].length = l[i] := by
  rw [slice, drop_cut, List.drop_eq_getElem_cons hi, List.flatten_cons]
  exact List.take_left' rfl

/-- The bytes of `s` from position `a` to position `b`. -/
def part (s : Bytes) (a b : Nat) : Bytes := slice s a (b - a)

lemma length_part {s : Bytes} {a b : Nat} (hab : a ≤ b) (hb : b ≤ s.length) :
    (part s a b).length = b - a := length_slice (by omega)

lemma part_append {s : Bytes} {a b c : Nat} (hab : a ≤ b) (hbc : b ≤ c) :
    part s a b ++ part s b c = part s a c := by
  have h := slice_append_slice s a (b - a) (c - b)
  rw [show a + (b - a) = b by omega, show b - a + (c - b) = c - a by omega] at h
  exact h

lemma drop_part (s : Bytes) (a b k : Nat) : (part s a b).drop k = part s (a + k) b := by
  rw [part, part, slice, slice, List.drop_take, List.drop_drop, Nat.sub_sub]

@[simp] lemma part_self (s : Bytes) (a : Nat) : part s a a = [] := by simp [part, slice]

lemma part_cut {l : List Bytes} {i : Nat} (hi : i < l.length) :
    part l.flatten (cut l i) (cut l (i + 1)) = l[i] := by
  rw [part, cut_succ hi, Nat.add_sub_cancel_left, slice_cut hi]

end VoipMonitor.Library
