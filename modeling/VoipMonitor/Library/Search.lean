import VoipMonitor.Library.Bytes

/-!
# Searching a byte string

`memmem` finds the first place at which a string occurs. A string no proper suffix of which is
also a prefix (an unbordered one) cannot begin before the place where it is appended to a text
that does not contain it.
-/

namespace VoipMonitor.Library

def OccursAt (needle hay : Bytes) (i : Nat) : Prop := needle <+: hay.drop i

instance (needle hay : Bytes) (i : Nat) : Decidable (OccursAt needle hay i) :=
  inferInstanceAs (Decidable (needle <+: hay.drop i))

def memmem (hay needle : Bytes) : Option Nat :=
  (List.range (hay.length + 1)).find? (fun i => decide (OccursAt needle hay i))

lemma OccursAt.add_length_le {needle hay : Bytes} {i : Nat} (h : OccursAt needle hay i)
    (hne : needle ≠ []) : i + needle.length ≤ hay.length := by
  have hle : needle.length ≤ hay.length - i := by
    have h' := h.length_le
    rwa [List.length_drop] at h'
  have hpos : 0 < needle.length := List.length_pos_iff.mpr hne
  omega

lemma OccursAt.slice_eq {needle hay : Bytes} {i : Nat} (h : OccursAt needle hay i) :
    slice hay i needle.length = needle := by
  obtain ⟨t, ht⟩ := h
  rw [slice, ← ht]
  exact List.take_left' rfl

lemma OccursAt.getElem?_add {needle hay : Bytes} {i k : Nat} {c : UInt8} (h : OccursAt needle hay i)
    (hk : needle[k]? = some c) : hay[i + k]? = some c := by
  obtain ⟨t, ht⟩ := h
  obtain ⟨hlt, -⟩ := List.getElem?_eq_some_iff.mp hk
  rw [← List.getElem?_drop, ← ht, List.getElem?_append_left hlt, hk]

lemma occursAt_iff_slice {needle hay : Bytes} {i : Nat} :
    OccursAt needle hay i ↔ slice hay i needle.length = needle := by
  constructor
  · exact fun h => h.slice_eq
  · intro h
    rw [OccursAt, ← h]
    exact List.take_prefix _ _

lemma memmem_eq_some {needle hay : Bytes} {i : Nat} (hne : needle ≠ []) :
    memmem hay needle = some i ↔
      OccursAt needle hay i ∧ ∀ j < i, ¬OccursAt needle hay j := by
  unfold memmem
  constructor
  · intro h
    rw [List.find?_range_eq_some] at h
    refine ⟨of_decide_eq_true h.1, ?_⟩
    intro j hj hocc
    have := h.2.2 j hj
    simp [hocc] at this
  · intro h
    rw [List.find?_range_eq_some]
    refine ⟨decide_eq_true h.1, ?_, ?_⟩
    · have := h.1.add_length_le hne
      exact List.mem_range.mpr (by omega)
    · intro j hj
      simp [h.2 j hj]

lemma memmem_eq_none {needle hay : Bytes} (hne : needle ≠ []) :
    memmem hay needle = none ↔ ∀ i, ¬OccursAt needle hay i := by
  unfold memmem
  rw [List.find?_eq_none]
  constructor
  · intro h i hocc
    have hlt := hocc.add_length_le hne
    refine h i (List.mem_range.mpr (by omega)) (decide_eq_true hocc)
  · intro h i _ hocc
    exact h i (of_decide_eq_true hocc)

lemma occursAt_slice {needle s : Bytes} {o n i : Nat} (h : OccursAt needle (slice s o n) i) :
    OccursAt needle s (o + i) := by
  refine h.trans ?_
  rw [slice, List.drop_take, List.drop_drop]
  exact List.take_prefix _ _

lemma OccursAt.to_slice {needle s : Bytes} {o n i : Nat} (h : OccursAt needle s (o + i))
    (hle : i + needle.length ≤ n) : OccursAt needle (slice s o n) i := by
  rw [occursAt_iff_slice] at h ⊢
  unfold slice at h ⊢
  rw [List.drop_take, List.take_take, List.drop_drop, Nat.min_eq_left (by omega)]
  exact h

/-- No proper suffix of the string is a prefix of it. -/
def Unbordered (needle : Bytes) : Prop :=
  ∀ k < needle.length, 0 < k → needle.drop k ≠ needle.take (needle.length - k)

instance (needle : Bytes) : Decidable (Unbordered needle) :=
  inferInstanceAs (Decidable (∀ k < needle.length, 0 < k →
    needle.drop k ≠ needle.take (needle.length - k)))

lemma first_occurrence {needle text rest : Bytes} (hub : Unbordered needle)
    (hno : ∀ i, ¬OccursAt needle text i) :
    OccursAt needle (text ++ (needle ++ rest)) text.length ∧
      ∀ j < text.length, ¬OccursAt needle (text ++ (needle ++ rest)) j := by
  refine ⟨?_, ?_⟩
  · rw [OccursAt, List.drop_left]
    exact List.prefix_append _ _
  · intro j hj hocc
    by_cases hin : j + needle.length ≤ text.length
    · refine hno j ?_
      rw [occursAt_iff_slice] at hocc ⊢
      unfold slice at hocc ⊢
      rw [List.drop_append_of_le_length (by omega), List.take_append_of_le_length] at hocc
      · exact hocc
      · rw [List.length_drop]
        omega
    · have hk : 0 < text.length - j := by omega
      refine hub (text.length - j) (by omega) hk ?_
      have hslice := hocc.slice_eq
      unfold slice at hslice
      rw [List.drop_append_of_le_length (by omega)] at hslice
      calc needle.drop (text.length - j)
          = ((text.drop j ++ (needle ++ rest)).take needle.length).drop (text.length - j) := by
            rw [hslice]
        _ = (needle ++ rest).take (needle.length - (text.length - j)) := by
            rw [List.drop_take, List.drop_left' List.length_drop]
        _ = needle.take (needle.length - (text.length - j)) :=
            List.take_append_of_le_length (by omega)

end VoipMonitor.Library
