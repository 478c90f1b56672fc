import VoipMonitor.Library.Text

/-!
# Lines of a text

A text of lines that are parted by CR LF. A blank line is the first place with two line ends, and
a search for a line feed and a name finds the first line that begins with the name.
-/

namespace VoipMonitor.Library

def joinLines (first : Bytes) (lines : List Bytes) : Bytes :=
  first ++ lines.flatMap (fun l => 13 :: 10 :: l)

lemma joinLines_nil (first : Bytes) : joinLines first [] = first := List.append_nil first

lemma joinLines_cons (first l : Bytes) (lines : List Bytes) :
    joinLines first (l :: lines) = first ++ 13 :: 10 :: joinLines l lines := by
  simp [joinLines]

lemma memmem_append {needle a b : Bytes} (hne : needle ≠ [])
    (hno : ∀ j < a.length, ¬OccursAt needle (a ++ b) j) :
    memmem (a ++ b) needle = (memmem b needle).map (fun i => a.length + i) := by
  have hshift : ∀ i, OccursAt needle (a ++ b) (a.length + i) ↔ OccursAt needle b i := by
    intro i
    rw [OccursAt, OccursAt, List.drop_append, List.drop_of_length_le (by omega), List.nil_append,
      Nat.add_sub_cancel_left]
  cases hb : memmem b needle with
  | none =>
    rw [Option.map_none]
    rw [memmem_eq_none hne] at hb ⊢
    intro i hocc
    by_cases hi : i < a.length
    · exact hno i hi hocc
    · refine hb (i - a.length) ((hshift _).mp ?_)
      rwa [Nat.add_sub_cancel' (by omega)]
  | some p =>
    rw [Option.map_some]
    rw [memmem_eq_some hne] at hb ⊢
    refine ⟨(hshift p).mpr hb.1, ?_⟩
    intro j hj hocc
    by_cases hlt : j < a.length
    · exact hno j hlt hocc
    · refine hb.2 (j - a.length) (by omega) ((hshift _).mp ?_)
      rwa [Nat.add_sub_cancel' (by omega)]

lemma memmem_take {needle hay : Bytes} {i n : Nat} (hne : needle ≠ [])
    (h : memmem hay needle = some i) (hn : i + needle.length ≤ n) :
    memmem (hay.take n) needle = some i := by
  rw [memmem_eq_some hne] at h ⊢
  have htake : slice hay 0 n = hay.take n := rfl
  refine ⟨?_, ?_⟩
  · have hocc : OccursAt needle hay (0 + i) := by
      rw [Nat.zero_add]
      exact h.1
    rw [← htake]
    exact hocc.to_slice hn
  · intro j hj hocc
    rw [← htake] at hocc
    have hocc' := occursAt_slice hocc
    rw [Nat.zero_add] at hocc'
    exact h.2 j hj hocc'

lemma OccursAt.getElem? {needle hay : Bytes} {i k : Nat} (h : OccursAt needle hay i)
    (hk : k < needle.length) : hay[i + k]? = needle[k]? := by
  obtain ⟨t, ht⟩ := h
  rw [← List.getElem?_drop, ← ht, List.getElem?_append_left hk]

lemma getElem?_line_eq_lf {line rest : Bytes} (hline : 10 ∉ line) {i : Nat}
    (hi : i ≤ line.length + 1) (h : (line ++ 13 :: 10 :: rest)[i]? = some 10) :
    i = line.length + 1 := by
  by_contra hne
  by_cases hlt : i < line.length
  · rw [List.getElem?_append_left hlt] at h
    exact hline (List.mem_of_getElem? h)
  · have heq : i = line.length := by omega
    rw [heq, List.getElem?_append_right le_rfl, Nat.sub_self] at h
    simp at h

lemma getElem?_line_lf (line rest : Bytes) :
    (line ++ 13 :: 10 :: rest)[line.length + 1]? = some 10 := by
  rw [List.getElem?_append_right (by omega), Nat.add_sub_cancel_left]
  rfl

lemma drop_line (line rest : Bytes) : (line ++ 13 :: 10 :: rest).drop (line.length + 2) = rest := by
  rw [List.drop_append, List.drop_of_length_le (by omega), Nat.add_sub_cancel_left]
  rfl

/-- A text that can occur before the end of a line at one place only, by what is behind the line. -/
lemma memmem_line {line rest needle : Bytes} (hne : needle ≠ []) {C : Prop} [Decidable C] {p : Nat}
    (hearly : ∀ j < line.length + 2, OccursAt needle (line ++ 13 :: 10 :: rest) j → j = p ∧ C)
    (hp : p < line.length + 2) (hocc : C → OccursAt needle (line ++ 13 :: 10 :: rest) p) :
    memmem (line ++ 13 :: 10 :: rest) needle =
      if C then some p else (memmem rest needle).map (fun i => line.length + 2 + i) := by
  split
  · rename_i hname
    rw [memmem_eq_some hne]
    refine ⟨hocc hname, ?_⟩
    intro j hj hocc
    exact hj.ne (hearly j (by omega) hocc).1
  · rename_i hname
    have hsplit : line ++ 13 :: 10 :: rest = (line ++ [13, 10]) ++ rest := by simp
    have hlen : (line ++ [13, 10]).length = line.length + 2 := by simp
    rw [hsplit, memmem_append hne, hlen]
    intro j hj hocc
    rw [← hsplit] at hocc
    exact hname (hearly j (by omega) hocc).2

lemma memmem_lf_line {line rest name : Bytes} (hline : 10 ∉ line) :
    memmem (line ++ 13 :: 10 :: rest) (10 :: name) =
      if name <+: rest then some (line.length + 1)
      else (memmem rest (10 :: name)).map (fun i => line.length + 2 + i) := by
  refine memmem_line (List.cons_ne_nil _ _) ?_ (by omega) ?_
  · intro j hj hocc
    have hlf : (line ++ 13 :: 10 :: rest)[j + 0]? = some 10 := hocc.getElem? (by simp)
    have heq : j = line.length + 1 := getElem?_line_eq_lf hline (by omega) hlf
    refine ⟨heq, ?_⟩
    obtain ⟨t, ht⟩ := hocc
    refine ⟨t, ?_⟩
    have hdrop : (line ++ 13 :: 10 :: rest).drop (j + 1) = rest := by
      rw [heq]
      exact drop_line line rest
    rw [← hdrop, ← List.drop_drop, ← ht]
    rfl
  · intro hname
    rw [OccursAt, List.drop_append, List.drop_of_length_le (by omega), Nat.add_sub_cancel_left]
    exact List.cons_prefix_cons.mpr ⟨rfl, hname⟩

lemma memmem_blank_line {line rest : Bytes} (hline : 10 ∉ line) :
    memmem (line ++ 13 :: 10 :: rest) [13, 10, 13, 10] =
      if [13, 10] <+: rest then some line.length
      else (memmem rest [13, 10, 13, 10]).map (fun i => line.length + 2 + i) := by
  refine memmem_line (List.cons_ne_nil _ _) ?_ (by omega) ?_
  · intro j hj hocc
    have hcr : (line ++ 13 :: 10 :: rest)[j + 0]? = some 13 := hocc.getElem? (by simp)
    have hlf : (line ++ 13 :: 10 :: rest)[j + 1]? = some 10 := hocc.getElem? (by simp)
    have hne : j ≠ line.length + 1 := by
      intro h
      rw [Nat.add_zero, h, getElem?_line_lf] at hcr
      simp at hcr
    have heq : j + 1 = line.length + 1 := getElem?_line_eq_lf hline (by omega) hlf
    refine ⟨by omega, ?_⟩
    obtain ⟨t, ht⟩ := hocc
    refine ⟨t, ?_⟩
    have hdrop : (line ++ 13 :: 10 :: rest).drop (j + 2) = rest := by
      rw [show j + 2 = line.length + 2 by omega]
      exact drop_line line rest
    rw [← hdrop, ← List.drop_drop, ← ht]
    rfl
  · intro hblank
    rw [OccursAt, List.drop_left]
    exact List.cons_prefix_cons.mpr ⟨rfl, List.cons_prefix_cons.mpr ⟨rfl, hblank⟩⟩

lemma not_lineEnd_prefix {line rest : Bytes} (hne : line ≠ []) (hline : 10 ∉ line) :
    ¬[13, 10] <+: line ++ 13 :: rest := by
  intro h
  match line, hne, hline with
  | [c], _, _ => simp at h
  | c :: d :: line, _, hline =>
    rw [List.cons_append, List.cons_append, List.cons_prefix_cons, List.cons_prefix_cons] at h
    exact hline (by rw [← h.2.1]; simp)

lemma memmem_joinLines {first : Bytes} {lines : List Bytes} (hfirst : 10 ∉ first)
    (hlines : ∀ l ∈ lines, l ≠ [] ∧ 10 ∉ l) (rest : Bytes) :
    memmem (joinLines first lines ++ 13 :: 10 :: 13 :: 10 :: rest) [13, 10, 13, 10] =
      some (joinLines first lines).length := by
  induction lines generalizing first with
  | nil =>
    rw [joinLines_nil, memmem_blank_line hfirst, if_pos ⟨rest, rfl⟩]
  | cons l lines ih =>
    have hl := hlines l List.mem_cons_self
    have hnext : ∃ tail, joinLines l lines ++ 13 :: 10 :: 13 :: 10 :: rest = l ++ 13 :: tail := by
      cases lines with
      | nil => exact ⟨10 :: 13 :: 10 :: rest, by rw [joinLines_nil]⟩
      | cons l' lines => exact ⟨_, by rw [joinLines_cons, List.append_assoc]; rfl⟩
    obtain ⟨tail, htail⟩ := hnext
    rw [joinLines_cons, List.append_assoc, List.cons_append, List.cons_append,
      memmem_blank_line hfirst, if_neg (by rw [htail]; exact not_lineEnd_prefix hl.1 hl.2),
      ih hl.2 (fun l' h' => hlines l' (List.mem_cons_of_mem _ h')), Option.map_some,
      List.length_append, List.length_cons, List.length_cons]
    congr 1
    omega

lemma memmem_lf_none {line name : Bytes} (hline : 10 ∉ line) :
    memmem line (10 :: name) = none := by
  rw [memmem_eq_none (List.cons_ne_nil _ _)]
  intro i hocc
  have hlf := hocc.getElem? (Nat.zero_lt_succ name.length)
  exact hline (List.mem_of_getElem? hlf)

lemma isPrefix_append_cr {name line rest : Bytes} (hname : 13 ∉ name) :
    name <+: line ++ 13 :: rest ↔ name <+: line := by
  constructor
  · intro h
    by_cases hle : name.length ≤ line.length
    · exact List.prefix_of_prefix_length_le h (List.prefix_append _ _) hle
    · have hcr : line ++ [13] <+: name :=
        List.prefix_of_prefix_length_le ⟨rest, by simp⟩ h (by simp; omega)
      exact absurd (hcr.subset (by simp)) hname
  · intro h
    exact h.trans (List.prefix_append _ _)

lemma memmem_lf_joinLines (first : Bytes) (lines : List Bytes) {name : Bytes} (hname : 13 ∉ name)
    (hfirst : 10 ∉ first) (hlines : ∀ l ∈ lines, 10 ∉ l) :
    ((∀ l ∈ lines, ¬name <+: l) ∧ memmem (joinLines first lines) (10 :: name) = none) ∨
      ∃ before line after, lines = before ++ line :: after ∧ (∀ l ∈ before, ¬name <+: l) ∧
        name <+: line ∧
        memmem (joinLines first lines) (10 :: name) =
          some ((joinLines first before).length + 1) := by
  induction lines generalizing first with
  | nil => exact .inl ⟨by simp, by rw [joinLines_nil, memmem_lf_none hfirst]⟩
  | cons l lines ih =>
    have hl : 10 ∉ l := hlines l List.mem_cons_self
    have hpre : name <+: joinLines l lines ↔ name <+: l := by
      cases lines with
      | nil => rw [joinLines_nil]
      | cons l' lines => rw [joinLines_cons, isPrefix_append_cr hname]
    rw [joinLines_cons, memmem_lf_line hfirst]
    by_cases hhere : name <+: l
    · refine .inr ⟨[], l, lines, rfl, by simp, hhere, ?_⟩
      rw [if_pos (hpre.mpr hhere), joinLines_nil]
    · rw [if_neg (fun h => hhere (hpre.mp h))]
      rcases ih l hl (fun l' h' => hlines l' (List.mem_cons_of_mem _ h')) with ⟨hnone, hmem⟩ |
        ⟨before, line, after, hsplit, hbefore, hline, hmem⟩
      · exact .inl ⟨List.forall_mem_cons.mpr ⟨hhere, hnone⟩, by rw [hmem, Option.map_none]⟩
      · refine .inr ⟨l :: before, line, after, by rw [hsplit, List.cons_append],
          List.forall_mem_cons.mpr ⟨hhere, hbefore⟩, hline, ?_⟩
        rw [hmem, Option.map_some, joinLines_cons, List.length_append, List.length_cons,
          List.length_cons]
        congr 1
        omega

end VoipMonitor.Library
