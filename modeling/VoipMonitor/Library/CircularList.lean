import Mathlib.Data.List.Chain
import Mathlib.Data.List.Nodup

/-!
# Circular lists with links both ways

The links are two functions on the nodes. A list of nodes is a ring when every node is linked
with the one behind it and the last one with the first.
-/

namespace VoipMonitor.Library

variable {α : Type} {next prev next' prev' : α → α} {l l₁ l₂ : List α} {x y r : α}

/-- Two nodes that stand one behind the other. -/
def LinkedPair (next prev : α → α) (x y : α) : Prop := next x = y ∧ prev y = x

/-- The nodes of the list, in their order, are a ring. -/
def Circular (next prev : α → α) (l : List α) : Prop :=
  List.IsChain (LinkedPair next prev) (l ++ l.head?.toList)

lemma circular_nil : Circular next prev [] := List.isChain_nil

lemma circular_cons : Circular next prev (x :: l) ↔ List.IsChain (LinkedPair next prev) (x :: (l ++ [x])) :=
  Iff.rfl

lemma circular_singleton : Circular next prev [x] ↔ next x = x ∧ prev x = x := by
  rw [circular_cons, List.nil_append, List.isChain_cons_cons]
  exact and_iff_left (List.isChain_singleton x)

lemma isChain_linkedPair_congr (h : List.IsChain (LinkedPair next prev) l)
    (hnext : ∀ a ∈ l.dropLast, next' a = next a) (hprev : ∀ a ∈ l.tail, prev' a = prev a) :
    List.IsChain (LinkedPair next' prev') l := by
  induction l with
  | nil => exact List.isChain_nil
  | cons a l ih =>
    cases l with
    | nil => exact List.isChain_singleton a
    | cons b l =>
      rw [List.isChain_cons_cons] at h ⊢
      obtain ⟨⟨hab, hba⟩, hrest⟩ := h
      refine ⟨⟨?_, ?_⟩, ih hrest (fun c hc => hnext c ?_) fun c hc => hprev c ?_⟩
      · rw [hnext a (by simp), hab]
      · rw [hprev b (by simp), hba]
      · rw [List.dropLast_cons_cons]
        exact List.mem_cons_of_mem a hc
      · exact List.mem_cons_of_mem b hc

lemma Circular.congr (h : Circular next prev l) (hnext : ∀ a ∈ l, next' a = next a)
    (hprev : ∀ a ∈ l, prev' a = prev a) : Circular next' prev' l := by
  have hmem : ∀ a ∈ l ++ l.head?.toList, a ∈ l := by
    intro a ha
    rcases List.mem_append.mp ha with ha | ha
    · exact ha
    · exact List.mem_of_head? (Option.mem_toList.mp ha)
  exact isChain_linkedPair_congr h (fun a ha => hnext a (hmem a (List.dropLast_subset _ ha)))
    fun a ha => hprev a (hmem a (List.mem_of_mem_tail ha))

lemma Circular.rotate (h : Circular next prev (l₁ ++ l₂)) : Circular next prev (l₂ ++ l₁) := by
  cases l₁ with
  | nil => rwa [List.append_nil]
  | cons x l₁ =>
    cases l₂ with
    | nil => rwa [List.append_nil] at h
    | cons y l₂ =>
      have hsplit : List.IsChain (LinkedPair next prev) ((x :: l₁) ++ y :: (l₂ ++ [x])) := by
        have h' : List.IsChain (LinkedPair next prev) ((x :: l₁) ++ (y :: l₂) ++ [x]) := h
        rwa [List.append_assoc] at h'
      obtain ⟨hfirst, hsecond⟩ := List.isChain_split.mp hsplit
      have hback := List.isChain_split.mpr
        (show List.IsChain (LinkedPair next prev) ((y :: l₂) ++ [x]) ∧
          List.IsChain (LinkedPair next prev) (x :: (l₁ ++ [y])) from ⟨hsecond, hfirst⟩)
      rw [List.cons_append, circular_cons, List.append_assoc, List.cons_append]
      exact hback

lemma Circular.ends (h : Circular next prev (x :: (l ++ [y]))) : LinkedPair next prev y x := by
  rw [circular_cons, List.append_assoc, ← List.cons_append] at h
  exact List.isChain_pair.mp (List.isChain_split.mp h).2

lemma Circular.next_cons (h : Circular next prev (x :: y :: l)) : LinkedPair next prev x y :=
  (List.isChain_cons_cons.mp (circular_cons.mp h)).1

lemma Circular.neighbours_mem (h : Circular next prev l) (hx : x ∈ l) :
    next x ∈ l ∧ prev x ∈ l := by
  obtain ⟨front, back, rfl⟩ := List.append_of_mem hx
  have hperm : (front ++ x :: back).Perm (x :: (back ++ front)) := List.perm_append_comm
  have hmem : ∀ a, a ∈ x :: (back ++ front) → a ∈ front ++ x :: back :=
    fun a ha => hperm.mem_iff.mpr ha
  have hrotated : Circular next prev (x :: (back ++ front)) := h.rotate
  generalize back ++ front = rest at hrotated hmem
  rcases List.eq_nil_or_concat rest with rfl | ⟨inner, z, rfl⟩
  · obtain ⟨hnext, hprev⟩ := circular_singleton.mp hrotated
    rw [hnext, hprev]
    exact ⟨hx, hx⟩
  · rw [List.concat_eq_append] at hrotated hmem
    constructor
    · obtain ⟨y, rest, hy⟩ := List.exists_cons_of_ne_nil (List.concat_ne_nil z inner)
      rw [hy] at hrotated hmem
      rw [hrotated.next_cons.1]
      exact hmem y (by simp)
    · rw [hrotated.ends.2]
      exact hmem z (by simp)

lemma Circular.remove (h : Circular next prev (x :: l)) (hnodup : (x :: l).Nodup)
    (hlast : next' (prev x) = next x) (hnext : ∀ a ∈ l, a ≠ prev x → next' a = next a)
    (hfirst : prev' (next x) = prev x) (hprev : ∀ a ∈ l, a ≠ next x → prev' a = prev a) :
    Circular next' prev' l := by
  cases l with
  | nil => exact circular_nil
  | cons y l =>
    obtain ⟨front, z, hsplit⟩ := List.eq_nil_or_concat (y :: l) |>.resolve_left (by simp)
    rw [List.concat_eq_append] at hsplit
    have hxy := h.next_cons
    have hzx : LinkedPair next prev z x := by
      rw [hsplit] at h
      exact h.ends
    have hnodup' := (List.nodup_cons.mp hnodup).2
    have hchain : List.IsChain (LinkedPair next prev) (y :: l) := by
      have htail := (List.isChain_cons_cons.mp (circular_cons.mp h)).2
      exact htail.left_of_append
    have hinner : List.IsChain (LinkedPair next' prev') (y :: l) := by
      refine isChain_linkedPair_congr hchain (fun a ha => ?_) fun a ha => ?_
      · have hne : a ≠ prev x := by
          rintro rfl
          rw [hzx.2, hsplit, List.dropLast_concat] at ha
          rw [hsplit] at hnodup'
          exact (List.nodup_append.mp hnodup').2.2 z ha z (by simp) rfl
        exact hnext a (List.dropLast_subset _ ha) hne
      · have hne : a ≠ next x := by
          rintro rfl
          rw [hxy.1] at ha
          exact (List.nodup_cons.mp hnodup').1 ha
        exact hprev a (List.mem_of_mem_tail ha) hne
    have hclose : LinkedPair next' prev' z y := by
      constructor
      · rw [← hzx.2, hlast, hxy.1]
      · rw [← hxy.1, hfirst, hzx.2]
    rw [circular_cons, ← List.cons_append, hsplit, List.append_assoc]
    rw [hsplit] at hinner
    exact List.isChain_split.mpr ⟨hinner, List.isChain_pair.mpr hclose⟩

lemma Circular.insert (h : Circular next prev (r :: l)) (hnodup : (r :: l).Nodup)
    (hr : next' r = x) (hprevx : prev' x = r) (hnextx : next' x = next r)
    (hnext : ∀ a ∈ l, next' a = next a) (hback : prev' (next r) = x)
    (hprev : ∀ a ∈ r :: l, a ≠ next r → prev' a = prev a) :
    Circular next' prev' (r :: x :: l) := by
  obtain ⟨y, rest, hsplit⟩ : ∃ y rest, l ++ [r] = y :: rest :=
    List.exists_cons_of_ne_nil (by simp)
  have hmem : ∀ a ∈ y :: rest, a ∈ r :: l := by
    intro a ha
    rw [← hsplit] at ha
    rcases List.mem_append.mp ha with ha | ha
    · exact List.mem_cons_of_mem r ha
    · exact List.mem_singleton.mp ha ▸ List.mem_cons_self
  rw [circular_cons, hsplit, List.isChain_cons_cons] at h
  obtain ⟨hry, hchain⟩ := h
  have hnodup' : (y :: rest).Nodup := by
    rw [← hsplit]
    exact (List.perm_append_singleton r l).nodup_iff.mpr hnodup
  have hinner : List.IsChain (LinkedPair next' prev') (y :: rest) := by
    refine isChain_linkedPair_congr hchain (fun a ha => ?_) fun a ha => ?_
    · rw [← hsplit, List.dropLast_concat] at ha
      exact hnext a ha
    · have hne : a ≠ next r := by
        rintro rfl
        rw [hry.1] at ha
        exact (List.nodup_cons.mp hnodup').1 ha
      exact hprev a (hmem a (List.mem_cons_of_mem y ha)) hne
  rw [circular_cons, List.cons_append, hsplit, List.isChain_cons_cons, List.isChain_cons_cons]
  refine ⟨⟨hr, hprevx⟩, ⟨hnextx.trans hry.1, ?_⟩, hinner⟩
  rw [← hry.1, hback]

end VoipMonitor.Library
