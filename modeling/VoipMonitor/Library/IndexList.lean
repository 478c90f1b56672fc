import Mathlib.Data.List.Nodup
import Mathlib.Logic.Function.Basic
import Mathlib.Tactic

/-!
# Linked lists in an array

A list of places of an array: `next` is the link of each place and a head is the place where the
list begins. Several lists share one array as long as their places differ.
-/

namespace VoipMonitor.Library

/-- Following the links from `head` one passes through `l` and comes to `last`. -/
def LinkedTo (next : Nat → Option Nat) (head : Option Nat) : List Nat → Option Nat → Prop
  | [], last => head = last
  | i :: l, last => head = some i ∧ LinkedTo next (next i) l last

/-- `l` is the whole list that begins at `head`. -/
def Linked (next : Nat → Option Nat) (head : Option Nat) (l : List Nat) : Prop :=
  LinkedTo next head l none

variable {next next' : Nat → Option Nat} {head last : Option Nat} {l l' : List Nat}

lemma linkedTo_append :
    LinkedTo next head (l ++ l') last ↔
      ∃ m, LinkedTo next head l m ∧ LinkedTo next m l' last := by
  induction l generalizing head with
  | nil => simp [LinkedTo]
  | cons i l ih => simp [LinkedTo, ih, and_assoc]

lemma LinkedTo.congr (h : LinkedTo next head l last) (heq : ∀ i ∈ l, next' i = next i) :
    LinkedTo next' head l last := by
  induction l generalizing head with
  | nil => exact h
  | cons i l ih =>
    refine ⟨h.1, ?_⟩
    rw [heq i List.mem_cons_self]
    exact ih h.2 (fun j hj => heq j (List.mem_cons_of_mem _ hj))

lemma Linked.congr (h : Linked next head l) (heq : ∀ i ∈ l, next' i = next i) :
    Linked next' head l := LinkedTo.congr h heq

lemma Linked.push (h : Linked next head l) {i : Nat} (hi : i ∉ l) :
    Linked (Function.update next i head) (some i) (i :: l) := by
  refine ⟨rfl, ?_⟩
  rw [Function.update_self]
  refine Linked.congr h ?_
  intro j hj
  refine Function.update_of_ne ?_ _ _
  rintro rfl
  exact hi hj

lemma Linked.eq_nil_iff (h : Linked next head l) : head = none ↔ l = [] := by
  cases l with
  | nil => exact iff_of_true h rfl
  | cons i l => exact iff_of_false (by rw [h.1]; simp) (by simp)

/-- The places from `head` on, at most `fuel` of them. -/
def walk (next : Nat → Option Nat) : Nat → Option Nat → List Nat
  | 0, _ => []
  | _ + 1, none => []
  | fuel + 1, some i => i :: walk next fuel (next i)

lemma Linked.walk_eq (h : Linked next head l) {fuel : Nat} (hfuel : l.length ≤ fuel) :
    walk next fuel head = l := by
  induction l generalizing head fuel with
  | nil =>
    obtain rfl : head = none := h
    cases fuel <;> rfl
  | cons i l ih =>
    obtain ⟨rfl, hrest⟩ := h
    cases fuel with
    | zero => simp at hfuel
    | succ fuel =>
      rw [walk, ih hrest (by simpa using hfuel)]

/-- The link at which a pointer into the list points: the head or the link of a place. -/
def linkAt (head : Option Nat) (next : Nat → Option Nat) : Option Nat → Option Nat
  | none => head
  | some p => next p

def setLink (head : Option Nat) (next : Nat → Option Nat) (prev value : Option Nat) :
    Option Nat × (Nat → Option Nat) :=
  match prev with
  | none => (value, next)
  | some p => (head, Function.update next p value)

/-- Walks from the link `prev` on until it points at `index`, and takes `index` out there. -/
def unlink (index : Nat) : Nat → Option Nat → (Nat → Option Nat) → Option Nat →
    Option Nat × (Nat → Option Nat)
  | 0, head, next, _ => (head, next)
  | fuel + 1, head, next, prev =>
    match linkAt head next prev with
    | none => (head, next)
    | some j =>
      if j = index then setLink head next prev (next index)
      else unlink index fuel head next (some j)

lemma LinkedTo.redirect {p : Nat} (h : LinkedTo next head (l ++ [p]) last) (hp : p ∉ l)
    (last' : Option Nat) : LinkedTo (Function.update next p last') head (l ++ [p]) last' := by
  obtain ⟨m, hl, hm, -⟩ := linkedTo_append.mp h
  refine linkedTo_append.mpr ⟨m, hl.congr ?_, hm, ?_⟩
  · intro i hi
    refine Function.update_of_ne ?_ _ _
    rintro rfl
    exact hp hi
  · rw [Function.update_self]
    rfl

lemma unlink_spec (index fuel : Nat) (pre suf : List Nat) (hlist : Linked next head (pre ++ suf))
    (hnodup : (pre ++ suf).Nodup) (hmem : index ∈ suf) (hfuel : suf.length ≤ fuel) :
    Linked (unlink index fuel head next pre.getLast?).2
        (unlink index fuel head next pre.getLast?).1 (pre ++ suf.erase index) ∧
      ∀ k, k ∉ pre ++ suf.erase index →
        (unlink index fuel head next pre.getLast?).2 k = next k := by
  induction suf generalizing pre fuel with
  | nil => cases hmem
  | cons j suf ih =>
    obtain ⟨m, hpre, hm, hsuf⟩ := linkedTo_append.mp hlist
    have hlink : linkAt head next pre.getLast? = some j := by
      cases hlast : pre.getLast? with
      | none =>
        rw [List.getLast?_eq_none_iff] at hlast
        subst hlast
        exact Eq.trans hpre hm
      | some p =>
        obtain ⟨q, hq⟩ := List.getLast?_eq_some_iff.mp hlast
        rw [hq] at hpre
        obtain ⟨m', -, -, hnext⟩ := linkedTo_append.mp hpre
        exact Eq.trans hnext hm
    cases fuel with
    | zero => simp at hfuel
    | succ fuel =>
      rw [unlink, hlink]
      dsimp only
      by_cases hj : j = index
      · subst hj
        rw [if_pos rfl, List.erase_cons_head]
        cases hlast : pre.getLast? with
        | none =>
          rw [List.getLast?_eq_none_iff] at hlast
          subst hlast
          exact ⟨hsuf, fun _ _ => rfl⟩
        | some p =>
          obtain ⟨q, hq⟩ := List.getLast?_eq_some_iff.mp hlast
          subst hq
          have hp : p ∉ q ∧ p ∉ suf := by
            rw [List.nodup_append] at hnodup
            refine ⟨?_, ?_⟩
            · have := (List.nodup_append.mp hnodup.1).2.2
              intro hmem'
              exact this p hmem' p (by simp) rfl
            · intro hmem'
              exact hnodup.2.2 p (by simp) p (List.mem_cons_of_mem _ hmem') rfl
          refine ⟨linkedTo_append.mpr ⟨next j, hpre.redirect hp.1 _, hsuf.congr ?_⟩, ?_⟩
          · intro i hi
            refine Function.update_of_ne ?_ _ _
            rintro rfl
            exact hp.2 hi
          · intro k hk
            refine Function.update_of_ne ?_ _ _
            rintro rfl
            exact hk (by simp)
      · rw [if_neg hj, List.erase_cons_tail (by simpa using hj)]
        have hmem' : index ∈ suf := by
          rcases List.mem_cons.mp hmem with h | h
          · exact absurd h.symm hj
          · exact h
        have hstep := ih fuel (pre ++ [j]) (by simpa using hlist)
          (by simpa using hnodup) hmem' (by simpa using hfuel)
        rw [List.getLast?_concat, List.append_assoc, List.singleton_append] at hstep
        exact hstep

/-- Taking a place out of a list leaves the rest of the list and the other links. -/
theorem Linked.unlink {index : Nat} (h : Linked next head l) (hnodup : l.Nodup)
    (hmem : index ∈ l) (fuel : Nat) (hfuel : l.length ≤ fuel) :
    Linked (unlink index fuel head next none).2 (unlink index fuel head next none).1
        (l.erase index) ∧
      ∀ k, k ∉ l.erase index → (VoipMonitor.Library.unlink index fuel head next none).2 k =
        next k :=
  unlink_spec index fuel [] l h hnodup hmem hfuel

end VoipMonitor.Library
