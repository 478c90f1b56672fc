import Mathlib.Tactic

/-!
# The first element of the greatest weight

A scan keeps an element when its weight is greater than that of the one kept before. It may end
at an element whose weight no other one can exceed.
-/

namespace VoipMonitor.Library

variable {α : Type*} (weight : α → Nat)

/-- The weight of the element kept so far. -/
def weightOf (best : Option α) : Nat := best.elim 0 weight

def keepBest (best : Option α) (a : α) : Option α :=
  if weightOf weight best < weight a then some a else best

def firstBest (l : List α) (best : Option α) : Option α := l.foldl (keepBest weight) best

/-- The scan that ends at an element of the weight `stop`. -/
def firstBestUntil (stop : Nat) : List α → Option α → Option α
  | [], best => best
  | a :: l, best =>
    if weightOf weight best < weight a then
      if weight a = stop then some a else firstBestUntil stop l (some a)
    else firstBestUntil stop l best

variable {weight} {l : List α} {best : Option α}

lemma firstBest_of_le (h : ∀ a ∈ l, weight a ≤ weightOf weight best) :
    firstBest weight l best = best := by
  induction l with
  | nil => rfl
  | cons a l ih =>
    have hfirst : ¬weightOf weight best < weight a := not_lt.mpr (h a List.mem_cons_self)
    rw [firstBest, List.foldl_cons, keepBest, if_neg hfirst]
    exact ih (fun b hb => h b (List.mem_cons_of_mem a hb))

/-- Ending early changes nothing when no weight is greater. -/
theorem firstBestUntil_eq {stop : Nat} (h : ∀ a ∈ l, weight a ≤ stop) :
    firstBestUntil weight stop l best = firstBest weight l best := by
  induction l generalizing best with
  | nil => rfl
  | cons a l ih =>
    have hrest : ∀ b ∈ l, weight b ≤ stop := fun b hb => h b (List.mem_cons_of_mem a hb)
    have hstep : firstBest weight (a :: l) best =
        firstBest weight l (keepBest weight best a) := rfl
    rw [firstBestUntil, hstep, keepBest]
    split
    · split
      · rename_i hstop
        have hnone : ∀ b ∈ l, weight b ≤ weightOf weight (some a) :=
          fun b hb => (hrest b hb).trans hstop.ge
        exact (firstBest_of_le hnone).symm
      · exact ih hrest
    · exact ih hrest

variable (weight) in
/-- The element kept so far stays, or a greater one is kept: it has more weight than all in front
of it and no less than all behind it. -/
theorem firstBest_cases (l : List α) (best : Option α) :
    (firstBest weight l best = best ∧ ∀ a ∈ l, weight a ≤ weightOf weight best) ∨
      ∃ before a after, l = before ++ a :: after ∧ firstBest weight l best = some a ∧
        weightOf weight best < weight a ∧ (∀ b ∈ before, weight b < weight a) ∧
        ∀ b ∈ after, weight b ≤ weight a := by
  induction l generalizing best with
  | nil => exact Or.inl ⟨rfl, fun a ha => absurd ha List.not_mem_nil⟩
  | cons a l ih =>
    have hstep : firstBest weight (a :: l) best =
        firstBest weight l (keepBest weight best a) := rfl
    rw [hstep]
    by_cases hmore : weightOf weight best < weight a
    · rw [keepBest, if_pos hmore]
      rcases ih (some a) with ⟨hkeep, hle⟩ | ⟨before, b, after, rfl, hkeep, hlt, hbefore, hafter⟩
      · exact Or.inr ⟨[], a, l, rfl, hkeep, hmore, fun b hb => absurd hb List.not_mem_nil, hle⟩
      · refine Or.inr ⟨a :: before, b, after, rfl, hkeep, hmore.trans hlt, ?_, hafter⟩
        exact List.forall_mem_cons.mpr ⟨hlt, hbefore⟩
    · rw [keepBest, if_neg hmore]
      rcases ih best with ⟨hkeep, hle⟩ | ⟨before, b, after, rfl, hkeep, hlt, hbefore, hafter⟩
      · exact Or.inl ⟨hkeep, List.forall_mem_cons.mpr ⟨not_lt.mp hmore, hle⟩⟩
      · refine Or.inr ⟨a :: before, b, after, rfl, hkeep, hlt, ?_, hafter⟩
        exact List.forall_mem_cons.mpr ⟨(not_lt.mp hmore).trans_lt hlt, hbefore⟩

end VoipMonitor.Library
