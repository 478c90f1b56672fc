import Mathlib.Combinatorics.Pigeonhole
import Mathlib.Logic.Relation
import Mathlib.Order.WellFounded
import Mathlib.Tactic

/-!
# Loops whose rounds may break

A round of a loop ends it with a result, goes on with another state, or breaks: it reads what is
not there. With a measure that falls in each round, a loop ends with a result exactly when no
round that it comes to breaks.
-/

namespace VoipMonitor.Library

variable {σ ρ β : Type}

/-- What one round of a loop does. -/
inductive Outcome (σ ρ : Type) where
  | done (result : ρ)
  | next (s : σ)
  | broken
deriving DecidableEq, Repr

/-- The result of a loop; none is a loop that does not end within the rounds, or that breaks. -/
def runLoop (round : σ → Outcome σ ρ) : Nat → σ → Option ρ
  | 0, _ => none
  | fuel + 1, s =>
    match round s with
    | .done result => some result
    | .next t => runLoop round fuel t
    | .broken => none

def rounds (round : σ → Outcome σ ρ) : Nat → σ → Outcome σ ρ
  | 0, s => .next s
  | n + 1, s =>
    match round s with
    | .done result => .done result
    | .next t => rounds round n t
    | .broken => .broken

/-- The states that a loop comes to from `s`. -/
def Visits (round : σ → Outcome σ ρ) : σ → σ → Prop :=
  Relation.ReflTransGen (fun s t => round s = .next t)

variable {round : σ → Outcome σ ρ} {s t : σ}

lemma runLoop_done {result : ρ} (h : round s = .done result) (fuel : Nat) :
    runLoop round (fuel + 1) s = some result := by
  rw [runLoop, h]

lemma runLoop_next (h : round s = .next t) (fuel : Nat) :
    runLoop round (fuel + 1) s = runLoop round fuel t := by
  rw [runLoop, h]

lemma runLoop_broken (h : round s = .broken) (fuel : Nat) : runLoop round fuel s = none := by
  cases fuel with
  | zero => rfl
  | succ fuel => rw [runLoop, h]

lemma Visits.refl (s : σ) : Visits round s s := Relation.ReflTransGen.refl

lemma Visits.head {u : σ} (h : round s = .next t) (hrest : Visits round t u) :
    Visits round s u :=
  Relation.ReflTransGen.head h hrest

lemma exists_runLoop_of_visits {fuel : Nat} {result : ρ} (hvisit : Visits round s t)
    (h : runLoop round fuel s = some result) : ∃ fuel', runLoop round fuel' t = some result := by
  induction hvisit using Relation.ReflTransGen.head_induction_on generalizing fuel with
  | refl => exact ⟨fuel, h⟩
  | head hstep _ ih =>
    cases fuel with
    | zero => cases h
    | succ fuel =>
      rw [runLoop_next hstep] at h
      exact ih h

lemma runLoop_invariant {I : σ → Prop} {Q : ρ → Prop}
    (hkeep : ∀ s t, I s → round s = .next t → I t)
    (hdone : ∀ s result, I s → round s = .done result → Q result) {fuel : Nat} {result : ρ}
    (hs : I s) (h : runLoop round fuel s = some result) : Q result := by
  induction fuel generalizing s with
  | zero => cases h
  | succ fuel ih =>
    cases hround : round s with
    | done r =>
      rw [runLoop_done hround] at h
      exact Option.some.inj h ▸ hdone s r hs hround
    | next t =>
      rw [runLoop_next hround] at h
      exact ih (hkeep s t hs hround) h
    | broken =>
      rw [runLoop_broken hround] at h
      cases h

lemma exists_runLoop_of_lt {I : σ → Prop} (μ : σ → Nat)
    (hstep : ∀ s t, I s → round s = .next t → I t ∧ μ t < μ s)
    (hsafe : ∀ s, I s → round s ≠ .broken) {fuel : Nat} (hs : I s) (hfuel : μ s < fuel) :
    ∃ result, runLoop round fuel s = some result := by
  induction fuel generalizing s with
  | zero => exact absurd hfuel (Nat.not_lt_zero _)
  | succ fuel ih =>
    cases hround : round s with
    | done result => exact ⟨result, runLoop_done hround fuel⟩
    | broken => exact absurd hround (hsafe s hs)
    | next t =>
      obtain ⟨ht, hlt⟩ := hstep s t hs hround
      obtain ⟨result, hrun⟩ := ih ht (by omega)
      exact ⟨result, by rw [runLoop_next hround, hrun]⟩

lemma not_broken_of_runLoop {fuel : Nat} {result : ρ} (h : runLoop round fuel s = some result)
    (hvisit : Visits round s t) : round t ≠ .broken := by
  induction hvisit using Relation.ReflTransGen.head_induction_on generalizing fuel with
  | refl =>
    intro hbroken
    rw [runLoop_broken hbroken] at h
    cases h
  | head hstep _ ih =>
    cases fuel with
    | zero => cases h
    | succ fuel =>
      rw [runLoop_next hstep] at h
      exact ih h

lemma exists_broken_of_rounds {n : Nat} (h : rounds round n s = .broken) :
    ∃ t, Visits round s t ∧ round t = .broken := by
  induction n generalizing s with
  | zero => cases h
  | succ n ih =>
    cases hround : round s with
    | done result =>
      rw [rounds, hround] at h
      cases h
    | broken => exact ⟨s, .refl s, hround⟩
    | next u =>
      rw [rounds, hround] at h
      obtain ⟨t, hvisit, ht⟩ := ih h
      exact ⟨t, .head hround hvisit, ht⟩

theorem exists_runLoop_iff {I : σ → Prop} {lt : β → β → Prop} (hwf : WellFounded lt) (μ : σ → β)
    (hstep : ∀ s t, I s → round s = .next t → I t ∧ lt (μ t) (μ s)) (hs : I s) :
    (∃ fuel result, runLoop round fuel s = some result) ↔
      ∀ t, Visits round s t → round t ≠ .broken := by
  constructor
  · rintro ⟨fuel, result, hrun⟩ t ht
    exact not_broken_of_runLoop hrun ht
  · intro hsafe
    induction hn : μ s using hwf.induction generalizing s with
    | _ n ih =>
      cases h : round s with
      | done result => exact ⟨1, result, runLoop_done h 0⟩
      | broken => exact absurd h (hsafe s (.refl s))
      | next t =>
        obtain ⟨ht, hlt⟩ := hstep s t hs h
        rw [hn] at hlt
        obtain ⟨fuel, result, hrun⟩ := ih (μ t) hlt ht (fun u hu => hsafe u (.head h hu)) rfl
        refine ⟨fuel + 1, result, ?_⟩
        rw [runLoop_next h, hrun]

lemma runLoop_self (h : round s = .next s) (fuel : Nat) : runLoop round fuel s = none := by
  induction fuel with
  | zero => rfl
  | succ fuel ih => rw [runLoop_next h, ih]

/-- A loop whose rounds let a measure fall or stay where they are ends exactly when no round that it
comes to breaks or stays. -/
theorem exists_runLoop_iff_progress {I : σ → Prop} {lt : β → β → Prop} (hwf : WellFounded lt)
    (μ : σ → β) (hstep : ∀ s t, I s → round s = .next t → t ≠ s → I t ∧ lt (μ t) (μ s))
    (hs : I s) :
    (∃ fuel result, runLoop round fuel s = some result) ↔
      ∀ t, Visits round s t → round t ≠ .broken ∧ round t ≠ .next t := by
  constructor
  · rintro ⟨fuel, result, hrun⟩ t ht
    refine ⟨not_broken_of_runLoop hrun ht, fun hself => ?_⟩
    obtain ⟨fuel', hrun'⟩ := exists_runLoop_of_visits ht hrun
    rw [runLoop_self hself] at hrun'
    cases hrun'
  · intro h
    refine (exists_runLoop_iff (I := fun u => I u ∧ ∀ t, Visits round u t → round t ≠ .next t) hwf μ
      ?_ ⟨hs, fun t ht => (h t ht).2⟩).mpr (fun t ht => (h t ht).1)
    rintro u v ⟨hu, hmoves⟩ hround
    have hne : v ≠ u := fun heq => hmoves u (.refl u) (heq ▸ hround)
    obtain ⟨hv, hlt⟩ := hstep u v hu hround hne
    exact ⟨⟨hv, fun t ht => hmoves t (.head hround ht)⟩, hlt⟩

/-- A loop whose rounds go on and break by the position of their state alone. -/
theorem visits_iff_reaches {α : Type} {step : α → α → Prop} {bad : α → Prop} (π : σ → α)
    (hbroken : ∀ s, round s = .broken ↔ bad (π s))
    (hnext : ∀ s t, round s = .next t → step (π s) (π t))
    (hsim : ∀ s a, ¬bad (π s) → step (π s) a → ∃ t, round s = .next t ∧ π t = a) :
    (∀ t, Visits round s t → round t ≠ .broken) ↔
      ∀ a, Relation.ReflTransGen step (π s) a → ¬bad a := by
  constructor
  · intro h a ha
    obtain ⟨t, ht, rfl⟩ : ∃ t, Visits round s t ∧ π t = a := by
      induction ha with
      | refl => exact ⟨s, .refl s, rfl⟩
      | tail _ hstep ih =>
        obtain ⟨t, ht, rfl⟩ := ih
        obtain ⟨u, hround, rfl⟩ := hsim t _ (fun hbad => h t ht ((hbroken t).mpr hbad)) hstep
        exact ⟨u, ht.tail hround, rfl⟩
    exact fun hbad => h t ht ((hbroken t).mpr hbad)
  · intro h t ht
    have hreach : Relation.ReflTransGen step (π s) (π t) := by
      induction ht with
      | refl => exact .refl
      | tail _ hstep ih => exact ih.tail (hnext _ _ hstep)
    intro hround
    exact h (π t) hreach ((hbroken t).mp hround)

end VoipMonitor.Library

/-!
## Iterates in a finite set

A function that keeps a finite set comes back to a value. What its iterates reach, they reach
before that.
-/

namespace VoipMonitor.Library

variable {α : Type} {f : α → α} {P : α → Prop} {a : α} {S : Finset α}

lemma iterate_mem (ha : a ∈ S) (hf : ∀ b ∈ S, f b ∈ S) (k : Nat) : f^[k] a ∈ S := by
  induction k with
  | zero => exact ha
  | succ k ih =>
    rw [Function.iterate_succ_apply']
    exact hf _ ih

lemma iterate_back {i j k : Nat} (hback : f^[i] a = f^[j] a) (hk : j ≤ k) :
    f^[k] a = f^[k - j + i] a := by
  calc f^[k] a = f^[k - j + j] a := by rw [Nat.sub_add_cancel hk]
    _ = f^[k - j] (f^[j] a) := Function.iterate_add_apply f (k - j) j a
    _ = f^[k - j] (f^[i] a) := by rw [hback]
    _ = f^[k - j + i] a := (Function.iterate_add_apply f (k - j) i a).symm

theorem exists_iterate_iff_lt_card (ha : a ∈ S) (hf : ∀ b ∈ S, f b ∈ S) :
    (∃ k, P (f^[k] a)) ↔ ∃ k < S.card, P (f^[k] a) := by
  constructor
  · rintro ⟨k, hk⟩
    induction k using Nat.strong_induction_on with
    | _ k ih =>
      by_cases hlt : k < S.card
      · exact ⟨k, hlt, hk⟩
      · have hcard : S.card < (Finset.range (S.card + 1)).card := by
          rw [Finset.card_range]
          exact Nat.lt_succ_self _
        have hmaps : ∀ m ∈ Finset.range (S.card + 1), f^[m] a ∈ S := fun m _ =>
          iterate_mem ha hf m
        obtain ⟨x, hx, y, hy, hne, heq⟩ :=
          Finset.exists_ne_map_eq_of_card_lt_of_maps_to hcard hmaps
        rw [Finset.mem_range] at hx hy
        rcases Nat.lt_or_gt_of_ne hne with hxy | hyx
        · rw [iterate_back heq (by omega)] at hk
          exact ih _ (by omega) hk
        · rw [iterate_back heq.symm (by omega)] at hk
          exact ih _ (by omega) hk
  · rintro ⟨k, -, hk⟩
    exact ⟨k, hk⟩

end VoipMonitor.Library
