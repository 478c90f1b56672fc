import Mathlib.Tactic

/-!
# Runs of equal units

A duration is covered by units of one length. A limit that depends on where a run begins cuts the
units into runs: a unit belongs to the run before it as long as it starts within its limit.
-/

namespace VoipMonitor.Library

/-- The number of units that cover a duration. -/
def unitsFor (duration unit : Nat) : Nat := duration / unit + if duration % unit ≠ 0 then 1 else 0

section Units
variable {duration unit : Nat}

lemma unitsFor_bounds (duration : Nat) (hunit : 0 < unit) : duration ≤ unitsFor duration unit * unit ∧
    unitsFor duration unit * unit < duration + unit := by
  have hdiv := Nat.div_add_mod' duration unit
  have hmod := Nat.mod_lt duration hunit
  unfold unitsFor
  split
  · rw [add_mul, one_mul]
    omega
  · rw [add_zero]
    omega

lemma unitsFor_eq {n : Nat} (hunit : 0 < unit) (hle : duration ≤ n * unit)
    (hlt : n * unit < duration + unit) : unitsFor duration unit = n := by
  obtain ⟨hle', hlt'⟩ := unitsFor_bounds duration hunit
  apply le_antisymm
  · apply Nat.lt_succ_iff.mp
    apply Nat.lt_of_mul_lt_mul_right (a := unit)
    rw [Nat.succ_mul]
    omega
  · apply Nat.lt_succ_iff.mp
    apply Nat.lt_of_mul_lt_mul_right (a := unit)
    rw [Nat.succ_mul]
    omega

@[simp] lemma unitsFor_zero : unitsFor 0 unit = 0 := by simp [unitsFor]

lemma unitsFor_self (hunit : 0 < unit) : unitsFor unit unit = 1 :=
  unitsFor_eq hunit (by omega) (by omega)

lemma unitsFor_pos (hunit : 0 < unit) (h : 0 < duration) : 0 < unitsFor duration unit := by
  have hle := (unitsFor_bounds duration hunit).1
  by_contra hzero
  rw [Nat.eq_zero_of_not_pos hzero, Nat.zero_mul] at hle
  omega

lemma unitsFor_mono (hunit : 0 < unit) {shorter : Nat} (h : shorter ≤ duration) :
    unitsFor shorter unit ≤ unitsFor duration unit := by
  have hle := (unitsFor_bounds duration hunit).1
  have hlt := (unitsFor_bounds shorter hunit).2
  apply Nat.lt_succ_iff.mp
  apply Nat.lt_of_mul_lt_mul_right (a := unit)
  rw [Nat.succ_mul]
  omega

lemma unitsFor_sub (hunit : 0 < unit) (n : Nat) (hn : n ≤ unitsFor duration unit) :
    unitsFor duration unit = n + unitsFor (duration - n * unit) unit := by
  obtain ⟨hle, hlt⟩ := unitsFor_bounds duration hunit
  obtain ⟨m, hm⟩ := Nat.exists_eq_add_of_le hn
  rw [hm, add_mul] at hle hlt
  rw [hm]
  congr 1
  symm
  by_cases hrest : n * unit ≤ duration
  · exact unitsFor_eq hunit (by omega) (by omega)
  · rw [Nat.sub_eq_zero_of_le (by omega), unitsFor_zero]
    by_contra hne
    have hm1 : unit ≤ m * unit := Nat.le_mul_of_pos_left unit (by omega)
    omega

end Units

section Runs
variable (limit : Int → Nat) (unit : Nat)

/-- For each of the units from `start` on, the beginning of its run; `run` is that of the unit
before. -/
def runStarts : Nat → Int → Int → List Int
  | 0, _, _ => []
  | n + 1, run, start =>
    let run := if start < run + limit run then run else start
    run :: runStarts n run (start + unit)

@[simp] lemma length_runStarts (n : Nat) (run start : Int) :
    (runStarts limit unit n run start).length = n := by
  induction n generalizing run start with
  | zero => rfl
  | succ n ih => rw [runStarts, List.length_cons, ih]

lemma runStarts_append (k n : Nat) (run start : Int)
    (h : ∀ j, j < k → start + (j * unit : Nat) < run + limit run) :
    runStarts limit unit (k + n) run start =
      List.replicate k run ++ runStarts limit unit n run (start + (k * unit : Nat)) := by
  induction k generalizing start with
  | zero => simp
  | succ k ih =>
    have hfirst := h 0 (by omega)
    rw [Nat.zero_mul, Nat.cast_zero, add_zero] at hfirst
    have hrest : ∀ j, j < k → start + unit + (j * unit : Nat) < run + limit run := by
      intro j hj
      have hj' := h (j + 1) (by omega)
      rw [Nat.succ_mul] at hj'
      push_cast at hj' ⊢
      omega
    rw [Nat.succ_add, runStarts, if_pos hfirst, ih _ hrest, List.replicate_succ, List.cons_append,
      Nat.succ_mul]
    congr 3
    push_cast
    ring

lemma runStarts_new (n : Nat) (run start : Int) (hpos : 0 < limit start)
    (h : run + limit run ≤ start) :
    runStarts limit unit n run start = runStarts limit unit n start start := by
  cases n with
  | zero => rfl
  | succ n =>
    rw [runStarts, runStarts, if_neg (by omega), if_pos (by omega)]

/-- A run takes units until they cover its limit or the duration. -/
theorem runStarts_unitsFor (hunit : 0 < unit) (hpos : ∀ n, 0 < limit n) (duration : Nat)
    (start : Int) :
    runStarts limit unit (unitsFor duration unit) start start =
      List.replicate (unitsFor (min duration (limit start)) unit) start ++
        runStarts limit unit
          (unitsFor (duration - unitsFor (min duration (limit start)) unit * unit) unit)
          (start + (unitsFor (min duration (limit start)) unit * unit : Nat))
          (start + (unitsFor (min duration (limit start)) unit * unit : Nat)) := by
  set k := unitsFor (min duration (limit start)) unit with hk
  obtain ⟨hle, hlt⟩ := unitsFor_bounds (min duration (limit start)) hunit
  rw [← hk] at hle hlt
  have hwithin : ∀ j, j < k → start + (j * unit : Nat) < start + limit start := by
    intro j hj
    have hj' : (j + 1) * unit ≤ k * unit := Nat.mul_le_mul_right unit hj
    rw [Nat.succ_mul] at hj'
    omega
  rw [unitsFor_sub hunit k (unitsFor_mono hunit (min_le_left _ _)),
    runStarts_append limit unit k _ start start hwithin]
  congr 1
  by_cases hcut : limit start ≤ k * unit
  · exact runStarts_new limit unit _ _ _ (hpos _) (by omega)
  · -- the units cover the duration
    rw [Nat.sub_eq_zero_of_le (by omega), unitsFor_zero]
    rfl

end Runs

end VoipMonitor.Library
