import Mathlib.Data.List.Basic
import Mathlib.Init

/-!
# Runs of a step function

A step function gives the state after an action, or none when the action is not possible. A
property of all runs is proved from what one step keeps.
-/

namespace VoipMonitor.Library

variable {σ α : Type} {step : σ → α → Option σ} {ok : σ → α → Prop} {start s : σ}

/-- The state after a list of actions. -/
def run (step : σ → α → Option σ) : σ → List α → Option σ
  | s, [] => some s
  | s, a :: acts => (step s a).bind (fun t => run step t acts)

/-- The states reached from `start` by actions that meet `ok` in the state before them. -/
inductive ReachBy (step : σ → α → Option σ) (ok : σ → α → Prop) (start : σ) : σ → Prop
  | initial : ReachBy step ok start start
  | step {s t : σ} {a : α} (h : ReachBy step ok start s) (hok : ok s a)
      (hstep : step s a = some t) : ReachBy step ok start t

theorem ReachBy.invariant {I : σ → Prop} (hstart : I start)
    (hkeep : ∀ s a t, I s → ok s a → step s a = some t → I t) (h : ReachBy step ok start s) :
    I s := by
  induction h with
  | initial => exact hstart
  | step _ hok hstep ih => exact hkeep _ _ _ ih hok hstep

/-- A weaker condition on the actions. -/
theorem ReachBy.mono {ok' : σ → α → Prop} (hok' : ∀ s a, ok s a → ok' s a)
    (h : ReachBy step ok start s) : ReachBy step ok' start s := by
  induction h with
  | initial => exact .initial
  | step _ hok hstep ih => exact ih.step (hok' _ _ hok) hstep

theorem ReachBy.run {t : σ} (h : ReachBy step ok start s) (hall : ∀ s a, ok s a) (acts : List α)
    (hrun : run step s acts = some t) : ReachBy step ok start t := by
  induction acts generalizing s with
  | nil =>
    obtain rfl : s = t := Option.some.inj hrun
    exact h
  | cons a acts ih =>
    obtain ⟨u, hu, hrest⟩ := Option.bind_eq_some_iff.mp hrun
    exact ih (h.step (hall s a) hu) hrest

/-- A run that stops before the first action that does not meet `ok`. -/
def checkedRun (step : σ → α → Option σ) (ok : σ → α → Prop) [∀ s a, Decidable (ok s a)] :
    σ → List α → Option σ
  | s, [] => some s
  | s, a :: acts =>
    if ok s a then (step s a).bind (fun t => checkedRun step ok t acts) else none

theorem ReachBy.checkedRun [∀ s a, Decidable (ok s a)] {t : σ} (h : ReachBy step ok start s)
    (acts : List α) (hrun : checkedRun step ok s acts = some t) : ReachBy step ok start t := by
  induction acts generalizing s with
  | nil =>
    obtain rfl : s = t := Option.some.inj hrun
    exact h
  | cons a acts ih =>
    rw [Library.checkedRun] at hrun
    split at hrun
    · rename_i hok
      obtain ⟨u, hu, hrest⟩ := Option.bind_eq_some_iff.mp hrun
      exact ih (h.step hok hu) hrest
    · cases hrun

/-- Every action of a run of a total step function meets `P` in the state before it. -/
def AlongRun (step : σ → α → σ) (P : σ → α → Prop) : σ → List α → Prop
  | _, [] => True
  | s, a :: acts => P s a ∧ AlongRun step P (step s a) acts

/-- Two conditions agree along a run when they agree under an invariant that actions which meet
them keep. -/
theorem alongRun_iff {step : σ → α → σ} {P Q : σ → α → Prop} {I : σ → Prop}
    (hiff : ∀ s a, I s → (P s a ↔ Q s a)) (hkeep : ∀ s a, I s → P s a → I (step s a))
    (acts : List α) (hstart : I s) : AlongRun step P s acts ↔ AlongRun step Q s acts := by
  induction acts generalizing s with
  | nil => exact Iff.rfl
  | cons a acts ih =>
    have hfirst := hiff s a hstart
    constructor
    · rintro ⟨hP, hrest⟩
      exact ⟨hfirst.mp hP, (ih (hkeep s a hstart hP)).mp hrest⟩
    · rintro ⟨hQ, hrest⟩
      exact ⟨hfirst.mpr hQ, (ih (hkeep s a hstart (hfirst.mpr hQ))).mpr hrest⟩

end VoipMonitor.Library

/-!
## The latest event of a history

A history lists events from the oldest to the newest. What a table with one entry for each key
remembers is the latest event of that key.
-/

namespace VoipMonitor.Library

variable {α : Type} {p : α → Bool}

/-- The latest event that satisfies `p`. -/
def latest (p : α → Bool) (history : List α) : Option α := (history.filter p).getLast?

lemma latest_snoc (history : List α) (e : α) :
    latest p (history ++ [e]) = if p e then some e else latest p history := by
  unfold latest
  by_cases he : p e = true
  · simp [List.filter_append, he]
  · simp [List.filter_append, he]

lemma latest_mem {history : List α} {e : α} (h : latest p history = some e) :
    e ∈ history ∧ p e = true := List.mem_filter.mp (List.mem_of_getLast? h)

lemma latest_filter {q : α → Bool} {history : List α}
    (h : ∀ e ∈ history, p e = true → q e = true) :
    latest p (history.filter q) = latest p history := by
  unfold latest
  rw [List.filter_filter]
  refine congrArg List.getLast? (List.filter_congr (fun e he => ?_))
  cases hp : p e with
  | false => rfl
  | true => rw [h e he hp]; rfl

lemma latest_eq_none {history : List α} (h : ∀ e ∈ history, p e = false) :
    latest p history = none := by
  unfold latest
  rw [List.filter_eq_nil_iff.mpr (fun e he => by rw [h e he]; exact Bool.false_ne_true)]
  rfl

end VoipMonitor.Library
