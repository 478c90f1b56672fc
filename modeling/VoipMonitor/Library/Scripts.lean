import VoipMonitor.Library.Runs

/-!
# Programs that act on a state

A program that changes a state by the actions of a step function alone, looks at the state between
them, and stops where it cannot go on. It is kept with the fact that its actions are a run, so what
holds along runs holds along the actions of every such program.
-/

namespace VoipMonitor.Library

variable {σ α β γ : Type} {step : σ → α → Option σ}

lemma run_append (step : σ → α → Option σ) (s : σ) (acts acts' : List α) :
    run step s (acts ++ acts') = (run step s acts).bind (fun t => run step t acts') := by
  induction acts generalizing s with
  | nil => rfl
  | cons a acts ih =>
    rw [List.cons_append, run, run]
    cases step s a with
    | none => rfl
    | some t => exact ih t

/-- What a program did: its actions, the state behind them, and its value, or none when it
stopped. -/
structure Trace (σ α β : Type) where
  acts : List α
  state : σ
  value : Option β

/-- A program whose actions are a run. -/
structure Script (step : σ → α → Option σ) (β : Type) where
  exec : σ → Trace σ α β
  sound : ∀ s, run step s (exec s).acts = some (exec s).state

namespace Script

/-- The value without an action. -/
def value (b : β) : Script step β := ⟨fun s => ⟨[], s, some b⟩, fun _ => rfl⟩

/-- The rest of a program behind its first part. -/
def andThen (m : Script step β) (f : β → Script step γ) : Script step γ where
  exec s :=
    match (m.exec s).value with
    | none => ⟨(m.exec s).acts, (m.exec s).state, none⟩
    | some b =>
      ⟨(m.exec s).acts ++ ((f b).exec (m.exec s).state).acts,
        ((f b).exec (m.exec s).state).state, ((f b).exec (m.exec s).state).value⟩
  sound s := by
    cases (m.exec s).value with
    | none => exact m.sound s
    | some b =>
      rw [run_append, m.sound s]
      exact (f b).sound _

instance : Monad (Script step) where
  pure := value
  bind := andThen

/-- The state. -/
def get : Script step σ := ⟨fun s => ⟨[], s, some s⟩, fun _ => rfl⟩

def stop : Script step β := ⟨fun s => ⟨[], s, none⟩, fun _ => rfl⟩

/-- The value if there is one. -/
def need (b : Option β) : Script step β :=
  match b with
  | some b => value b
  | none => stop

/-- One action, where it is possible. -/
def act (a : α) : Script step Unit where
  exec s :=
    match step s a with
    | some t => ⟨[a], t, some ()⟩
    | none => ⟨[], s, none⟩
  sound s := by
    cases h : step s a with
    | none => rfl
    | some t =>
      rw [run, h]
      rfl

end Script

/-- Every action of a run meets `P` in the state before it. -/
def Along (step : σ → α → Option σ) (P : σ → α → Prop) : σ → List α → Prop
  | _, [] => True
  | s, a :: acts => P s a ∧ ∀ t ∈ step s a, Along step P t acts

/-- What holds of each action under an invariant that the actions keep. -/
theorem Along.imp {P Q : σ → α → Prop} {J : σ → Prop} {s : σ} {acts : List α}
    (hPQ : ∀ s a, J s → P s a → Q s a) (hkeep : ∀ s a t, J s → P s a → step s a = some t → J t)
    (hs : J s) (h : Along step P s acts) : Along step Q s acts := by
  induction acts generalizing s with
  | nil => trivial
  | cons a acts ih =>
    obtain ⟨hP, hrest⟩ := h
    exact ⟨hPQ s a hs hP, fun t ht => ih (hkeep s a t hs hP ht) (hrest t ht)⟩

lemma Along.at {P : σ → α → Prop} {s t : σ} {pre post : List α} {a : α}
    (h : Along step P s (pre ++ a :: post)) (hpre : run step s pre = some t) : P t a := by
  induction pre generalizing s with
  | nil =>
    obtain rfl : s = t := Option.some.inj hpre
    exact h.1
  | cons b pre ih =>
    obtain ⟨u, hu, hrest⟩ := Option.bind_eq_some_iff.mp hpre
    exact ih (h.2 u hu) hrest

end VoipMonitor.Library
