import VoipMonitor.Library.Bytes

/-!
# Programs that read bytes

A program notes the position behind the last byte it has read. Its loops take a bound on their
rounds, and a run that reaches the bound has no result. The rules give what a program returns and
notes, from the rules of its parts, for the programs that return always the same or never.
-/

namespace VoipMonitor.Library

variable {α β : Type}

/-- A run from the position behind the bytes that were read before. -/
abbrev Reading := StateT Nat Option

def read8 (p : Bytes) (o : Nat) : Reading Nat := fun stop => some (byteAt p o, max stop (o + 1))

def read16 (p : Bytes) (o : Nat) : Reading Nat := fun stop => some (be16 p o, max stop (o + 2))

/-- The program returns `x` and reads up to `stop`. -/
def Gives (m : Reading α) (x : α) (stop : Nat) : Prop := ∀ s, m s = some (x, max s stop)

def Fails (m : Reading α) : Prop := ∀ s, m s = none

lemma Gives.bind {m : Reading α} {f : α → Reading β} {x : α} {y : β} {stop stop' : Nat}
    (hm : Gives m x stop) (hf : Gives (f x) y stop') : Gives (m >>= f) y (max stop stop') := by
  intro s
  change (m s).bind (fun r => f r.1 r.2) = _
  rw [hm s, Option.bind_some, hf, max_assoc]

lemma Fails.bind_left {m : Reading α} {f : α → Reading β} (hm : Fails m) : Fails (m >>= f) := by
  intro s
  change (m s).bind (fun r => f r.1 r.2) = _
  rw [hm s, Option.bind_none]

lemma Gives.bind_fails {m : Reading α} {f : α → Reading β} {x : α} {stop : Nat}
    (hm : Gives m x stop) (hf : Fails (f x)) : Fails (m >>= f) := by
  intro s
  change (m s).bind (fun r => f r.1 r.2) = _
  rw [hm s, Option.bind_some, hf]

lemma gives_pure (x : α) : Gives (pure x) x 0 := by
  intro s
  rw [Nat.max_zero]
  rfl

/-! ## Bounded loops -/

/-- With enough rounds the program gives a result, and with fewer the same or none. -/
structure Ends (m : Nat → Reading α) (x : α) (stop : Nat) : Prop where
  eventually : ∃ n, ∀ fuel, n ≤ fuel → Gives (m fuel) x stop
  otherwise : ∀ fuel, Gives (m fuel) x stop ∨ Fails (m fuel)

def Never (m : Nat → Reading α) : Prop := ∀ fuel, Fails (m fuel)

/-- The program gives always the same or never anything. -/
def Decided (m : Nat → Reading α) : Prop := (∃ x stop, Ends m x stop) ∨ Never m

lemma Gives.ends {m : Reading α} {x : α} {stop : Nat} (h : Gives m x stop) :
    Ends (fun _ => m) x stop where
  eventually := ⟨0, fun _ _ => h⟩
  otherwise := fun _ => Or.inl h

section Unique
variable {m : Nat → Reading α} {x y : α} {stop stop' : Nat}

lemma Ends.unique (h : Ends m x stop) {fuel : Nat} (h' : m fuel 0 = some (y, stop')) :
    y = x ∧ stop' = stop := by
  rcases h.otherwise fuel with hgives | hfails
  · rw [hgives 0, Nat.zero_max] at h'
    obtain ⟨rfl, rfl⟩ := Prod.mk.inj (Option.some.inj h')
    exact ⟨rfl, rfl⟩
  · rw [hfails 0] at h'
    cases h'

lemma Ends.run (h : Ends m x stop) : ∃ fuel, m fuel 0 = some (x, stop) := by
  obtain ⟨n, hn⟩ := h.eventually
  exact ⟨n, by rw [hn n le_rfl 0, Nat.zero_max]⟩

end Unique

lemma Decided.unique {m : Nat → Reading α} {x y : α} {stop stop' fuel fuel' : Nat} (hm : Decided m)
    (h : m fuel 0 = some (x, stop)) (h' : m fuel' 0 = some (y, stop')) : y = x ∧ stop' = stop := by
  rcases hm with ⟨z, stop'', hm⟩ | hm
  · obtain ⟨rfl, rfl⟩ := hm.unique h
    exact hm.unique h'
  · rw [hm fuel 0] at h
    cases h

section Bind
variable {m : Nat → Reading α} {f : α → Nat → Reading β} {x : α} {y : β} {stop stop' : Nat}

lemma Ends.bind (hm : Ends m x stop) (hf : Ends (f x) y stop') :
    Ends (fun fuel => m fuel >>= fun x => f x fuel) y (max stop stop') where
  eventually := by
    obtain ⟨n, hn⟩ := hm.eventually
    obtain ⟨n', hn'⟩ := hf.eventually
    exact ⟨max n n', fun fuel hfuel => (hn fuel (by omega)).bind (hn' fuel (by omega))⟩
  otherwise := by
    intro fuel
    rcases hm.otherwise fuel with hgives | hfails
    · rcases hf.otherwise fuel with hgives' | hfails'
      · exact Or.inl (hgives.bind hgives')
      · exact Or.inr (hgives.bind_fails hfails')
    · exact Or.inr hfails.bind_left

lemma Never.bind_left (hm : Never m) : Never (fun fuel => m fuel >>= fun x => f x fuel) :=
  fun fuel => (hm fuel).bind_left

lemma Ends.bind_never (hm : Ends m x stop) (hf : Never (f x)) :
    Never (fun fuel => m fuel >>= fun x => f x fuel) := by
  intro fuel
  rcases hm.otherwise fuel with hgives | hfails
  · exact hgives.bind_fails (hf fuel)
  · exact hfails.bind_left

lemma Decided.bind (hm : Decided m) (hf : ∀ x, Decided (f x)) :
    Decided (fun fuel => m fuel >>= fun x => f x fuel) := by
  rcases hm with ⟨x, stop, hm⟩ | hm
  · rcases hf x with ⟨y, stop', hf⟩ | hf
    · exact Or.inl ⟨y, _, hm.bind hf⟩
    · exact Or.inr (hm.bind_never hf)
  · exact Or.inr hm.bind_left

end Bind

lemma Decided.pure (x : α) : Decided (fun _ => (Pure.pure x : Reading α)) :=
  Or.inl ⟨x, 0, (gives_pure x).ends⟩

lemma Decided.read16 (p : Bytes) (o : Nat) : Decided (fun _ => Library.read16 p o) :=
  Or.inl ⟨be16 p o, o + 2, Gives.ends (fun _ => rfl)⟩

lemma Decided.ite {c : Prop} [Decidable c] {m m' : Nat → Reading α} (h : Decided m)
    (h' : Decided m') : Decided (fun fuel => if c then m fuel else m' fuel) := by
  by_cases hc : c
  · simpa only [if_pos hc] using h
  · simpa only [if_neg hc] using h'

/-! ## `do … while`

The body reads at a position and gives the result when it ends the loop. -/

def doWhile (body : Nat → Reading (Option α)) (next : Nat → Nat) : Nat → Nat → Reading α
  | 0, _ => fun _ => none
  | fuel + 1, pos => do
    match ← body pos with
    | some x => pure x
    | none => doWhile body next fuel (next pos)

/-- How far the rounds `0 … k` read. -/
def reach (stop next : Nat → Nat) : Nat → Nat → Nat
  | 0, pos => stop pos
  | k + 1, pos => max (stop pos) (reach stop next k (next pos))

/-- The round `k` is the first one that ends the loop, with `x`. -/
structure EndsAt (result : Nat → Option α) (next : Nat → Nat) (pos k : Nat) (x : α) : Prop where
  before : ∀ j < k, result (next^[j] pos) = none
  last : result (next^[k] pos) = some x

section EndsAt
variable {result : Nat → Option α} {next : Nat → Nat} {pos : Nat}

lemma EndsAt.first {x : α} (h : result pos = some x) : EndsAt result next pos 0 x where
  before := fun _ hj => absurd hj (Nat.not_lt_zero _)
  last := h

lemma EndsAt.step {k : Nat} {x : α} (h : result pos = none)
    (hrest : EndsAt result next (next pos) k x) : EndsAt result next pos (k + 1) x where
  before := by
    intro j hj
    cases j with
    | zero => exact h
    | succ j => exact hrest.before j (by omega)
  last := hrest.last

lemma EndsAt.unique {k k' : Nat} {x x' : α} (h : EndsAt result next pos k x)
    (h' : EndsAt result next pos k' x') : k' = k ∧ x' = x := by
  have hk : k' = k := by
    rcases lt_trichotomy k k' with hlt | heq | hgt
    · exact absurd ((h'.before k hlt).symm.trans h.last) (Option.some_ne_none x).symm
    · exact heq.symm
    · exact absurd ((h.before k' hgt).symm.trans h'.last) (Option.some_ne_none x').symm
  subst hk
  exact ⟨rfl, Option.some.inj (h'.last.symm.trans h.last)⟩

end EndsAt

section Loop
variable {body : Nat → Reading (Option α)} {result : Nat → Option α} {stop next : Nat → Nat}

lemma doWhile_gives (hbody : ∀ pos, Gives (body pos) (result pos) (stop pos)) {k : Nat} {x : α} :
    ∀ {fuel pos : Nat}, EndsAt result next pos k x → k < fuel →
      Gives (doWhile body next fuel pos) x (reach stop next k pos) := by
  induction k with
  | zero =>
    intro fuel pos h hfuel
    obtain ⟨fuel, rfl⟩ := Nat.exists_eq_add_of_lt hfuel
    have hx : result pos = some x := h.last
    rw [Nat.zero_add, doWhile, reach, ← Nat.max_zero (stop pos)]
    apply (hbody pos).bind
    rw [hx]
    exact gives_pure x
  | succ k ih =>
    intro fuel pos h hfuel
    obtain ⟨fuel, rfl⟩ : ∃ n, fuel = n + 1 := ⟨fuel - 1, by omega⟩
    rw [doWhile, reach]
    have hx : result pos = none := h.before 0 (by omega)
    apply (hbody pos).bind
    rw [hx]
    exact ih ⟨fun j hj => h.before (j + 1) (by omega), h.last⟩ (by omega)

lemma doWhile_fails (hbody : ∀ pos, Gives (body pos) (result pos) (stop pos)) {fuel : Nat} :
    ∀ {pos : Nat}, (∀ j < fuel, result (next^[j] pos) = none) →
      Fails (doWhile body next fuel pos) := by
  induction fuel with
  | zero => exact fun _ _ => rfl
  | succ fuel ih =>
    intro pos h
    rw [doWhile]
    have hx : result pos = none := h 0 (by omega)
    apply (hbody pos).bind_fails
    rw [hx]
    exact ih (fun j hj => h (j + 1) (by omega))

lemma EndsAt.ends (hbody : ∀ pos, Gives (body pos) (result pos) (stop pos)) {pos k : Nat} {x : α}
    (h : EndsAt result next pos k x) :
    Ends (fun fuel => doWhile body next fuel pos) x (reach stop next k pos) where
  eventually := ⟨k + 1, fun _ hfuel => doWhile_gives hbody h hfuel⟩
  otherwise := by
    intro fuel
    by_cases hfuel : k < fuel
    · exact Or.inl (doWhile_gives hbody h hfuel)
    · exact Or.inr (doWhile_fails hbody (fun j hj => h.before j (by omega)))

lemma endsAt_or_never (result : Nat → Option α) (next : Nat → Nat) (pos : Nat) :
    (∃ k x, EndsAt result next pos k x) ∨ ∀ j, result (next^[j] pos) = none := by
  by_cases h : ∃ j, result (next^[j] pos) ≠ none
  · obtain ⟨x, hx⟩ := Option.ne_none_iff_exists'.mp (Nat.find_spec h)
    exact Or.inl ⟨Nat.find h, x, fun j hj => not_not.mp (Nat.find_min h hj), hx⟩
  · exact Or.inr (fun j => not_not.mp (fun hj => h ⟨j, hj⟩))

lemma doWhile_decided (hbody : ∀ pos, Gives (body pos) (result pos) (stop pos)) (pos : Nat) :
    Decided (fun fuel => doWhile body next fuel pos) := by
  rcases endsAt_or_never result next pos with ⟨k, x, h⟩ | h
  · exact Or.inl ⟨x, _, h.ends hbody⟩
  · exact Or.inr (fun _ => doWhile_fails hbody (fun j _ => h j))

end Loop

/-! ## Rules -/

/-- The program gives a result and a position with the property. -/
def Wp (m : Nat → Reading α) (q : α → Nat → Prop) : Prop := ∃ x stop, Ends m x stop ∧ q x stop

variable {q : α → Nat → Prop} {m : Nat → Reading α}

lemma wp_iff_run (hm : Decided m) :
    (∃ fuel x stop, m fuel 0 = some (x, stop) ∧ q x stop) ↔ Wp m q := by
  constructor
  · rintro ⟨fuel, y, stop', hrun, hq⟩
    rcases hm with ⟨x, stop, hm⟩ | hm
    · obtain ⟨rfl, rfl⟩ := hm.unique hrun
      exact ⟨y, stop', hm, hq⟩
    · rw [hm fuel 0] at hrun
      cases hrun
  · rintro ⟨x, stop, hm, hq⟩
    obtain ⟨fuel, hrun⟩ := hm.run
    exact ⟨fuel, x, stop, hrun, hq⟩

lemma Ends.wp_iff {x : α} {stop : Nat} (hm : Ends m x stop) : Wp m q ↔ q x stop := by
  constructor
  · rintro ⟨y, stop', hm', hq⟩
    obtain ⟨fuel, hrun⟩ := hm'.run
    obtain ⟨rfl, rfl⟩ := hm.unique hrun
    exact hq
  · exact fun hq => ⟨x, stop, hm, hq⟩

lemma Never.not_wp (hm : Never m) : ¬Wp m q := by
  rintro ⟨x, stop, hm', -⟩
  obtain ⟨fuel, hrun⟩ := hm'.run
  rw [hm fuel 0] at hrun
  cases hrun

lemma wp_pure (x : α) : Wp (fun _ => (Pure.pure x : Reading α)) q ↔ q x 0 :=
  (gives_pure x).ends.wp_iff

lemma wp_read16 {q : Nat → Nat → Prop} (p : Bytes) (o : Nat) :
    Wp (fun _ => read16 p o) q ↔ q (be16 p o) (o + 2) :=
  (Gives.ends (fun _ => rfl)).wp_iff

lemma wp_ite {c : Prop} [Decidable c] {m' : Nat → Reading α} :
    Wp (fun fuel => if c then m fuel else m' fuel) q ↔ if c then Wp m q else Wp m' q := by
  by_cases hc : c
  · simp only [if_pos hc]
  · simp only [if_neg hc]

lemma wp_bind {f : α → Nat → Reading β} {q : β → Nat → Prop} (hm : Decided m)
    (hf : ∀ x, Decided (f x)) :
    Wp (fun fuel => m fuel >>= fun x => f x fuel) q ↔
      Wp m (fun x stop => Wp (f x) (fun y stop' => q y (max stop stop'))) := by
  rcases hm with ⟨x, stop, hm⟩ | hm
  · rw [hm.wp_iff]
    rcases hf x with ⟨y, stop', hf⟩ | hf
    · rw [hf.wp_iff, (hm.bind hf).wp_iff]
    · exact iff_of_false (hm.bind_never hf).not_wp hf.not_wp
  · exact iff_of_false hm.bind_left.not_wp hm.not_wp

lemma wp_doWhile {body : Nat → Reading (Option α)} {result : Nat → Option α} {stop next : Nat → Nat}
    (hbody : ∀ pos, Gives (body pos) (result pos) (stop pos)) (pos : Nat) :
    Wp (fun fuel => doWhile body next fuel pos) q ↔
      ∃ k x, EndsAt result next pos k x ∧ q x (reach stop next k pos) := by
  constructor
  · rintro ⟨x, s, hends, hq⟩
    rcases endsAt_or_never result next pos with ⟨k, y, h⟩ | h
    · exact ⟨k, y, h, (h.ends hbody).wp_iff.mp ⟨x, s, hends, hq⟩⟩
    · have hnever : Never (fun fuel => doWhile body next fuel pos) :=
        fun _ => doWhile_fails hbody (fun j _ => h j)
      exact absurd ⟨x, s, hends, hq⟩ hnever.not_wp
  · rintro ⟨k, x, h, hq⟩
    exact ⟨x, _, h.ends hbody, hq⟩

end VoipMonitor.Library
