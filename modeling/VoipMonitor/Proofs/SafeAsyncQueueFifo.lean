import VoipMonitor.Model.SafeAsyncQueue

/-!
# The queue between threads keeps the order of the items

In every interleaving the items removed and those still in one of the containers are, in this
order, the items pushed.
-/

namespace VoipMonitor.AsyncQueue
open VoipMonitor.Library

variable {α : Type}

/-- A successful `pop` that does not remove, followed by others that do not, gives the item of the
next one. -/
def PeeksAgree (answers : List (Answer α)) : Prop :=
  ∀ l₁ l₂ l₃ x a, answers = l₁ ++ ⟨false, some x⟩ :: l₂ ++ a :: l₃ →
    (∀ b ∈ l₂, b.remove = false) → a.item = some x

def PeekedLast (answers : List (Answer α)) (x : α) : Prop :=
  ∃ l₁ l₂, answers = l₁ ++ ⟨false, some x⟩ :: l₂ ∧ ∀ b ∈ l₂, b.remove = false

def counted (q : SafeAsyncQueue α) : Nat :=
  q.waiting.length + if q.popping = .decSize then 1 else 0

structure Inv (s : State α) : Prop where
  fifo : s.pushed = s.removed ++ s.queue.waiting
  most : s.queue.waiting.length ≤ s.mostWaiting
  pushing : s.queue.pushing = true → s.queue.pushQueue.getD [] ≠ []
  refill : ∀ r, s.queue.popping = .refill r → s.queue.popQueue.getD [] = []
  peeked : ∀ x, PeekedLast s.answers x → (s.queue.popQueue.getD []).head? = some x
  peeks : PeeksAgree s.answers
  size : s.mostWaiting + 1 < 2 ^ 32 →
    s.queue.size + (if s.queue.pushing then 1 else 0) = counted s.queue

lemma inv_start (shiftIntervalMs : Nat) : Inv (start shiftIntervalMs : State α) where
  fifo := rfl
  most := Nat.le_refl _
  pushing := by
    intro h
    cases h
  refill := by
    intro r h
    cases h
  peeked := by
    rintro x ⟨l₁, l₂, h, -⟩
    cases l₁ <;> cases h
  peeks := by
    intro l₁ l₂ l₃ x a h
    cases l₁ <;> cases h
  size := fun _ => rfl

/-! ## The steps of the producers and of the timer -/

lemma waiting_push (q : SafeAsyncQueue α) (item : α) :
    (q.push item).waiting = q.waiting ++ [item] := by
  simp [SafeAsyncQueue.push, SafeAsyncQueue.waiting]

lemma Inv.push {s : State α} (h : Inv s) (item : α) (hidle : s.queue.pushing = false) :
    Inv { s with
      queue := s.queue.push item
      pushed := s.pushed ++ [item]
      mostWaiting := max s.mostWaiting (s.queue.push item).waiting.length } where
  fifo := by
    rw [waiting_push, ← List.append_assoc]
    exact congrArg (· ++ [item]) h.fifo
  most := Nat.le_max_right _ _
  pushing := by
    intro _
    simp [SafeAsyncQueue.push]
  refill := h.refill
  peeked := h.peeked
  peeks := h.peeks
  size := by
    intro hmost
    have hsize := h.size (by
      change max s.mostWaiting _ + 1 < _ at hmost
      omega)
    have hpopping : (s.queue.push item).popping = s.queue.popping := rfl
    rw [hidle] at hsize
    change s.queue.size + 1 = _
    rw [counted, waiting_push, hpopping, List.length_append]
    rw [counted] at hsize
    simp only [Bool.false_eq_true, if_false, List.length_cons, List.length_nil] at hsize ⊢
    omega

lemma Inv.incSize {s : State α} (h : Inv s) (hpushing : s.queue.pushing = true) :
    Inv { s with queue := s.queue.incSize } where
  fifo := h.fifo
  most := h.most
  pushing := by
    intro hfalse
    cases hfalse
  refill := h.refill
  peeked := h.peeked
  peeks := h.peeks
  size := by
    intro hmost
    have hsize := h.size hmost
    have hle := h.most
    have hcount : counted s.queue ≤ s.queue.waiting.length + 1 := by
      rw [counted]
      split <;> omega
    rw [hpushing] at hsize
    simp only [if_true] at hsize
    have hadd : s.queue.incSize.size = s.queue.size + 1 := add32_eq (by
      change s.mostWaiting + 1 < _ at hmost
      omega)
    rw [hadd]
    exact hsize

lemma Inv.move {s : State α} (h : Inv s) {q : SafeAsyncQueue α}
    (hwaiting : q.waiting = s.queue.waiting) (hpop : q.popQueue = s.queue.popQueue)
    (hpopping : q.popping = s.queue.popping) (hsize : q.size = s.queue.size)
    (hpushing : q.pushing = s.queue.pushing)
    (hpush : q.pushing = true → q.pushQueue.getD [] ≠ []) : Inv { s with queue := q } where
  fifo := hwaiting ▸ h.fifo
  most := hwaiting ▸ h.most
  pushing := hpush
  refill := by
    intro r hr
    exact hpop ▸ h.refill r (hpopping ▸ hr)
  peeked := by
    intro x hx
    exact hpop ▸ h.peeked x hx
  peeks := h.peeks
  size := by
    intro hmost
    change q.size + (if q.pushing then 1 else 0) = counted q
    rw [counted, hwaiting, hpopping, hsize, hpushing]
    exact h.size hmost

lemma Inv.timerEv {s : State α} (h : Inv s) (timeMs : Nat) (hidle : s.queue.timer = .idle) :
    Inv { s with queue := s.queue.timerEv timeMs } := by
  unfold SafeAsyncQueue.timerEv
  split
  · split
    · exact h.move rfl rfl rfl rfl rfl h.pushing
    · refine h.move ?_ rfl rfl rfl rfl h.pushing
      simp [SafeAsyncQueue.waiting, hidle]
  · exact h

lemma Inv.shiftPush {s : State α} (h : Inv s) {timeMs : Nat} (hshift : s.queue.timer = .shift timeMs)
    (hfree : s.queue.pushing = false) : Inv { s with queue := s.queue.shiftPush timeMs } := by
  refine h.move ?_ rfl rfl rfl rfl ?_
  · simp [SafeAsyncQueue.shiftPush, SafeAsyncQueue.waiting, hshift]
  · intro hpushing
    change s.queue.pushing = true at hpushing
    rw [hfree] at hpushing
    cases hpushing

lemma Inv.shiftHandOver {s : State α} (h : Inv s) {timeMs : Nat} {batch : Option (List α)}
    (hhand : s.queue.timer = .handOver timeMs batch) :
    Inv { s with queue := s.queue.shiftHandOver timeMs batch } := by
  refine h.move ?_ rfl rfl rfl rfl h.pushing
  simp [SafeAsyncQueue.shiftHandOver, SafeAsyncQueue.waiting, hhand]

/-! ## The steps of the consumers -/

lemma Inv.popStart {s : State α} (h : Inv s) (remove : Bool) (hidle : s.queue.popping = .idle) :
    Inv { s with queue := s.queue.popStart remove } := by
  have hsize := h.size
  rw [counted, hidle] at hsize
  unfold SafeAsyncQueue.popStart
  split
  · rename_i hempty
    have hwaiting : ({ s.queue with popQueue := none, popping := .refill remove } :
        SafeAsyncQueue α).waiting = s.queue.waiting := by
      simp [SafeAsyncQueue.waiting, hempty]
    constructor
    · exact hwaiting ▸ h.fifo
    · exact hwaiting ▸ h.most
    · exact h.pushing
    · intro _ _
      rfl
    · intro x hx
      have hhead := h.peeked x hx
      rw [hempty] at hhead
      cases hhead
    · exact h.peeks
    · intro hmost
      rw [counted, hwaiting]
      exact hsize hmost
  · constructor
    · exact h.fifo
    · exact h.most
    · exact h.pushing
    · intro r hr
      cases hr
    · exact h.peeked
    · exact h.peeks
    · exact hsize

lemma Inv.popRefill {s : State α} (h : Inv s) (remove : Bool)
    (hrefill : s.queue.popping = .refill remove) :
    Inv { s with queue := s.queue.popRefill remove } := by
  have hempty := h.refill remove hrefill
  have hsize := h.size
  rw [counted, hrefill] at hsize
  have hnone : ∀ x, ¬PeekedLast s.answers x := by
    intro x hx
    have hhead := h.peeked x hx
    rw [hempty] at hhead
    cases hhead
  have hwaiting : (s.queue.popRefill remove).waiting = s.queue.waiting := by
    unfold SafeAsyncQueue.popRefill
    split
    · rfl
    · rename_i front rest hitems
      simp [SafeAsyncQueue.waiting, hempty, hitems]
  have hother : (s.queue.popRefill remove).popping = .take remove ∧
      (s.queue.popRefill remove).size = s.queue.size ∧
      (s.queue.popRefill remove).pushing = s.queue.pushing ∧
      (s.queue.popRefill remove).pushQueue = s.queue.pushQueue := by
    unfold SafeAsyncQueue.popRefill
    split <;> exact ⟨rfl, rfl, rfl, rfl⟩
  constructor
  · exact hwaiting ▸ h.fifo
  · exact hwaiting ▸ h.most
  · intro hpushing
    change (s.queue.popRefill remove).pushQueue.getD [] ≠ []
    rw [hother.2.2.2]
    exact h.pushing (hother.2.2.1 ▸ hpushing)
  · intro r hr
    rw [hother.1] at hr
    cases hr
  · intro x hx
    exact absurd hx (hnone x)
  · exact h.peeks
  · intro hmost
    rw [counted, hwaiting, hother.1, hother.2.1, hother.2.2.1]
    exact hsize hmost

lemma peekedLast_snoc {answers : List (Answer α)} {a : Answer α} {x : α}
    (h : PeekedLast (answers ++ [a]) x) :
    a.remove = false ∧ (a.item = some x ∨ PeekedLast answers x) := by
  obtain ⟨l₁, l₂, hl, hall⟩ := h
  rcases List.eq_nil_or_concat l₂ with rfl | ⟨l₂, b, rfl⟩
  · obtain ⟨-, rfl⟩ := List.append_inj' hl rfl |>.imp_right List.cons.inj |>.imp_right And.left
    exact ⟨rfl, Or.inl rfl⟩
  · rw [List.concat_eq_append] at hl hall
    rw [← List.cons_append, ← List.append_assoc] at hl
    obtain ⟨hbefore, hlast⟩ := List.append_inj' hl rfl
    obtain rfl := (List.cons.inj hlast).1
    exact ⟨hall a (by simp), Or.inr ⟨l₁, l₂, hbefore, fun c hc => hall c (by simp [hc])⟩⟩

lemma PeeksAgree.snoc {answers : List (Answer α)} {a : Answer α} (h : PeeksAgree answers)
    (ha : ∀ x, PeekedLast answers x → a.item = some x) : PeeksAgree (answers ++ [a]) := by
  intro l₁ l₂ l₃ x b hl hall
  rcases List.eq_nil_or_concat l₃ with rfl | ⟨l₃, c, rfl⟩
  · obtain ⟨hbefore, hlast⟩ := List.append_inj' hl rfl
    obtain rfl := (List.cons.inj hlast).1
    exact ha x ⟨l₁, l₂, hbefore, hall⟩
  · rw [List.concat_eq_append, ← List.cons_append, ← List.append_assoc] at hl
    exact h l₁ l₂ l₃ x b (List.append_inj' hl rfl).1 hall

lemma removed_snoc (s : State α) (q : SafeAsyncQueue α) (a : Answer α) :
    ({ s with queue := q, answers := s.answers ++ [a] } : State α).removed =
      s.removed ++ if a.remove then a.item.toList else [] := by
  obtain ⟨remove, item⟩ := a
  cases remove <;> cases item <;> simp [State.removed]

lemma Inv.popTake {s : State α} (h : Inv s) (remove : Bool)
    (htake : s.queue.popping = .take remove) :
    Inv { s with
      queue := (s.queue.popTake remove).1
      answers := s.answers ++ [(s.queue.popTake remove).2] } := by
  have hsize := h.size
  rw [counted, htake] at hsize
  unfold SafeAsyncQueue.popTake
  split
  · rename_i hempty
    have hnone : ∀ x, ¬PeekedLast s.answers x := by
      intro x hx
      have hhead := h.peeked x hx
      rw [hempty] at hhead
      cases hhead
    constructor
    · rw [removed_snoc]
      cases remove <;> exact (List.append_nil s.removed).symm ▸ h.fifo
    · exact h.most
    · exact h.pushing
    · intro r hr
      cases hr
    · intro x hx
      obtain ⟨-, hx | hx⟩ := peekedLast_snoc hx
      · cases hx
      · exact absurd hx (hnone x)
    · exact h.peeks.snoc (fun x hx => absurd hx (hnone x))
    · exact hsize
  · rename_i item rest hitems
    have hagree : ∀ x, PeekedLast s.answers x → some item = some x := by
      intro x hx
      rw [← h.peeked x hx, hitems]
      rfl
    cases remove with
    | true =>
      have hgetD : (if rest = [] then none else some rest : Option (List α)).getD [] = rest := by
        split
        · rename_i hrest
          exact hrest.symm
        · rfl
      have hwaiting : s.queue.waiting = item ::
          ({ s.queue with
            popQueue := if rest = [] then none else some rest
            popping := .decSize } : SafeAsyncQueue α).waiting := by
        simp only [SafeAsyncQueue.waiting, hitems, hgetD, List.cons_append]
      have hfifo := h.fifo
      have hmost := h.most
      rw [hwaiting] at hfifo hmost hsize
      simp only [if_true]
      constructor
      · rw [removed_snoc, List.append_assoc]
        exact hfifo
      · exact Nat.le_of_succ_le hmost
      · exact h.pushing
      · intro r hr
        cases hr
      · intro x hx
        obtain ⟨hremove, -⟩ := peekedLast_snoc hx
        cases hremove
      · exact h.peeks.snoc hagree
      · exact hsize
    | false =>
      constructor
      · rw [removed_snoc]
        exact (List.append_nil s.removed).symm ▸ h.fifo
      · exact h.most
      · exact h.pushing
      · intro r hr
        cases hr
      · intro x hx
        obtain ⟨-, hx | hx⟩ := peekedLast_snoc hx
        · change (s.queue.popQueue.getD []).head? = some x
          rw [hitems]
          exact hx
        · exact h.peeked x hx
      · exact h.peeks.snoc hagree
      · exact hsize

lemma Inv.decSize {s : State α} (h : Inv s) (hdec : s.queue.popping = .decSize) :
    Inv { s with queue := s.queue.decSize } where
  fifo := h.fifo
  most := h.most
  pushing := h.pushing
  refill := by
    intro r hr
    cases hr
  peeked := h.peeked
  peeks := h.peeks
  size := by
    intro hmost
    have hsize := h.size hmost
    rw [counted, hdec, if_pos rfl] at hsize
    -- an item that is not yet counted is still in `push_queue`
    have hpositive : 0 < s.queue.size := by
      cases hpushing : s.queue.pushing with
      | true =>
        have hlength := List.length_pos_iff.mpr (h.pushing hpushing)
        rw [hpushing] at hsize
        simp only [SafeAsyncQueue.waiting, List.length_append, if_true] at hsize
        omega
      | false =>
        rw [hpushing] at hsize
        simp only [Bool.false_eq_true, if_false] at hsize
        omega
    change (if s.queue.size > 0 then s.queue.size - 1 else s.queue.size) +
      (if s.queue.pushing then 1 else 0) = s.queue.waiting.length + 0
    rw [if_pos hpositive]
    omega

/-! ## All interleavings -/

lemma Inv.step {s t : State α} {act : Act α} (h : Inv s) (hstep : step s act = some t) :
    Inv t := by
  cases act with
  | push item =>
    simp only [AsyncQueue.step] at hstep
    split at hstep
    · cases hstep
    · rename_i hidle
      obtain rfl := Option.some.inj hstep
      exact h.push item (Bool.eq_false_iff.mpr hidle)
  | incSize =>
    simp only [AsyncQueue.step] at hstep
    split at hstep
    · rename_i hpushing
      obtain rfl := Option.some.inj hstep
      exact h.incSize hpushing
    · cases hstep
  | pop remove =>
    simp only [AsyncQueue.step] at hstep
    split at hstep
    · rename_i hidle
      obtain rfl := Option.some.inj hstep
      exact h.popStart remove hidle
    · cases hstep
  | popRefill =>
    simp only [AsyncQueue.step] at hstep
    split at hstep
    · rename_i remove hrefill
      obtain rfl := Option.some.inj hstep
      exact h.popRefill remove hrefill
    · cases hstep
  | popTake =>
    simp only [AsyncQueue.step] at hstep
    split at hstep
    · rename_i remove htake
      obtain rfl := Option.some.inj hstep
      exact h.popTake remove htake
    · cases hstep
  | decSize =>
    simp only [AsyncQueue.step] at hstep
    split at hstep
    · rename_i hdec
      obtain rfl := Option.some.inj hstep
      exact h.decSize hdec
    · cases hstep
  | timerEv timeMs =>
    simp only [AsyncQueue.step] at hstep
    split at hstep
    · rename_i hidle
      obtain rfl := Option.some.inj hstep
      exact h.timerEv timeMs hidle
    · cases hstep
  | shiftPush =>
    simp only [AsyncQueue.step] at hstep
    split at hstep
    · rename_i timeMs hshift
      split at hstep
      · cases hstep
      · rename_i hfree
        obtain rfl := Option.some.inj hstep
        exact h.shiftPush hshift (Bool.eq_false_iff.mpr hfree)
    · cases hstep
  | shiftHandOver =>
    simp only [AsyncQueue.step] at hstep
    split at hstep
    · rename_i timeMs batch hhand
      obtain rfl := Option.some.inj hstep
      exact h.shiftHandOver hhand
    · cases hstep

/-- In every interleaving the items removed are a prefix of those pushed and the others are still
in the queue, a peek gives the item of the next `pop`, and between operations the counter has the
number of items, unless there were `2 ^ 32 - 1` of them in the queue at once. -/
theorem safeAsyncQueue_fifo (shiftIntervalMs : Nat) (s : State α) (h : Reach shiftIntervalMs s) :
    s.pushed = s.removed ++ s.queue.waiting ∧ PeeksAgree s.answers ∧
      (s.mostWaiting + 1 < 2 ^ 32 → s.queue.Quiet →
        s.queue.size = s.pushed.length - s.removed.length) := by
  have hinv : Inv s :=
    ReachBy.invariant (inv_start shiftIntervalMs) (fun _ _ _ hinv _ hstep => hinv.step hstep) h
  refine ⟨hinv.fifo, hinv.peeks, ?_⟩
  rintro hmost ⟨hpushing, hpopping, -⟩
  have hsize := hinv.size hmost
  have hlength := congrArg List.length hinv.fifo
  rw [counted, hpushing, hpopping] at hsize
  rw [List.length_append] at hlength
  simp only [Bool.false_eq_true, reduceCtorEq, if_false] at hsize
  omega

/-- Two items go through the containers while a third one is pushed; the first is looked at and
then removed. -/
def sampleActs : List (Act Nat) :=
  [.push 1, .incSize, .push 2, .incSize, .timerEv 600, .shiftPush, .push 3, .incSize,
    .shiftHandOver, .pop false, .popRefill, .popTake, .pop true, .popTake, .decSize]

theorem safeAsyncQueue_fifo_example : ∃ s, run step (start 500) sampleActs = some s ∧
    s.removed = [1] ∧ s.queue.waiting = [2, 3] ∧ s.pushed = s.removed ++ s.queue.waiting ∧
    s.queue.size = 2 ∧ s.queue.size = s.pushed.length - s.removed.length := by
  obtain ⟨s, hs⟩ : ∃ s, run step (start 500) sampleActs = some s :=
    Option.isSome_iff_exists.mp (by decide)
  have hreach : Reach 500 s := ReachBy.run .initial (fun _ _ => trivial) sampleActs hs
  have hvalue : (run step (start 500) sampleActs).map (fun s => (s.removed, s.queue.waiting,
      s.queue.size, s.mostWaiting)) = some ([1], [2, 3], 2, 3) := by decide
  have hquiet : (run step (start 500) sampleActs).map (fun s => (s.queue.pushing,
      s.queue.popping, s.queue.timer)) = some (false, .idle, .idle) := by decide
  rw [hs] at hvalue hquiet
  simp only [Option.map_some, Option.some.injEq, Prod.mk.injEq] at hvalue hquiet
  obtain ⟨hfifo, -, hsize⟩ := safeAsyncQueue_fifo 500 s hreach
  exact ⟨s, hs, hvalue.1, hvalue.2.1, hfifo, hvalue.2.2.1,
    hsize (by rw [hvalue.2.2.2]; decide) hquiet⟩

lemma reach_pushes (n : Nat) : ∃ s : State Unit, Reach 500 s ∧ s.pushed.length = n ∧
    s.removed = [] ∧ s.queue.size = n % 2 ^ 32 ∧ s.queue.Quiet := by
  induction n with
  | zero => exact ⟨start 500, .initial, rfl, rfl, rfl, rfl, rfl, rfl⟩
  | succ n ih =>
    obtain ⟨s, hs, hpushed, hremoved, hsize, hfree, hpop, htimer⟩ := ih
    have hpush : step s (.push ()) = some { s with
        queue := s.queue.push ()
        pushed := s.pushed ++ [()]
        mostWaiting := max s.mostWaiting (s.queue.push ()).waiting.length } := by
      simp [step, hfree]
    refine ⟨_, (hs.step trivial hpush).step (a := .incSize) trivial rfl, ?_, hremoved, ?_, rfl,
      hpop, htimer⟩
    · simp [hpushed]
    · change add32 s.queue.size 1 = _
      rw [hsize, add32, Nat.mod_add_mod]

/-- With `2 ^ 32` items in the queue the counter is 0. -/
theorem safeAsyncQueue_size_overflows : ∃ s : State Unit, Reach 500 s ∧ s.queue.Quiet ∧
    s.pushed.length = 2 ^ 32 ∧ s.removed = [] ∧
    s.queue.size ≠ s.pushed.length - s.removed.length := by
  obtain ⟨s, hs, hpushed, hremoved, hsize, hquiet⟩ := reach_pushes (2 ^ 32)
  refine ⟨s, hs, hquiet, hpushed, hremoved, ?_⟩
  rw [hsize, hpushed, hremoved]
  decide

end VoipMonitor.AsyncQueue
