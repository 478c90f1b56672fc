import Mathlib.Order.Interval.Finset.Nat
import VoipMonitor.Model.RQueue

/-!
# The ring between threads keeps the order of the items

In every interleaving the items popped are the first of those pushed, and the others stand in the
slots from `readit` on. The flags say which slots these are, so that no slot is written before it
was read.
-/

namespace VoipMonitor.RQueue
open VoipMonitor.Library

variable {ι α : Type}

/-! ## Indexes -/

section Indexes
variable {length : Nat} (hpos : 0 < length) (hlength : length ≤ 2 ^ 32)
include hpos hlength

lemma next_index (n : Nat) :
    (add32 (n % length) 1 = length → 0 = (n + 1) % length) ∧
      (add32 (n % length) 1 ≠ length → add32 (n % length) 1 = (n + 1) % length) := by
  have hlt := Nat.mod_lt n hpos
  have hnext : (n + 1) % length = (n % length + 1) % length := (Nat.mod_add_mod n length 1).symm
  rw [hnext, add32]
  generalize n % length = r at hlt
  by_cases hlast : r + 1 = length
  · rw [hlast, Nat.mod_self]
    refine ⟨fun _ => rfl, ?_⟩
    intro hne
    -- a ring of the greatest length, whose index runs over by itself
    have hmax : length = 2 ^ 32 := by
      by_contra hless
      exact hne (Nat.mod_eq_of_lt (by omega))
    rw [hmax, Nat.mod_self]
  · rw [Nat.mod_eq_of_lt (show r + 1 < length by omega),
      Nat.mod_eq_of_lt (show r + 1 < 2 ^ 32 by omega)]
    exact ⟨fun h => absurd h hlast, fun _ => rfl⟩

end Indexes

lemma slot_ne (length : Nat) {r i j : Nat} (hi : r ≤ i) (hi' : i < r + length) (hj : r ≤ j)
    (hj' : j < r + length) (hne : i ≠ j) : i % length ≠ j % length := by
  intro heq
  refine hne (Nat.mod_injOn_Ico r length ?_ ?_ heq)
  · exact Finset.mem_coe.mpr (Finset.mem_Ico.mpr ⟨hi, hi'⟩)
  · exact Finset.mem_coe.mpr (Finset.mem_Ico.mpr ⟨hj, hj'⟩)

/-! ## Slots -/

/-- The items from number `r` on stand in their slots, whose flags are cleared; the other slots
are free. -/
structure Slots (q : RQueueQuick α) (pushed : List α) (r : Nat) : Prop where
  le : r ≤ pushed.length
  le_length : pushed.length ≤ r + q.length
  used : ∀ j, r ≤ j → j < pushed.length →
    q.free (j % q.length) = 0 ∧ q.buffer (j % q.length) = pushed[j]?
  unused : ∀ j, pushed.length ≤ j → j < r + q.length → q.free (j % q.length) = 1

lemma Slots.of_eq {q q' : RQueueQuick α} {pushed : List α} {r : Nat} (h : Slots q pushed r)
    (hlength : q'.length = q.length) (hfree : q'.free = q.free) (hbuffer : q'.buffer = q.buffer) :
    Slots q' pushed r := by
  refine ⟨h.le, by rw [hlength]; exact h.le_length, ?_, ?_⟩
  · rw [hlength, hfree, hbuffer]
    exact h.used
  · rw [hlength, hfree]
    exact h.unused

lemma Slots.store {q : RQueueQuick α} {pushed : List α} {r : Nat} (h : Slots q pushed r)
    (hroom : pushed.length < r + q.length) (item : α) :
    Slots { q with buffer := Function.update q.buffer (pushed.length % q.length) (some item) }
      pushed r := by
  refine ⟨h.le, h.le_length, ?_, h.unused⟩
  intro j hj hj'
  have hle := h.le
  have hne := slot_ne q.length hj (by omega) hle hroom (by omega)
  refine ⟨(h.used j hj hj').1, ?_⟩
  dsimp only
  rw [Function.update_of_ne hne]
  exact (h.used j hj hj').2

lemma Slots.clear {q : RQueueQuick α} {pushed : List α} {r : Nat} (h : Slots q pushed r)
    (hroom : pushed.length < r + q.length) {item : α}
    (hitem : q.buffer (pushed.length % q.length) = some item) :
    Slots { q with free := Function.update q.free (pushed.length % q.length) 0 }
      (pushed ++ [item]) r := by
  have hle := h.le
  have hlen : (pushed ++ [item]).length = pushed.length + 1 := by simp
  refine ⟨by omega, by dsimp only; omega, ?_, ?_⟩
  · intro j hj hj'
    dsimp only
    by_cases hlast : j = pushed.length
    · rw [hlast, Function.update_self, hitem, List.getElem?_concat_length]
      exact ⟨rfl, rfl⟩
    · have hne := slot_ne q.length hj (by omega) hle hroom hlast
      rw [Function.update_of_ne hne, List.getElem?_append_left (by omega)]
      exact h.used j hj (by omega)
  · intro j hj hj'
    dsimp only at hj' ⊢
    have hne := slot_ne q.length (by omega) hj' hle hroom (by omega)
    rw [Function.update_of_ne hne]
    exact h.unused j (by omega) hj'

lemma Slots.set {q : RQueueQuick α} {pushed : List α} {r : Nat} (h : Slots q pushed r)
    (hitem : r < pushed.length) :
    Slots
      { q with
        free := Function.update q.free (r % q.length)
          (if q.safe then q.free (r % q.length) + 1 else 1) }
      pushed (r + 1) := by
  have hle := h.le_length
  have hset : (if q.safe then q.free (r % q.length) + 1 else 1) = 1 := by
    rw [(h.used r le_rfl hitem).1]
    exact ite_self _
  rw [hset]
  refine ⟨hitem, by dsimp only; omega, ?_, ?_⟩
  · intro j hj hj'
    have hne := slot_ne q.length (r := r) (i := j) (by omega) (by omega) le_rfl
      (by omega) (by omega)
    dsimp only
    rw [Function.update_of_ne hne]
    exact h.used j (by omega) hj'
  · intro j hj hj'
    dsimp only at hj' ⊢
    by_cases hlast : j = r + q.length
    · rw [hlast, Nat.add_mod_right, Function.update_self]
    · have hne := slot_ne q.length (r := r) (i := j) (by omega) (by omega) le_rfl
        (by omega) (by omega)
      rw [Function.update_of_ne hne]
      exact h.unused j hj (by omega)

/-- A flag that is set is not one of an item. -/
lemma Slots.room {q : RQueueQuick α} {pushed : List α} {r : Nat} (h : Slots q pushed r)
    (hpos : 0 < q.length) (hfree : q.free (pushed.length % q.length) = 1) :
    pushed.length < r + q.length := by
  have hle := h.le_length
  by_contra hfull
  have hfull' : pushed.length = r + q.length := by omega
  have hused := h.used r le_rfl (by omega)
  rw [hfull', Nat.add_mod_right, hused.1] at hfree
  exact Nat.zero_ne_one hfree

/-- A flag that is cleared is one of an item. -/
lemma Slots.lt_of_cleared {q : RQueueQuick α} {pushed : List α} {r : Nat} (h : Slots q pushed r)
    (hpos : 0 < q.length) (hfree : q.free (r % q.length) = 0) : r < pushed.length := by
  by_contra hempty
  have hunused := h.unused r (by omega) (by omega)
  rw [hfree] at hunused
  exact Nat.zero_ne_one hunused

/-! ## The threads -/

def PopStep.behind : PopStep α → Nat
  | .compare _ => 1
  | .advance _ _ => 1
  | .increment _ _ => 1
  | _ => 0

def PushStep.behind : PushStep → Nat
  | .compare => 1
  | .advance _ => 1
  | .increment _ => 1
  | _ => 0

/-- What the producer knows: the numbers it read, and that there is room for its item. `n` is the
number of items pushed, `r` that of the flags set again. -/
def PushStep.Knows (q : RQueueQuick α) (n r : Nat) (item : α) : PushStep → Prop
  | .test => True
  | .testFree w => w = n % q.length
  | .slot => n < r + q.length
  | .store w => w = n % q.length ∧ n < r + q.length
  | .flag => n < r + q.length ∧ q.buffer (n % q.length) = some item
  | .clear w => w = n % q.length ∧ n < r + q.length ∧ q.buffer (n % q.length) = some item
  | .compare => 0 < n
  | .advance last => 0 < n ∧ (last = true ↔ add32 ((n - 1) % q.length) 1 = q.length)
  | .increment w => 0 < n ∧ w = (n - 1) % q.length ∧ add32 w 1 ≠ q.length
  | .unlock => True

/-- What the consumer knows: the numbers it read, and the item. `n` is the number of items
popped. -/
def PopStep.Knows (q : RQueueQuick α) (pushed : List α) (n : Nat) : PopStep α → Prop
  | .idle => True
  | .test _ => True
  | .testFree _ r => r = n % q.length
  | .slot _ => n < pushed.length
  | .take _ r => r = n % q.length ∧ n < pushed.length
  | .got item => pushed[n]? = some item
  | .flag item => pushed[n]? = some item
  | .set item r => r = n % q.length ∧ pushed[n]? = some item
  | .compare item => pushed[n]? = some item
  | .advance item last =>
    pushed[n]? = some item ∧ (last = true ↔ add32 (n % q.length) 1 = q.length)
  | .increment item r => pushed[n]? = some item ∧ r = n % q.length ∧ add32 r 1 ≠ q.length

def State.released (s : State ι α) : Nat := s.popped.length + s.consumer.behind

structure Inv (length : Nat) (s : State ι α) : Prop where
  length_eq : s.queue.length = length
  slots : Slots s.queue s.pushed s.released
  popped : s.popped = s.pushed.take s.popped.length
  readit : s.queue.readit = s.popped.length % length
  writeit : s.queue.writeit =
    (s.pushed.length - (s.producer.map (fun p => p.2.2.behind)).getD 0) % length
  producer : ∀ p ∈ s.producer, p.2.2.Knows s.queue s.pushed.length s.released p.2.1
  consumer : s.consumer.Knows s.queue s.pushed s.popped.length

lemma inv_start (length : Nat) (safe : Bool) : Inv length (start length safe : State ι α) where
  length_eq := rfl
  slots := ⟨le_rfl, Nat.zero_le _, fun j _ hj => absurd hj (Nat.not_lt_zero j), fun _ _ _ => rfl⟩
  popped := rfl
  readit := (Nat.zero_mod length).symm
  writeit := (Nat.zero_mod length).symm
  producer := by
    intro p hp
    cases hp
  consumer := trivial

lemma PushStep.Knows.mono {q q' : RQueueQuick α} {n r r' : Nat} {item : α} {pc : PushStep}
    (h : pc.Knows q n r item) (hlength : q'.length = q.length) (hbuffer : q'.buffer = q.buffer)
    (hr : r ≤ r') : pc.Knows q' n r' item := by
  cases pc with
  | test => trivial
  | testFree w =>
    rw [Knows, hlength]
    exact h
  | slot =>
    rw [Knows, hlength]
    exact lt_of_lt_of_le h (by omega)
  | store w =>
    rw [Knows, hlength]
    exact ⟨h.1, lt_of_lt_of_le h.2 (by omega)⟩
  | flag =>
    rw [Knows, hlength, hbuffer]
    exact ⟨lt_of_lt_of_le h.1 (by omega), h.2⟩
  | clear w =>
    rw [Knows, hlength, hbuffer]
    exact ⟨h.1, lt_of_lt_of_le h.2.1 (by omega), h.2.2⟩
  | compare => exact h
  | advance last =>
    rw [Knows, hlength]
    exact h
  | increment w =>
    rw [Knows, hlength]
    exact h
  | unlock => trivial

lemma PopStep.Knows.mono {q q' : RQueueQuick α} {pushed pushed' : List α} {n : Nat}
    {pc : PopStep α} (h : pc.Knows q pushed n) (hlength : q'.length = q.length)
    (hpushed : pushed <+: pushed') : pc.Knows q' pushed' n := by
  obtain ⟨more, rfl⟩ := hpushed
  have hget : ∀ {item}, pushed[n]? = some item → (pushed ++ more)[n]? = some item := by
    intro item hitem
    rw [List.getElem?_append_left (List.getElem?_eq_some_iff.mp hitem).1]
    exact hitem
  have hlen : (pushed ++ more).length = pushed.length + more.length := List.length_append
  cases pc with
  | idle => trivial
  | test call => trivial
  | testFree call r =>
    rw [Knows, hlength]
    exact h
  | slot call => exact lt_of_lt_of_le h (by omega)
  | take call r =>
    rw [Knows, hlength]
    exact ⟨h.1, lt_of_lt_of_le h.2 (by omega)⟩
  | got item => exact hget h
  | flag item => exact hget h
  | set item r =>
    rw [Knows, hlength]
    exact ⟨h.1, hget h.2⟩
  | compare item => exact hget h
  | advance item last =>
    rw [Knows, hlength]
    exact ⟨hget h.1, h.2⟩
  | increment item r =>
    rw [Knows, hlength]
    exact ⟨hget h.1, h.2⟩

/-! ## The steps of the producer -/

lemma Inv.producerMoves {length : Nat} {s : State ι α} (h : Inv length s)
    {producer : Option (ι × α × PushStep)}
    (hbehind : (producer.map (fun p => p.2.2.behind)).getD 0 =
      (s.producer.map (fun p => p.2.2.behind)).getD 0)
    (hknows : ∀ p ∈ producer, p.2.2.Knows s.queue s.pushed.length s.released p.2.1) :
    Inv length { s with producer := producer } where
  length_eq := h.length_eq
  slots := h.slots
  popped := h.popped
  readit := h.readit
  writeit := hbehind ▸ h.writeit
  producer := hknows
  consumer := h.consumer

lemma Inv.writeitMoves {length : Nat} {s : State ι α} (h : Inv length s) {p : ι} {item : α} {w : Nat}
    (hw : w = s.pushed.length % length) :
    Inv length
      { s with
        queue := { s.queue with writeit := w }
        producer := some (p, item, .unlock) } where
  length_eq := h.length_eq
  slots := h.slots.of_eq rfl rfl rfl
  popped := h.popped
  readit := h.readit
  writeit := hw
  producer := by
    intro p hp
    cases hp
    trivial
  consumer := h.consumer.mono rfl List.prefix_rfl

lemma Inv.clear {length : Nat} {s : State ι α} (h : Inv length s) {p : ι} {item : α}
    (hp : s.producer = some (p, item, .clear (s.pushed.length % s.queue.length)))
    (hroom : s.pushed.length < s.released + s.queue.length)
    (hitem : s.queue.buffer (s.pushed.length % s.queue.length) = some item) :
    Inv length (push s p item (.clear (s.pushed.length % s.queue.length))) := by
  have hlen : (s.pushed ++ [item]).length = s.pushed.length + 1 := by simp
  have hcount : s.popped.length ≤ s.pushed.length := le_trans (Nat.le_add_right _ _) h.slots.le
  refine ⟨h.length_eq, h.slots.clear hroom hitem, ?_, h.readit, ?_, ?_,
    h.consumer.mono rfl (List.prefix_append _ _)⟩
  · change s.popped = (s.pushed ++ [item]).take s.popped.length
    rw [List.take_append_of_le_length hcount]
    exact h.popped
  · change s.queue.writeit = ((s.pushed ++ [item]).length - 1) % length
    rw [hlen, Nat.add_sub_cancel, h.writeit, hp]
    rfl
  · intro p' hp'
    cases hp'
    change 0 < (s.pushed ++ [item]).length
    omega

section Steps
variable {length : Nat} (hpos : 0 < length) (hlength : length ≤ 2 ^ 32) {s : State ι α}
  (h : Inv length s)
include hpos hlength h

lemma Inv.push {p : ι} {item : α} {pc : PushStep} (hp : s.producer = some (p, item, pc)) :
    Inv length (push s p item pc) := by
  have hknows := h.producer _ hp
  have hwriteit := h.writeit
  rw [hp, Option.map_some, Option.getD_some] at hwriteit
  have hleq := h.length_eq
  -- a step that only moves the program counter
  have hmove : ∀ pc' : PushStep, pc'.behind = pc.behind →
      pc'.Knows s.queue s.pushed.length s.released item →
      Inv length { s with producer := some (p, item, pc') } := by
    intro pc' hbehind hk
    refine h.producerMoves (by rw [hp]; exact hbehind) ?_
    intro p' hp'
    cases hp'
    exact hk
  cases pc with
  | test => exact hmove _ rfl (by rw [PushStep.Knows, hwriteit, hleq]; rfl)
  | testFree w =>
    obtain rfl : w = s.pushed.length % s.queue.length := hknows
    rw [RQueue.push]
    split
    · exact hmove _ rfl trivial
    · rename_i hfree
      exact hmove _ rfl (h.slots.room (hleq ▸ hpos) (not_not.mp hfree))
  | slot => exact hmove _ rfl ⟨by rw [hwriteit, hleq]; rfl, hknows⟩
  | store w =>
    obtain ⟨hw, hroom⟩ := hknows
    refine ⟨hleq, ?_, h.popped, h.readit, hwriteit, ?_, ?_⟩
    · rw [hw]
      exact h.slots.store hroom item
    · intro p' hp'
      cases hp'
      refine ⟨hroom, ?_⟩
      rw [hw]
      exact Function.update_self _ _ _
    · exact h.consumer.mono rfl List.prefix_rfl
  | flag => exact hmove _ rfl ⟨by rw [hwriteit, hleq]; rfl, hknows⟩
  | clear w =>
    obtain ⟨rfl, hroom, hitem⟩ := hknows
    exact h.clear hp hroom hitem
  | compare =>
    refine hmove _ rfl ⟨hknows, ?_⟩
    rw [decide_eq_true_iff, hwriteit, ← hleq]
    rfl
  | advance last =>
    obtain ⟨hsome, hlast⟩ := hknows
    have hnext := next_index hpos hlength (s.pushed.length - 1)
    rw [Nat.sub_add_cancel hsome] at hnext
    rw [hleq] at hlast
    have hwriteit' : s.queue.writeit = (s.pushed.length - 1) % length := hwriteit
    cases last with
    | true => exact h.writeitMoves (hnext.1 (hlast.mp rfl))
    | false =>
      have hne : add32 ((s.pushed.length - 1) % length) 1 ≠ length := by
        intro heq
        cases hlast.mpr heq
      rw [RQueue.push]
      split
      · refine h.writeitMoves ?_
        rw [hwriteit']
        exact hnext.2 hne
      · refine hmove _ rfl ⟨hsome, ?_, ?_⟩
        · rw [hwriteit', hleq]
        · rw [hwriteit', hleq]
          exact hne
  | increment w =>
    obtain ⟨hsome, hw, hne⟩ := hknows
    have hnext := next_index hpos hlength (s.pushed.length - 1)
    rw [Nat.sub_add_cancel hsome] at hnext
    rw [hleq] at hw hne
    refine h.writeitMoves ?_
    rw [hw] at hne ⊢
    exact hnext.2 hne
  | unlock =>
    refine h.producerMoves (by rw [hp]; rfl) ?_
    intro p' hp'
    cases hp'

/-! ## The steps of the consumer -/

omit hpos hlength in
lemma Inv.consumerMoves {pc : PopStep α} (hbehind : pc.behind = s.consumer.behind)
    (hknows : pc.Knows s.queue s.pushed s.popped.length) :
    Inv length { s with consumer := pc } := by
  have hreleased : State.released { s with consumer := pc } = s.released := by
    rw [State.released, State.released, hbehind]
  refine ⟨h.length_eq, ?_, h.popped, h.readit, h.writeit, ?_, hknows⟩
  · rw [hreleased]
    exact h.slots
  · rw [hreleased]
    exact h.producer

omit hpos hlength in
lemma Inv.readitMoves {item : α} {r : Nat} (hbehind : s.consumer.behind = 1)
    (hitem : s.pushed[s.popped.length]? = some item)
    (hr : r = (s.popped.length + 1) % length) :
    Inv length
      { s with
        queue := { s.queue with readit := r }
        consumer := .idle
        popped := s.popped ++ [item] } := by
  have hlen : (s.popped ++ [item]).length = s.popped.length + 1 := by simp
  have hreleased : State.released
      { s with
        queue := { s.queue with readit := r }
        consumer := .idle
        popped := s.popped ++ [item] } = s.released := by
    rw [State.released, State.released, hbehind, hlen]
    rfl
  refine ⟨h.length_eq, ?_, ?_, ?_, h.writeit, ?_, trivial⟩
  · rw [hreleased]
    exact h.slots.of_eq rfl rfl rfl
  · change s.popped ++ [item] = s.pushed.take (s.popped ++ [item]).length
    rw [hlen, List.take_add_one, hitem, ← h.popped]
    rfl
  · change r = (s.popped ++ [item]).length % length
    rw [hlen]
    exact hr
  · rw [hreleased]
    intro p hp
    exact (h.producer p hp).mono rfl rfl le_rfl

lemma Inv.pop {pc : PopStep α} (hpc : s.consumer = pc) {t : State ι α} {terminate : Bool}
    (ht : pop s terminate pc = some t) : Inv length t := by
  have hknows : pc.Knows s.queue s.pushed s.popped.length := hpc ▸ h.consumer
  have hreadit := h.readit
  have hleq := h.length_eq
  have hreleased : s.released = s.popped.length + pc.behind := by rw [State.released, hpc]
  -- a step that only moves the program counter
  have hmove : ∀ pc' : PopStep α, pc'.behind = pc.behind →
      pc'.Knows s.queue s.pushed s.popped.length → Inv length { s with consumer := pc' } :=
    fun pc' hbehind => h.consumerMoves (hbehind.trans (by rw [hpc]))
  cases pc with
  | idle => cases ht
  | got item => cases ht
  | test call =>
    obtain rfl := Option.some.inj ht
    exact hmove _ rfl (by rw [PopStep.Knows, hreadit, hleq])
  | testFree call r =>
    obtain rfl := Option.some.inj ht
    obtain rfl : r = s.popped.length % s.queue.length := hknows
    split
    · split
      · exact hmove _ rfl trivial
      · exact hmove _ rfl trivial
    · rename_i hfree
      change s.released = s.popped.length at hreleased
      rw [not_not, ← hreleased] at hfree
      exact hmove _ rfl (lt_of_eq_of_lt hreleased.symm
        (h.slots.lt_of_cleared (hleq ▸ hpos) hfree))
  | slot call =>
    obtain rfl := Option.some.inj ht
    exact hmove _ rfl ⟨by rw [hreadit, hleq], hknows⟩
  | take call r =>
    obtain ⟨hr, hsome⟩ := hknows
    obtain ⟨item, hitem, rfl⟩ := Option.map_eq_some_iff.mp ht
    have hused := (h.slots.used s.popped.length hreleased.le hsome).2
    rw [← hr, hitem] at hused
    split
    · exact hmove _ rfl hused.symm
    · exact hmove _ rfl hused.symm
  | flag item =>
    obtain rfl := Option.some.inj ht
    exact hmove _ rfl ⟨by rw [hreadit, hleq], hknows⟩
  | set item r =>
    obtain ⟨hr, hitem⟩ := hknows
    obtain rfl := Option.some.inj ht
    change s.released = s.popped.length at hreleased
    have hset := h.slots.set (by
      rw [hreleased]
      exact (List.getElem?_eq_some_iff.mp hitem).1)
    rw [hreleased, ← hr] at hset
    refine ⟨hleq, hset, h.popped, hreadit, h.writeit, ?_, hitem⟩
    intro p hp
    refine (h.producer p hp).mono rfl rfl ?_
    rw [hreleased]
    exact Nat.le_succ _
  | compare item =>
    obtain rfl := Option.some.inj ht
    refine hmove _ rfl ⟨hknows, ?_⟩
    rw [decide_eq_true_iff, hreadit, ← hleq]
  | advance item last =>
    obtain ⟨hitem, hlast⟩ := hknows
    have hnext := next_index hpos hlength s.popped.length
    rw [hleq] at hlast
    cases last with
    | true =>
      obtain rfl := Option.some.inj ht
      exact h.readitMoves (by rw [hpc]; rfl) hitem (hnext.1 (hlast.mp rfl))
    | false =>
      have hne : add32 (s.popped.length % length) 1 ≠ length := by
        intro heq
        cases hlast.mpr heq
      rw [RQueue.pop] at ht
      split at ht
      · obtain rfl := Option.some.inj ht
        refine h.readitMoves (by rw [hpc]; rfl) hitem ?_
        rw [hreadit]
        exact hnext.2 hne
      · obtain rfl := Option.some.inj ht
        refine hmove _ rfl ⟨hitem, ?_, ?_⟩
        · rw [hreadit, hleq]
        · rw [hreadit, hleq]
          exact hne
  | increment item r =>
    obtain ⟨hitem, hr, hne⟩ := hknows
    have hnext := next_index hpos hlength s.popped.length
    obtain rfl := Option.some.inj ht
    rw [hleq] at hr hne
    refine h.readitMoves (by rw [hpc]; rfl) hitem ?_
    rw [hr] at hne ⊢
    exact hnext.2 hne

/-! ## All interleavings -/

lemma Inv.step {t : State ι α} {act : Act ι α} (ht : step s act = some t) : Inv length t := by
  cases act with
  | lock p item =>
    rw [RQueue.step] at ht
    split at ht
    · rename_i hnone
      obtain rfl := Option.some.inj ht
      refine h.producerMoves (by rw [hnone]; rfl) ?_
      intro p' hp'
      cases hp'
      trivial
    · cases ht
  | push =>
    obtain ⟨⟨p, item, pc⟩, hp, rfl⟩ := Option.map_eq_some_iff.mp ht
    exact h.push hpos hlength hp
  | call call =>
    rw [RQueue.step] at ht
    split at ht
    · rename_i hidle
      obtain rfl := Option.some.inj ht
      exact h.consumerMoves (by rw [hidle]; rfl) trivial
    · rename_i hgot
      split at ht
      · obtain rfl := Option.some.inj ht
        exact h.consumerMoves (by rw [hgot]; rfl) trivial
      · cases ht
    · cases ht
  | moveReadit =>
    rw [RQueue.step] at ht
    split at ht
    · rename_i hgot
      obtain rfl := Option.some.inj ht
      have hknows := h.consumer
      rw [hgot] at hknows
      exact h.consumerMoves (by rw [hgot]; rfl) hknows
    · cases ht
  | pop terminate => exact h.pop hpos hlength rfl ht

end Steps

lemma inv_of_reach {length : Nat} {safe : Bool} {s : State ι α} (hpos : 0 < length)
    (hlength : length ≤ 2 ^ 32) (h : Reach length safe s) : Inv length s :=
  h.invariant (inv_start length safe) (fun _ _ _ hs _ hstep => hs.step hpos hlength hstep)

/-- The items that the consumer popped, or has read from their slot for good. -/
def State.taken (s : State ι α) : Nat :=
  s.popped.length +
    match s.consumer with
    | .flag _ => 1
    | .set _ _ => 1
    | .compare _ => 1
    | .advance _ _ => 1
    | .increment _ _ => 1
    | _ => 0

lemma State.released_le_taken (s : State ι α) : s.released ≤ s.taken := by
  rw [State.released, State.taken]
  cases s.consumer <;> simp [PopStep.behind]

lemma size_eq {q : RQueueQuick α} {pushed : List α} {r : Nat} (hpos : 0 < q.length)
    (h : Slots q pushed r) (hreadit : q.readit = r % q.length)
    (hwriteit : q.writeit = pushed.length % q.length) : q.size = pushed.length - r := by
  have hle := h.le
  have hle' := h.le_length
  have hlt := Nat.mod_lt r hpos
  obtain ⟨d, hd⟩ := Nat.exists_eq_add_of_le hle
  have hmod : pushed.length % q.length = (r % q.length + d) % q.length := by
    rw [hd, Nat.mod_add_mod]
  rw [RQueueQuick.size, hreadit, hwriteit]
  rcases Nat.eq_zero_or_pos d with hzero | hsome
  · -- an empty ring
    have hfree := h.unused pushed.length le_rfl (by omega)
    have heq : pushed.length % q.length = r % q.length := by rw [hd, hzero, Nat.add_zero]
    rw [if_neg (by omega), if_neg (by omega), hfree, if_pos Nat.one_ne_zero]
    omega
  rcases Nat.eq_or_lt_of_le (show d ≤ q.length by omega) with hfull | hless
  · -- a full ring
    have heq : pushed.length % q.length = r % q.length := by rw [hd, hfull, Nat.add_mod_right]
    have hused := (h.used r le_rfl (by omega)).1
    rw [heq, if_neg (by omega), if_neg (by omega), hused, if_neg (by simp)]
    omega
  rcases Nat.lt_or_ge (r % q.length + d) q.length with hstay | hwrap
  · rw [Nat.mod_eq_of_lt hstay] at hmod
    rw [if_pos (by omega)]
    omega
  · have hround : (r % q.length + d) % q.length = r % q.length + d - q.length := by
      rw [Nat.mod_eq_sub_mod hwrap]
      exact Nat.mod_eq_of_lt (by omega)
    rw [hround] at hmod
    rw [if_neg (by omega), if_pos (by omega)]
    omega

/-- In every interleaving of producers and one consumer: the items popped are the first of the
pushed ones, and the others stand in their slots with cleared flags; a producer writes to no slot
whose item the consumer has not read, and the consumer reads only slots that were written; between
operations `size` is the number of items pushed and not popped. -/
theorem reach_lossless {length : Nat} {safe : Bool} {s : State ι α} (hpos : 0 < length)
    (hlength : length ≤ 2 ^ 32) (h : Reach length safe s) :
    s.popped <+: s.pushed ∧
      (∀ j, s.taken ≤ j → j < s.pushed.length →
        s.queue.free (j % length) = 0 ∧ s.queue.buffer (j % length) = s.pushed[j]?) ∧
      (∀ p item w, s.producer = some (p, item, .store w) →
        ∀ j, s.taken ≤ j → j < s.pushed.length → j % length ≠ w) ∧
      (∀ call r, s.consumer = .take call r → (s.queue.buffer r).isSome) ∧
      (s.Quiet → s.queue.size = s.pushed.length - s.popped.length) := by
  have hinv := inv_of_reach hpos hlength h
  have hleq := hinv.length_eq
  have htaken := s.released_le_taken
  refine ⟨?_, ?_, ?_, ?_, ?_⟩
  · rw [hinv.popped]
    exact List.take_prefix _ _
  · intro j hj hj'
    have hused := hinv.slots.used j (by omega) hj'
    rw [hleq] at hused
    exact hused
  · intro p item w hp j hj hj'
    obtain ⟨hw, hroom⟩ := hinv.producer _ hp
    rw [hleq] at hw hroom
    rw [hw]
    exact slot_ne length (r := s.released) (by omega) (by omega) (by omega) hroom (by omega)
  · intro call r hpc
    have hknows := hinv.consumer
    rw [hpc] at hknows
    obtain ⟨hr, hsome⟩ := hknows
    have hreleased : s.released = s.popped.length := by
      rw [State.released, hpc]
      rfl
    rw [hr, (hinv.slots.used _ hreleased.le hsome).2, List.getElem?_eq_getElem hsome]
    rfl
  · rintro ⟨hproducer, hconsumer⟩
    have hreleased : s.released = s.popped.length := by
      rw [State.released]
      rcases hconsumer with hidle | ⟨item, hgot⟩
      · rw [hidle]
        rfl
      · rw [hgot]
        rfl
    have hslots := hinv.slots
    have hwriteit := hinv.writeit
    rw [hreleased] at hslots
    rw [hproducer, ← hleq] at hwriteit
    exact size_eq (by omega) hslots (by rw [hleq]; exact hinv.readit) hwriteit

theorem reach_lossless_example :
    ∃ s : State Nat Nat, s.popped = [7] ∧ s.pushed = [7, 8] ∧ s.popped <+: s.pushed ∧
      s.queue.size = 1 := by
  have hrun : (run step (start 1 true : State Nat Nat)
      ((Act.lock 0 7 :: List.replicate 9 Act.push) ++
        (Act.call (Call.pop false) :: List.replicate 8 (Act.pop false)) ++
        (Act.lock 1 8 :: List.replicate 9 Act.push))).any (fun s =>
          s.popped = [7] ∧ s.pushed = [7, 8] ∧ s.producer = none ∧ s.consumer = .idle) = true := by
    decide +kernel
  obtain ⟨s, hs, hend⟩ := (Option.any_eq_true _ _).mp hrun
  obtain ⟨hpopped, hpushed, hproducer, hconsumer⟩ := of_decide_eq_true hend
  have hs : Reach 1 true s := ReachBy.initial.run (fun _ _ => trivial) _ hs
  have hquiet : s.Quiet := ⟨hproducer, .inl hconsumer⟩
  obtain ⟨hfifo, -, -, -, hsize⟩ := reach_lossless (by decide) (by decide) hs
  have hone : s.queue.size = 1 := by
    rw [hsize hquiet, hpopped, hpushed]
    rfl
  exact ⟨s, hpopped, hpushed, hfifo, hone⟩

end VoipMonitor.RQueue
