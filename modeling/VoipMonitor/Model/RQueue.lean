import Mathlib.Logic.Function.Basic
import VoipMonitor.Library.Bytes
import VoipMonitor.Library.Runs

/-!
# The ring between threads (`rqueue_quick`, `rqueue.h`)

A flag for each slot says whether it is free. Producers take the lock and write at `writeit`, the
consumer reads at `readit` without the lock. Every read and every write of the flags, the slots and
the two indexes is one step.
-/

namespace VoipMonitor.RQueue
open VoipMonitor.Library

variable {ι α : Type}

/-- The members of the queue. `safe` is `RQUEUE_SAFE`. A slot is `none` until it is written. -/
structure RQueueQuick (α : Type) where
  length : Nat
  safe : Bool
  buffer : Nat → Option α
  free : Nat → Nat
  readit : Nat
  writeit : Nat

/-- Where the producer that has the lock stands. -/
inductive PushStep where
  | test
  | testFree (w : Nat)
  | slot
  | store (w : Nat)
  | flag
  | clear (w : Nat)
  | compare
  | advance (last : Bool)
  | increment (w : Nat)
  | unlock

/-- The call of the consumer: `pop` with `waitForFree` or without, which `popq` does too, or
`get`. -/
inductive Call where
  | pop (waitForFree : Bool)
  | get
deriving DecidableEq, Repr

/-- Where the consumer stands. Behind `get` it has an item that is still in the queue. -/
inductive PopStep (α : Type) where
  | idle
  | test (call : Call)
  | testFree (call : Call) (r : Nat)
  | slot (call : Call)
  | take (call : Call) (r : Nat)
  | got (item : α)
  | flag (item : α)
  | set (item : α) (r : Nat)
  | compare (item : α)
  | advance (item : α) (last : Bool)
  | increment (item : α) (r : Nat)
deriving DecidableEq, Repr

/-- The queue with its threads, the items of the pushes in the order in which their flag was
cleared, and the items popped. -/
structure State (ι α : Type) where
  queue : RQueueQuick α
  producer : Option (ι × α × PushStep)
  consumer : PopStep α
  pushed : List α
  popped : List α

def RQueueQuick.new (length : Nat) (safe : Bool) : RQueueQuick α :=
  ⟨length, safe, fun _ => none, fun _ => 1, 0, 0⟩

def start (length : Nat) (safe : Bool) : State ι α := ⟨.new length safe, none, .idle, [], []⟩

def RQueueQuick.size (q : RQueueQuick α) : Nat :=
  if q.writeit > q.readit then q.writeit - q.readit
  else if q.writeit < q.readit then q.writeit + q.length - q.readit
  else if q.free q.writeit ≠ 0 then 0
  else q.length

/-- The next step of `push`. A full ring is left without the lock, to try again or not. -/
def push (s : State ι α) (p : ι) (item : α) : PushStep → State ι α
  | .test => { s with producer := some (p, item, .testFree s.queue.writeit) }
  | .testFree w =>
    { s with producer := some (p, item, if s.queue.free w ≠ 1 then .unlock else .slot) }
  | .slot => { s with producer := some (p, item, .store s.queue.writeit) }
  | .store w =>
    { s with
      queue := { s.queue with buffer := Function.update s.queue.buffer w (some item) }
      producer := some (p, item, .flag) }
  | .flag => { s with producer := some (p, item, .clear s.queue.writeit) }
  | .clear w =>
    { s with
      queue := { s.queue with free := Function.update s.queue.free w 0 }
      producer := some (p, item, .compare)
      pushed := s.pushed ++ [item] }
  | .compare =>
    { s with producer := some (p, item, .advance (add32 s.queue.writeit 1 = s.queue.length)) }
  | .advance true =>
    { s with queue := { s.queue with writeit := 0 }, producer := some (p, item, .unlock) }
  | .advance false =>
    if s.queue.safe then
      { s with
        queue := { s.queue with writeit := add32 s.queue.writeit 1 }
        producer := some (p, item, .unlock) }
    else { s with producer := some (p, item, .increment s.queue.writeit) }
  | .increment w =>
    { s with
      queue := { s.queue with writeit := add32 w 1 }
      producer := some (p, item, .unlock) }
  | .unlock => { s with producer := none }

/-- The next step of the consumer; none when it stands between two calls. `terminate` is what it
reads from `term_rqueue`. -/
def pop (s : State ι α) (terminate : Bool) : PopStep α → Option (State ι α)
  | .idle => none
  | .got _ => none
  | .test call => some { s with consumer := .testFree call s.queue.readit }
  | .testFree call r =>
    some { s with
      consumer :=
        if s.queue.free r ≠ 0 then
          if call = .pop true ∧ terminate = false then .test call else .idle
        else .slot call }
  | .slot call => some { s with consumer := .take call s.queue.readit }
  | .take call r =>
    -- a slot that was never written is no item
    (s.queue.buffer r).map (fun item =>
      { s with consumer := if call = .get then .got item else .flag item })
  | .flag item => some { s with consumer := .set item s.queue.readit }
  | .set item r =>
    some { s with
      queue := { s.queue with
        free := Function.update s.queue.free r (if s.queue.safe then s.queue.free r + 1 else 1) }
      consumer := .compare item }
  | .compare item =>
    some { s with consumer := .advance item (add32 s.queue.readit 1 = s.queue.length) }
  | .advance item true =>
    some { s with
      queue := { s.queue with readit := 0 }
      consumer := .idle
      popped := s.popped ++ [item] }
  | .advance item false =>
    if s.queue.safe then
      some { s with
        queue := { s.queue with readit := add32 s.queue.readit 1 }
        consumer := .idle
        popped := s.popped ++ [item] }
    else some { s with consumer := .increment item s.queue.readit }
  | .increment item r =>
    some { s with
      queue := { s.queue with readit := add32 r 1 }
      consumer := .idle
      popped := s.popped ++ [item] }

/-- The steps of the threads. -/
inductive Act (ι α : Type) where
  | lock (p : ι) (item : α)
  | push
  | call (call : Call)
  | moveReadit
  | pop (terminate : Bool)

/-- A producer waits for the lock. The consumer calls when it stands between two calls;
`moveReadit` follows a `get`. -/
def step (s : State ι α) : Act ι α → Option (State ι α)
  | .lock p item =>
    match s.producer with
    | none => some { s with producer := some (p, item, .test) }
    | some _ => none
  | .push => s.producer.map (fun (p, item, pc) => push s p item pc)
  | .call call =>
    match s.consumer with
    | .idle => some { s with consumer := .test call }
    | .got _ => if call = .get then some { s with consumer := .test call } else none
    | _ => none
  | .moveReadit =>
    match s.consumer with
    | .got item => some { s with consumer := .flag item }
    | _ => none
  | .pop terminate => pop s terminate s.consumer

def Reach (length : Nat) (safe : Bool) : State ι α → Prop :=
  ReachBy step (fun _ _ => True) (start length safe)

def State.Quiet (s : State ι α) : Prop :=
  s.producer = none ∧ (s.consumer = .idle ∨ ∃ item, s.consumer = .got item)

end VoipMonitor.RQueue
