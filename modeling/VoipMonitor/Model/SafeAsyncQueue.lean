import VoipMonitor.Library.Bytes
import VoipMonitor.Library.Runs

/-!
# The queue between threads (`SafeAsyncQueue`, `tools.h`)

Items are pushed to `push_queue`. From time to time the timer thread puts this batch behind the
others in `queueItems`, and `pop` takes a batch from there into `pop_queue`. A section
under a lock is one step; between the steps of an operation the other threads go on.
-/

namespace VoipMonitor.AsyncQueue
open VoipMonitor.Library

variable {α : Type}

/-- Where the thread that has the lock of `pop_queue` stands. -/
inductive PopStep where
  | idle
  | refill (remove : Bool)
  | take (remove : Bool)
  | decSize
deriving DecidableEq, Repr

/-- Where the timer thread stands. Behind `shift` it holds the batch without any lock. -/
inductive TimerStep (α : Type) where
  | idle
  | shift (timeMs : Nat)
  | handOver (timeMs : Nat) (batch : Option (List α))
deriving DecidableEq, Repr

/-- The members of the queue; an absent pointer is `none`. `pushing` says that a producer has the
lock of `push_queue`. -/
structure SafeAsyncQueue (α : Type) where
  shiftIntervalMs : Nat := 500
  pushQueue : Option (List α) := none
  popQueue : Option (List α) := none
  queueItems : List (Option (List α)) := []
  lastShiftTimeMs : Nat := 0
  size : Nat := 0
  pushing : Bool := false
  popping : PopStep := .idle
  timer : TimerStep α := .idle

/-- What one call of `pop` gave: whether it removes, and the item. -/
structure Answer (α : Type) where
  remove : Bool
  item : Option α
deriving DecidableEq, Repr

namespace SafeAsyncQueue

variable (q : SafeAsyncQueue α)

/-- `push` up to `incSize`. -/
def push (item : α) : SafeAsyncQueue α :=
  { q with pushQueue := some (q.pushQueue.getD [] ++ [item]), pushing := true }

def incSize : SafeAsyncQueue α := { q with size := add32 q.size 1, pushing := false }

/-- `pop` up to the section on `queueItems`. -/
def popStart (remove : Bool) : SafeAsyncQueue α :=
  if q.popQueue.getD [] = [] then { q with popQueue := none, popping := .refill remove }
  else { q with popping := .take remove }

def popRefill (remove : Bool) : SafeAsyncQueue α :=
  match q.queueItems with
  | [] => { q with popping := .take remove }
  | front :: rest => { q with popQueue := front, queueItems := rest, popping := .take remove }

/-- The rest of `pop` up to `decSize`, with what it returns. -/
def popTake (remove : Bool) : SafeAsyncQueue α × Answer α :=
  match q.popQueue.getD [] with
  | [] => ({ q with popping := .idle }, ⟨remove, none⟩)
  | item :: rest =>
    if remove then
      ({ q with popQueue := if rest = [] then none else some rest, popping := .decSize },
        ⟨remove, some item⟩)
    else ({ q with popping := .idle }, ⟨remove, some item⟩)

def decSize : SafeAsyncQueue α :=
  { q with size := if q.size > 0 then q.size - 1 else q.size, popping := .idle }

/-- `timerEv` up to the first section of `shiftPush`. The test of `push_queue` has no lock. -/
def timerEv (timeMs : Nat) : SafeAsyncQueue α :=
  if timeMs ≥ q.lastShiftTimeMs + q.shiftIntervalMs then
    if q.pushQueue.getD [] = [] then { q with lastShiftTimeMs := timeMs }
    else { q with timer := .shift timeMs }
  else q

def shiftPush (timeMs : Nat) : SafeAsyncQueue α :=
  { q with pushQueue := none, timer := .handOver timeMs q.pushQueue }

def shiftHandOver (timeMs : Nat) (batch : Option (List α)) : SafeAsyncQueue α :=
  { q with queueItems := q.queueItems ++ [batch], timer := .idle, lastShiftTimeMs := timeMs }

def waiting : List α :=
  q.popQueue.getD [] ++ (q.queueItems.map (fun batch => batch.getD [])).flatten ++
    (match q.timer with
      | .handOver _ batch => batch.getD []
      | _ => []) ++
    q.pushQueue.getD []

def Quiet : Prop := q.pushing = false ∧ q.popping = .idle ∧ q.timer = .idle

end SafeAsyncQueue

/-- The steps of the threads. -/
inductive Act (α : Type) where
  | push (item : α)
  | incSize
  | pop (remove : Bool)
  | popRefill
  | popTake
  | decSize
  | timerEv (timeMs : Nat)
  | shiftPush
  | shiftHandOver

/-- A queue with the items pushed, the answers of `pop` and the greatest number of items that
were in it at once. -/
structure State (α : Type) where
  queue : SafeAsyncQueue α
  pushed : List α := []
  answers : List (Answer α) := []
  mostWaiting : Nat := 0

def State.removed (s : State α) : List α :=
  (s.answers.filter (fun a => a.remove)).filterMap (fun a => a.item)

def start (shiftIntervalMs : Nat) : State α := { queue := { shiftIntervalMs := shiftIntervalMs } }

/-- A step waits for its lock: a producer and the first section of `shiftPush` for that of
`push_queue`, `pop` for that of `pop_queue`. -/
def step (s : State α) : Act α → Option (State α)
  | .push item =>
    if s.queue.pushing then none
    else
      let q := s.queue.push item
      some { s with
        queue := q
        pushed := s.pushed ++ [item]
        mostWaiting := max s.mostWaiting q.waiting.length }
  | .incSize => if s.queue.pushing then some { s with queue := s.queue.incSize } else none
  | .pop remove =>
    if s.queue.popping = .idle then some { s with queue := s.queue.popStart remove } else none
  | .popRefill =>
    match s.queue.popping with
    | .refill remove => some { s with queue := s.queue.popRefill remove }
    | _ => none
  | .popTake =>
    match s.queue.popping with
    | .take remove =>
      let r := s.queue.popTake remove
      some { s with queue := r.1, answers := s.answers ++ [r.2] }
    | _ => none
  | .decSize =>
    if s.queue.popping = .decSize then some { s with queue := s.queue.decSize } else none
  | .timerEv timeMs =>
    match s.queue.timer with
    | .idle => some { s with queue := s.queue.timerEv timeMs }
    | _ => none
  | .shiftPush =>
    match s.queue.timer with
    | .shift timeMs =>
      if s.queue.pushing then none else some { s with queue := s.queue.shiftPush timeMs }
    | _ => none
  | .shiftHandOver =>
    match s.queue.timer with
    | .handOver timeMs batch => some { s with queue := s.queue.shiftHandOver timeMs batch }
    | _ => none

def Reach (shiftIntervalMs : Nat) : State α → Prop :=
  ReachBy step (fun _ _ => True) (start shiftIntervalMs)

end VoipMonitor.AsyncQueue
