import VoipMonitor.Library.Runs
import VoipMonitor.Model.CallsHash

/-!
# Deferred changes of the RTP table (`hash_modify_queue`)

With a positive `hash_modify_queue_length_ms` the changes of the table wait in a queue and are
applied together. A step is a section under one of the locks: `hashAdd` and the removal of one
branch run under `hash_add_lock`, and `destroyCall` is a sequence of sections.
-/

namespace VoipMonitor.HashQueue
open VoipMonitor.Library VoipMonitor.CallsHash

abbrev CallId := Nat

structure CallConfig where
  hashModifyQueueLengthMs : Nat
  sdpMultiplication : Nat := 3
  optRtcp : Bool := true
  callOf : BranchId → CallId
  branchesOf : CallId → List BranchId
  mem_branchesOf : ∀ b k, b ∈ branchesOf k ↔ callOf b = k

inductive HashModifyOper where
  | add (e : Entry)
  | remove (r : Removal)
  | removeCall (c : BranchId)

/-- `sHashModifyData`. -/
structure HashModifyData where
  oper : HashModifyOper
  useHashQueueCounter : Bool

def HashModifyData.cBranch (d : HashModifyData) : BranchId :=
  match d.oper with
  | .add e => e.cBranch
  | .remove r => r.cBranch
  | .removeCall c => c

/-- Where `destroyCall` stands in its loops over the branches and their addresses. -/
inductive DestroyStep where
  | branch (b : BranchId)
  | loop (b : BranchId) (i : Nat)
  | rtcp (b : BranchId) (i : Nat)
deriving DecidableEq, Repr

/-- `branch` has the members of the branches that the table reads, `ipPort` the addresses of a
branch. `closed` holds of the calls that passed the closing test, and `destroying` has what is
left of `destroyCall`, which is nothing once it has returned. -/
structure HashState where
  table : Table := {}
  hashModifyQueue : List HashModifyData := []
  hashModifyQueueBeginMs : Nat := 0
  hashQueueCounter : CallId → Int := fun _ => 0
  branch : BranchId → BranchState := fun _ => {}
  endCallHashRemoved : BranchId → Bool := fun _ => false
  ipPort : BranchId → List (VmIP × VmPort) := fun _ => []
  closed : CallId → Bool := fun _ => false
  destroying : CallId → Option (List DestroyStep) := fun _ => none

section Queue
variable (cfg : CallConfig)

/-- One round of the loop of `_applyHashModifyQueue`. -/
def applyItem (s : HashState) (d : HashModifyData) : HashState :=
  let table := match d.oper with
    | .add e => hashAdd cfg.sdpMultiplication s.branch s.table e
    | .remove r => (hashRemove s.table r).1
    | .removeCall c => (hashRemoveCall s.table c).1
  { s with
    table := table
    hashQueueCounter := fun k =>
      if d.useHashQueueCounter ∧ k = cfg.callOf d.cBranch then s.hashQueueCounter k - 1
      else s.hashQueueCounter k }

def applyHashModifyQueue_ (now : Nat) (setBegin : Bool) (s : HashState) : HashState :=
  if s.hashModifyQueueBeginMs ≠ 0 then
    if now ≥ s.hashModifyQueueBeginMs + cfg.hashModifyQueueLengthMs then
      { s.hashModifyQueue.foldl (applyItem cfg) s with
        hashModifyQueue := []
        hashModifyQueueBeginMs := 0 }
    else s
  else if setBegin then { s with hashModifyQueueBeginMs := now }
  else s

def applyHashModifyQueue (now : Nat) (setBegin : Bool) (s : HashState) : HashState :=
  if s.hashModifyQueue ≠ [] then applyHashModifyQueue_ cfg now setBegin s else s

/-- A change is queued and counted, and the queue is applied when it is time. -/
def pushHashModify (now : Nat) (s : HashState) (d : HashModifyData) : HashState :=
  applyHashModifyQueue_ cfg now true { s with
    hashModifyQueue := s.hashModifyQueue ++ [d]
    hashQueueCounter := fun k =>
      if d.useHashQueueCounter ∧ k = cfg.callOf d.cBranch then s.hashQueueCounter k + 1
      else s.hashQueueCounter k }

/-- The widths of `sHashModifyData`. -/
def queuedEntry (e : Entry) : Entry :=
  { e with
    timeS := e.timeS % 2 ^ 32
    iscaller := Int.bmod e.iscaller (2 ^ 8)
    isRtcp := (Int.bmod e.isRtcp (2 ^ 8) % 2 ^ 16).toNat }

def calltableHashAdd (now : Nat) (s : HashState) (e : Entry) : HashState :=
  if (s.branch e.cBranch).endCallRtp then s
  else if cfg.hashModifyQueueLengthMs ≠ 0 then
    pushHashModify cfg now s ⟨.add (queuedEntry e), true⟩
  else { s with table := hashAdd cfg.sdpMultiplication s.branch s.table e }

def calltableHashRemove (now : Nat) (s : HashState) (r : Removal) (useHashQueueCounter : Bool) :
    HashState :=
  if cfg.hashModifyQueueLengthMs ≠ 0 then pushHashModify cfg now s ⟨.remove r, useHashQueueCounter⟩
  else { s with table := (hashRemove s.table r).1 }

def rtpRemoval (b : BranchId) (a : VmIP × VmPort) : Removal :=
  { cBranch := b, addr := a.1, port := a.2, ignoreRtcpCheck := true }

def rtcpRemoval (b : BranchId) (a : VmIP × VmPort) : Removal :=
  { cBranch := b, addr := a.1, port := a.2 + 1, rtcp := true, ignoreRtcpCheck := true }

/-- The loop of `Call::hashRemove` over the addresses; `clock` gives the time of each call. -/
def removeIpPorts (b : BranchId) (useHashQueueCounter : Bool) (clock : Nat → Nat) :
    HashState → List (VmIP × VmPort) → HashState
  | s, [] => s
  | s, a :: addrs =>
    let s := calltableHashRemove cfg (clock (2 * addrs.length)) s (rtpRemoval b a)
      useHashQueueCounter
    let s := if cfg.optRtcp then
        calltableHashRemove cfg (clock (2 * addrs.length + 1)) s (rtcpRemoval b a)
          useHashQueueCounter
      else s
    removeIpPorts b useHashQueueCounter clock s addrs

def callHashRemove (b : BranchId) (useHashQueueCounter : Bool) (clock : Nat → Nat)
    (s : HashState) : HashState :=
  let s := removeIpPorts cfg b useHashQueueCounter clock s (s.ipPort b)
  if cfg.hashModifyQueueLengthMs = 0 then { s with table := (hashRemoveCall s.table b).1 } else s

/-- `removeFindTables` of a branch with `set_end_call`. -/
def endCall (b : BranchId) (clock : Nat → Nat) (s : HashState) : HashState :=
  let s := { s with
    branch := fun c => if c = b then { s.branch c with endCallRtp := true } else s.branch c }
  if cfg.hashModifyQueueLengthMs ≠ 0 ∧ s.endCallHashRemoved b then s
  else
    let s := callHashRemove cfg b true clock s
    { s with endCallHashRemoved := fun c => if c = b then true else s.endCallHashRemoved c }

/-- The next section of `destroyCall`: what it does, and what is left after it. -/
def destroySection (now : Nat) (s : HashState) (steps : List DestroyStep) :
    Option (HashState × List DestroyStep) :=
  match steps with
  | [] => none
  | .branch b :: rest =>
    if cfg.hashModifyQueueLengthMs ≠ 0 then
      some ({ s with table := (hashRemoveCall s.table b).1 }, .loop b 0 :: rest)
    else some (s, .loop b 0 :: rest)
  | .loop b i :: rest =>
    match (s.ipPort b)[i]? with
    | some a =>
      some (calltableHashRemove cfg now s (rtpRemoval b a) false,
        (if cfg.optRtcp then .rtcp b i else .loop b (i + 1)) :: rest)
    | none =>
      if cfg.hashModifyQueueLengthMs = 0 then
        some ({ s with table := (hashRemoveCall s.table b).1 }, rest)
      else some (s, rest)
  | .rtcp b i :: rest =>
    match (s.ipPort b)[i]? with
    | some a => some (calltableHashRemove cfg now s (rtcpRemoval b a) false, .loop b (i + 1) :: rest)
    | none => some (s, .loop b (i + 1) :: rest)

end Queue

/-- The steps of the threads. `change` stands for the packet threads that set the other members of
a branch and its addresses. The closing test comes after the removal of all branches of the call;
`otherTests` are the tests that do not concern the queue. -/
inductive HashQueueAct where
  | hashAdd (now : Nat) (e : Entry)
  | endCall (b : BranchId) (clock : Nat → Nat)
  | closingTest (k : CallId) (otherTests : Bool)
  | destroyCall (k : CallId)
  | destroyNext (k : CallId) (now : Nat)
  | apply (now : Nat) (setBegin : Bool)
  | change (b : BranchId) (state : BranchState) (addrs : List (VmIP × VmPort))

def hashQueueStep (cfg : CallConfig) (s : HashState) : HashQueueAct → Option HashState
  | .hashAdd now e => some (calltableHashAdd cfg now s e)
  | .endCall b clock => some (endCall cfg b clock s)
  | .closingTest k otherTests =>
    if (cfg.branchesOf k).all (fun b => (s.branch b).endCallRtp && s.endCallHashRemoved b) then
      let rejected := cfg.hashModifyQueueLengthMs ≠ 0 ∧ s.hashQueueCounter k > 0
      if otherTests ∧ ¬rejected then
        some { s with closed := fun c => if c = k then true else s.closed c }
      else some s
    else none
  | .destroyCall k =>
    if s.closed k ∧ s.destroying k = none then
      some { s with destroying := fun c =>
        if c = k then some ((cfg.branchesOf k).map .branch) else s.destroying c }
    else none
  | .destroyNext k now =>
    match s.destroying k with
    | none => none
    | some steps =>
      (destroySection cfg now s steps).map (fun r =>
        { r.1 with destroying := fun c => if c = k then some r.2 else r.1.destroying c })
  | .apply now setBegin => some (applyHashModifyQueue cfg now setBegin s)
  | .change b state addrs =>
    some { s with
      branch := fun c =>
        if c = b then { state with endCallRtp := (s.branch c).endCallRtp } else s.branch c
      ipPort := fun c => if c = b then addrs else s.ipPort c }

def hashQueueRun (cfg : CallConfig) : HashState → List HashQueueAct → Option HashState :=
  run (hashQueueStep cfg)

end VoipMonitor.HashQueue
