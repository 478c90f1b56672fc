import Mathlib.Data.List.Lex
import Mathlib.Data.Sum.Order
import Mathlib.Data.UInt

/-!
# The table that routes RTP to calls (`Calltable::calls_hash`)

A bucket is a list of nodes, one for an address and port, and a node has the list of the call
branches that expect packets there. A branch counts in `rtp_ip_port_counter` the entries that
refer to it. Branches are pointers, given by numbers; the nodes of the two linked lists are the
elements of lists, and unlinking a node under the walk is leaving the element out.
-/

namespace VoipMonitor.CallsHash

inductive VmIP where
  | v4 (n : UInt32)
  | v6 (w0 w1 w2 w3 : UInt32)
deriving DecidableEq, Repr

def VmIP.getHashNumber : VmIP → UInt32
  | .v4 n => n
  | .v6 _ _ _ w3 => w3

abbrev VmPort := UInt16

def maxNode : Nat := 150000

def tuplehash (addr : UInt32) (port : UInt16) : Nat :=
  let key := addr * port.toUInt32
  let key := key + ~~~(key <<< 15)
  let key := key ^^^ (key >>> 10)
  let key := key + (key <<< 3)
  let key := key ^^^ (key >>> 6)
  let key := key + ~~~(key <<< 11)
  let key := key ^^^ (key >>> 16)
  key.toNat % maxNode

structure SdpFlags where
  mediaType : Nat := 0
  rtcpMux : Bool := false
  protocol : Int := 0
deriving DecidableEq, Repr

abbrev BranchId := Nat

structure NodeCallRtp where
  cBranch : BranchId
  iscaller : Int := 0
  isRtcp : Nat := 0
  sdpFlags : SdpFlags := {}

structure NodeCallRtpIpPort where
  addr : VmIP
  port : VmPort
  calls : List NodeCallRtp

/-- The members of a branch and of its call that the table reads: `end_call_rtp`,
`destroy_call_at`, `seenbye` and `lastSIPresponseNum`. -/
structure BranchState where
  endCallRtp : Bool := false
  destroyCallAt : Int := 0
  seenbye : Bool := false
  lastSIPresponseNum : Int := 0

/-- `rtp_ip_port_counter` of every branch. -/
abbrev Counters := BranchId → Int

def Counters.inc (n : Counters) (c : BranchId) : Counters := fun b => if b = c then n b + 1 else n b

def Counters.dec (n : Counters) (c : BranchId) : Counters := fun b => if b = c then n b - 1 else n b

structure Table where
  callsHash : Nat → List NodeCallRtpIpPort := fun _ => []
  rtpIpPortCounter : Counters := fun _ => 0

def Table.setBucket (t : Table) (h : Nat) (nodes : List NodeCallRtpIpPort) (n : Counters) : Table where
  callsHash := fun k => if k = h then nodes else t.callsHash k
  rtpIpPortCounter := n

/-- The arguments of `_hashAdd`. -/
structure Entry where
  addr : VmIP
  port : VmPort
  timeS : Int := 0
  cBranch : BranchId
  iscaller : Int := 0
  isRtcp : Nat := 0
  sdpFlags : SdpFlags := {}

def Entry.nodeCall (e : Entry) : NodeCallRtp where
  cBranch := e.cBranch
  iscaller := Int.bmod e.iscaller (2 ^ 8)
  isRtcp := e.isRtcp % 2 ^ 16
  sdpFlags := e.sdpFlags

def insertNodeCall (calls : List NodeCallRtp) (n : Counters) (e : Entry) :
    List NodeCallRtp × Counters :=
  (e.nodeCall :: calls, n.inc e.cBranch)

def replaceNodeCall (node : NodeCallRtp) (n : Counters) (e : Entry) : NodeCallRtp × Counters :=
  (e.nodeCall, (n.inc e.cBranch).dec node.cBranch)

/-- The call of the branch waits for its end and no longer needs the packets. -/
def expired (env : BranchId → BranchState) (timeS : Int) (c : BranchId) : Bool :=
  (env c).destroyCallAt ≠ 0 &&
    ((env c).seenbye || (env c).lastSIPresponseNum.tdiv 10 = 48 ||
      (timeS ≠ 0 && timeS > (env c).destroyCallAt))

structure Walk where
  calls : List NodeCallRtp
  counters : Counters
  found : Bool
  count : Nat

def walkCalls (env : BranchId → BranchState) (e : Entry) (n : Counters) : List NodeCallRtp → Walk
  | [] => ⟨[], n, false, 0⟩
  | nodeCall :: calls =>
    if expired env e.timeS nodeCall.cBranch then walkCalls env e (n.dec nodeCall.cBranch) calls
    else
      let w := walkCalls env e n calls
      if nodeCall.cBranch = e.cBranch then
        ⟨{ nodeCall with sdpFlags := e.sdpFlags } :: w.calls, w.counters, true, w.count + 1⟩
      else ⟨nodeCall :: w.calls, w.counters, w.found, w.count + 1⟩

/-- What `_hashAdd` does with the calls of the node of its address and port. -/
def addToCalls (sdpMultiplication : Nat) (env : BranchId → BranchState) (e : Entry) (n : Counters)
    (calls : List NodeCallRtp) : List NodeCallRtp × Counters :=
  let w := walkCalls env e n calls
  if w.found then (w.calls, w.counters)
  else
    match decide (sdpMultiplication = 0 ∧ w.count = 1), w.calls with
    | true, first :: rest =>
      let r := replaceNodeCall first w.counters e
      (r.1 :: rest, r.2)
    | _, _ =>
      if sdpMultiplication > 0 ∧ w.count ≥ sdpMultiplication then (w.calls, w.counters)
      else insertNodeCall w.calls w.counters e

/-- The walk of `_hashAdd` over a bucket; there is no result without a node of the address and
port. -/
def addToBucket (sdpMultiplication : Nat) (env : BranchId → BranchState) (e : Entry)
    (n : Counters) : List NodeCallRtpIpPort → Option (List NodeCallRtpIpPort × Counters)
  | [] => none
  | node :: nodes =>
    if node.port = e.port ∧ node.addr = e.addr then
      let r := addToCalls sdpMultiplication env e n node.calls
      some ({ node with calls := r.1 } :: nodes, r.2)
    else (addToBucket sdpMultiplication env e n nodes).map (fun r => (node :: r.1, r.2))

def hashAdd (sdpMultiplication : Nat) (env : BranchId → BranchState) (t : Table) (e : Entry) :
    Table :=
  if (env e.cBranch).endCallRtp then t
  else
    let h := tuplehash e.addr.getHashNumber e.port
    match addToBucket sdpMultiplication env e t.rtpIpPortCounter (t.callsHash h) with
    | some r => t.setBucket h r.1 r.2
    | none =>
      let r := insertNodeCall [] t.rtpIpPortCounter e
      t.setBucket h (⟨e.addr, e.port, r.1⟩ :: t.callsHash h) r.2

/-- The arguments of `_hashRemove` for an address and port. -/
structure Removal where
  cBranch : BranchId
  addr : VmIP
  port : VmPort
  rtcp : Bool := false
  ignoreRtcpCheck : Bool := false

def Removal.matches (r : Removal) (nodeCall : NodeCallRtp) : Bool :=
  nodeCall.cBranch = r.cBranch &&
    (r.ignoreRtcpCheck || !r.rtcp ||
      (r.rtcp && (nodeCall.isRtcp ≠ 0 || !nodeCall.sdpFlags.rtcpMux)))

def removeFromCalls (r : Removal) (n : Counters) :
    List NodeCallRtp → List NodeCallRtp × Counters × Nat
  | [] => ([], n, 0)
  | nodeCall :: calls =>
    if r.matches nodeCall then (calls, n.dec nodeCall.cBranch, 1)
    else
      let q := removeFromCalls r n calls
      (nodeCall :: q.1, q.2)

def removeFromBucket (r : Removal) (n : Counters) :
    List NodeCallRtpIpPort → List NodeCallRtpIpPort × Counters × Nat
  | [] => ([], n, 0)
  | node :: nodes =>
    if node.port = r.port ∧ node.addr = r.addr then
      let q := removeFromCalls r n node.calls
      (if q.1 = [] then nodes else { node with calls := q.1 } :: nodes, q.2)
    else
      let q := removeFromBucket r n nodes
      (node :: q.1, q.2)

/-- `_hashRemove(c_branch, addr, port, rtcp, ignore_rtcp_check)` with its result. -/
def hashRemove (t : Table) (r : Removal) : Table × Nat :=
  let h := tuplehash r.addr.getHashNumber r.port
  let q := removeFromBucket r t.rtpIpPortCounter (t.callsHash h)
  (t.setBucket h q.1 q.2.1, q.2.2)

def sweepCalls (c : BranchId) (n : Counters) :
    List NodeCallRtp → List NodeCallRtp × Counters × Nat
  | [] => ([], n, 0)
  | nodeCall :: calls =>
    if nodeCall.cBranch = c then
      let q := sweepCalls c (n.dec nodeCall.cBranch) calls
      (q.1, q.2.1, q.2.2 + 1)
    else
      let q := sweepCalls c n calls
      (nodeCall :: q.1, q.2)

def sweepBucket (c : BranchId) (n : Counters) :
    List NodeCallRtpIpPort → List NodeCallRtpIpPort × Counters × Nat
  | [] => ([], n, 0)
  | node :: nodes =>
    let q := sweepCalls c n node.calls
    let r := sweepBucket c q.2.1 nodes
    (if q.1 = [] then r.1 else { node with calls := q.1 } :: r.1, r.2.1, q.2.2 + r.2.2)

/-- The first `k` rounds of the loop over the buckets. -/
def sweepTable (c : BranchId) (t : Table) : Nat → Table × Nat
  | 0 => (t, 0)
  | k + 1 =>
    let s := sweepTable c t k
    let q := sweepBucket c s.1.rtpIpPortCounter (s.1.callsHash k)
    (s.1.setBucket k q.1 q.2.1, s.2 + q.2.2)

/-- `_hashRemove(c_branch)` with its result. -/
def hashRemoveCall (t : Table) (c : BranchId) : Table × Nat :=
  if t.rtpIpPortCounter c ≠ 0 then sweepTable c t maxNode else (t, 0)

def hashfindByIpPort (t : Table) (addr : VmIP) (port : VmPort) : Option (List NodeCallRtp) :=
  ((t.callsHash (tuplehash addr.getHashNumber port)).find?
    (fun node => node.port = port ∧ node.addr = addr)).map NodeCallRtpIpPort.calls

/-- The operations on the table. The states of the branches may be different at each of them. -/
inductive HashAct where
  | add (env : BranchId → BranchState) (e : Entry)
  | remove (r : Removal)
  | removeCall (c : BranchId)

def hashStep (sdpMultiplication : Nat) (t : Table) : HashAct → Table
  | .add env e => hashAdd sdpMultiplication env t e
  | .remove r => (hashRemove t r).1
  | .removeCall c => (hashRemoveCall t c).1

end VoipMonitor.CallsHash

/-!
# Addresses and networks (`struct vmIP`)

The words of an IPv6 address are in the byte order of the host and are compared with `memcmp`,
so the order of IPv6 addresses is that of their bytes in memory (x86: the lowest byte of a word
comes first).
-/

namespace VoipMonitor.CallsHash.VmIP

def bits : VmIP → Nat
  | .v4 _ => 32
  | .v6 .. => 128

def isSet : VmIP → Bool
  | .v4 n => n ≠ 0
  | .v6 w0 w1 w2 w3 => w0 ≠ 0 || w1 ≠ 0 || w2 ≠ 0 || w3 ≠ 0

def memBytes (w : UInt32) : List Nat :=
  [w.toNat % 2 ^ 8, (w.toNat >>> 8) % 2 ^ 8, (w.toNat >>> 16) % 2 ^ 8, (w.toNat >>> 24) % 2 ^ 8]

def memWords (w0 w1 w2 w3 : UInt32) : List Nat :=
  memBytes w0 ++ memBytes w1 ++ memBytes w2 ++ memBytes w3

/-- `operator <`. -/
def lt : VmIP → VmIP → Bool
  | .v4 a, .v4 b => a < b
  | .v4 _, .v6 .. => true
  | .v6 .., .v4 _ => false
  | .v6 a0 a1 a2 a3, .v6 b0 b1 b2 b3 => memWords a0 a1 a2 a3 < memWords b0 b1 b2 b3

def sortKey : VmIP → ℕ ⊕ₗ List ℕ
  | .v4 n => Sum.inlₗ n.toNat
  | .v6 w0 w1 w2 w3 => Sum.inrₗ (memWords w0 w1 w2 w3)

/-- `_and` and `mask`. An IPv4 address overlays the last word of an IPv6 address; the other words
of an IPv4 mask are not set, and no caller has an IPv4 mask for an IPv6 address. -/
def mask : VmIP → VmIP → VmIP
  | .v4 a, .v4 m => .v4 (a &&& m)
  | .v4 a, .v6 _ _ _ m3 => .v4 (a &&& m3)
  | .v6 a0 a1 a2 a3, .v6 m0 m1 m2 m3 => .v6 (a0 &&& m0) (a1 &&& m1) (a2 &&& m2) (a3 &&& m3)
  | .v6 _ _ _ a3, .v4 m => .v6 0 0 0 (a3 &&& m)

/-- A word of an IPv6 mask that has `n` bits from its first one on. -/
def maskWord (n : Int) : UInt32 :=
  if n ≤ 0 then 0 else if n ≥ 32 then 0xFFFFFFFF else 0xFFFFFFFF <<< UInt32.ofNat (32 - n).toNat

/-- A mask length of 0 stands for all bits. -/
def networkMask (a : VmIP) (mask : Nat) : VmIP :=
  match a with
  | .v4 _ =>
    let mask := if mask = 0 then 32 else mask
    .v4 (0xFFFFFFFF <<< (32 - UInt32.ofNat mask))
  | .v6 .. =>
    let mask : Int := if mask = 0 then 128 else mask
    .v6 (maskWord mask) (maskWord (mask - 32)) (maskWord (mask - 64)) (maskWord (mask - 96))

def network (a : VmIP) (mask : Nat) : VmIP := a.mask (a.networkMask mask)

def isNetMask (a : VmIP) (bits : Nat) : Bool := 0 < bits && bits < a.bits

end VoipMonitor.CallsHash.VmIP
