import VoipMonitor.Model.HashModifyQueue

/-!
# SDP addresses of a branch and their RTP entries (`Call::add_ip_port_hash`)

`ip_port` has the addresses that a branch has offered. Each goes into the table that routes RTP
under its port and, for RTCP, under the next port. A new offer of a known session moves its
address; a cancelled request takes the addresses of its sender out of the table.
-/

namespace VoipMonitor.SdpPorts
open VoipMonitor.Library VoipMonitor.CallsHash

def maxIpPerCall : Nat := 40

inductive TypeAddr where
  | base
  | natalias
  | sdpReverseIpport
deriving DecidableEq, Repr

def SdpFlags.isImage (f : SdpFlags) : Bool := f.mediaType &&& 2 ≠ 0

def SdpFlags.isApplication (f : SdpFlags) : Bool := f.mediaType &&& 8 ≠ 0

/-- `operator !=` does not look at `protocol`. -/
def SdpFlags.differ (f g : SdpFlags) : Bool := f.mediaType ≠ g.mediaType || f.rtcpMux ≠ g.rtcpMux

structure IpPortCallInfo where
  addr : VmIP
  typeAddr : TypeAddr := .base
  port : VmPort
  iscaller : Int := 0
  sessid : String := ""
  sipTo : String := ""
  branch : String := ""
  sipSrcAddr : VmIP
  sdpFlags : SdpFlags := {}
  canceled : Bool := false
deriving DecidableEq, Repr

/-- The arguments of `add_ip_port_hash` that reach `ip_port` or the table. -/
structure Offer where
  sipSrcAddr : VmIP
  addr : VmIP
  typeAddr : TypeAddr := .base
  port : VmPort
  timeS : Int := 0
  sessid : Option String := none
  multipleSdpMedia : Bool := false
  sipTo : Option String := none
  branch : Option String := none
  iscaller : Int := 0
  sdpFlags : SdpFlags := {}

structure SdpConfig where
  sdpMultiplication : Nat := 3
  optRtcp : Bool := true

/-- The table and `ip_port[0 .. ipport_n - 1]` of the branch. -/
structure SdpState where
  table : Table := {}
  ipPort : List IpPortCallInfo := []

def getIndexBySessidTo (ipPort : List IpPortCallInfo) (sessid : String) (sipTo : Option String)
    (sipSrcAddr : VmIP) (typeAddr : TypeAddr) : Option Nat :=
  ipPort.findIdx? (fun e => e.sessid = sessid && sipTo.all (fun s => e.sipTo = s) &&
    e.sipSrcAddr = sipSrcAddr && e.typeAddr = typeAddr)

def flagBucket (b : BranchId) (addr : VmIP) (port : VmPort) (flags : SdpFlags) :
    List NodeCallRtpIpPort → List NodeCallRtpIpPort
  | [] => []
  | node :: nodes =>
    if node.port = port ∧ node.addr = addr then
      { node with calls := node.calls.map (fun nodeCall =>
          if nodeCall.cBranch = b then { nodeCall with sdpFlags := flags } else nodeCall) } :: nodes
    else node :: flagBucket b addr port flags nodes

def flagTable (b : BranchId) (addr : VmIP) (port : VmPort) (flags : SdpFlags) (t : Table) : Table :=
  let h := tuplehash addr.getHashNumber port
  t.setBucket h (flagBucket b addr port flags (t.callsHash h)) t.rtpIpPortCounter

/-- `refresh_data_ip_port` returns false, here none, without an entry of the address and port. -/
def refreshDataIpPort (b : BranchId) (s : SdpState) (o : Offer) : Option SdpState :=
  match s.ipPort.findIdx? (fun e => e.addr = o.addr && e.port = o.port) with
  | none => none
  | some i =>
    match s.ipPort[i]? with
    | none => none
    | some e =>
      if SdpFlags.differ o.sdpFlags e.sdpFlags then
        let flags := if SdpFlags.isImage e.sdpFlags then
            { o.sdpFlags with mediaType := o.sdpFlags.mediaType ||| 2 }
          else o.sdpFlags
        some { table := flagTable b o.addr o.port flags s.table
               ipPort := s.ipPort.set i { e with sdpFlags := flags } }
      else some s

def Offer.ipPortCallInfo (o : Offer) : IpPortCallInfo where
  addr := o.addr
  typeAddr := o.typeAddr
  port := o.port
  iscaller := Int.bmod o.iscaller (2 ^ 8)
  sessid := o.sessid.getD ""
  sipTo := o.sipTo.getD ""
  branch := o.branch.getD ""
  sipSrcAddr := o.sipSrcAddr
  sdpFlags := o.sdpFlags

/-- `add_ip_port` returns -1, here none, when `ip_port` is full. -/
def addIpPort (b : BranchId) (s : SdpState) (o : Offer) : Option SdpState :=
  match refreshDataIpPort b s o with
  | some s => some s
  | none =>
    if s.ipPort.length ≥ maxIpPerCall then none
    else some { s with ipPort := s.ipPort ++ [o.ipPortCallInfo] }

def Offer.rtpEntry (o : Offer) (b : BranchId) : Entry where
  addr := o.addr
  port := o.port
  timeS := o.timeS
  cBranch := b
  iscaller := o.iscaller
  isRtcp := 0
  sdpFlags := o.sdpFlags

def Offer.rtcpEntry (o : Offer) (b : BranchId) : Entry :=
  { o.rtpEntry b with port := o.port + 1, isRtcp := 1 }

section Branch
variable (cfg : SdpConfig) (b : BranchId)

/-- The entry is not the one the offer describes. -/
def Offer.moves (o : Offer) (e : IpPortCallInfo) : Bool :=
  e.sipSrcAddr = o.sipSrcAddr &&
    (e.addr ≠ o.addr || e.port ≠ o.port || e.iscaller ≠ o.iscaller)

def moveEntries (env : BranchId → BranchState) (t : Table) (e : IpPortCallInfo) (o : Offer) :
    Table :=
  let t := (hashRemove t { cBranch := b, addr := e.addr, port := e.port }).1
  let t := hashAdd cfg.sdpMultiplication env t (o.rtpEntry b)
  if cfg.optRtcp then
    let t := (hashRemove t { cBranch := b, addr := e.addr, port := e.port + 1, rtcp := true }).1
    if !o.sdpFlags.rtcpMux && !SdpFlags.isApplication o.sdpFlags then
      hashAdd cfg.sdpMultiplication env t (o.rtcpEntry b)
    else t
  else t

def moveIpPort (env : BranchId → BranchState) (s : SdpState) (i : Nat) (o : Offer) : SdpState :=
  match s.ipPort[i]? with
  | none => s
  | some e =>
    if o.moves e then
      { table := moveEntries cfg b env s.table e o
        ipPort := s.ipPort.set i
          { e with addr := o.addr, port := o.port, iscaller := Int.bmod o.iscaller (2 ^ 8) } }
    else s

/-- The entry of `ip_port` that belongs to the session of the offer. -/
def Offer.sessidIndex (o : Offer) (s : SdpState) : Option Nat :=
  match o.sessid with
  | some sessid =>
    if o.multipleSdpMedia then none
    else getIndexBySessidTo s.ipPort sessid o.sipTo o.sipSrcAddr o.typeAddr
  | none => none

def addIpPortHash (env : BranchId → BranchState) (s : SdpState) (o : Offer) : SdpState :=
  if (env b).endCallRtp then s
  else
    match o.sessidIndex s with
    | some i =>
      let s := moveIpPort cfg b env s i o
      (refreshDataIpPort b s o).getD s
    | none =>
      match addIpPort b s o with
      | none => s
      | some s =>
        let t := hashAdd cfg.sdpMultiplication env s.table (o.rtpEntry b)
        if cfg.optRtcp && !o.sdpFlags.rtcpMux then
          { s with table := hashAdd cfg.sdpMultiplication env t (o.rtcpEntry b) }
        else { s with table := t }

/-- The arguments of `cancel_ip_port_hash`. -/
structure Cancel where
  sipSrcAddr : VmIP
  sipTo : Option String := none
  branch : Option String := none

def Cancel.matches (c : Cancel) (e : IpPortCallInfo) : Bool :=
  e.sipSrcAddr = c.sipSrcAddr && c.branch.all (fun s => e.branch = s) &&
    c.sipTo.all (fun s => e.sipTo = s)

def cancelEntry (t : Table) (e : IpPortCallInfo) : Table :=
  let t := (hashRemove t { cBranch := b, addr := e.addr, port := e.port }).1
  if cfg.optRtcp then
    (hashRemove t { cBranch := b, addr := e.addr, port := e.port + 1, rtcp := true }).1
  else t

def cancelLoop (c : Cancel) (t : Table) : List IpPortCallInfo → Table × List IpPortCallInfo
  | [] => (t, [])
  | e :: entries =>
    if c.matches e then
      let r := cancelLoop c (cancelEntry cfg b t e) entries
      (r.1, { e with canceled := true } :: r.2)
    else
      let r := cancelLoop c t entries
      (r.1, e :: r.2)

def cancelIpPortHash (s : SdpState) (c : Cancel) : SdpState :=
  let r := cancelLoop cfg b c s.table s.ipPort
  { table := r.1, ipPort := r.2 }

/-- The loop of `Call::hashRemove` over `ip_port`. -/
def removeEntries (t : Table) : List IpPortCallInfo → Table
  | [] => t
  | e :: entries =>
    let t := (hashRemove t (HashQueue.rtpRemoval b (e.addr, e.port))).1
    let t := if cfg.optRtcp then (hashRemove t (HashQueue.rtcpRemoval b (e.addr, e.port))).1 else t
    removeEntries t entries

def hashRemoveRest (s : SdpState) : Table × Nat :=
  hashRemoveCall (removeEntries cfg b s.table s.ipPort) b

inductive SdpAct where
  | addIpPortHash (env : BranchId → BranchState) (o : Offer)
  | cancelIpPortHash (c : Cancel)

def sdpStep (s : SdpState) : SdpAct → Option SdpState
  | .addIpPortHash env o => some (addIpPortHash cfg b env s o)
  | .cancelIpPortHash c => some (cancelIpPortHash cfg b s c)

end Branch

end VoipMonitor.SdpPorts
