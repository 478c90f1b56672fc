import Mathlib.Logic.Function.Basic
import VoipMonitor.Library.Runs
import VoipMonitor.Library.Text
import VoipMonitor.Model.CallsHash

/-!
# Concurrent calls in the fraud detector (`fraud.cpp`)

`FraudAlert_rcc` by source IP: the calls that each address has at a time. The alerts that a connect
raises read the numbers of calls and change nothing of them; they are left out, and so are the time
periods, which have maps of their own. `ι` is the type of addresses.
-/

namespace VoipMonitor.FraudRcc
open VoipMonitor.Library

inductive TypeCallInfo where
  | beginCall
  | connectCall
  | sessionCanceledCall
  | seenByeCall
  | endCall
deriving DecidableEq, Repr

/-- `sFraudCallInfo` as `completeCallInfo` fills it: `at` is `at_last` and the time of the event of its
type, in microseconds. -/
structure CallInfo (ι : Type) where
  typeCallInfo : TypeCallInfo
  isInvite : Bool := true
  callid : Bytes
  callerIp : ι
  localCalledNumber : Bool := true
  at_ : Nat
  at_lt : at_ < 2 ^ 63

/-- The options of the alert. `timeR` gives the hour and the day of the week in the time zone of the
GUI; an hour below 0 is one that is not set. -/
structure Config (ι : Type) where
  hourFrom : Int
  hourTo : Int
  dayOfWeekSet : Bool
  dayOfWeek : Nat → Bool
  timeR : Nat → Nat × Nat
  okFilter : CallInfo ι → Bool
  absoluteTimeout : Nat
  timeout_lt : absoluteTimeout < 2 ^ 31

variable {ι : Type}

def timeUsToS (us : Nat) : Nat := us / 1000000 % 2 ^ 32

def timeSToUs (s : Nat) : Nat := s * 1000000 % 2 ^ 64

def okDayHourAt (cfg : Config ι) (time : Nat) : Bool :=
  if (cfg.hourFrom ≥ 0 ∧ cfg.hourTo ≥ 0) ∨ cfg.dayOfWeekSet then
    let (hour, wday) := cfg.timeR time
    if (cfg.hourFrom ≥ 0 ∧ cfg.hourTo ≥ 0) ∧
        (if cfg.hourFrom ≤ cfg.hourTo then hour < cfg.hourFrom ∨ hour > cfg.hourTo
        else hour < cfg.hourFrom ∧ hour > cfg.hourTo) then false
    else if cfg.dayOfWeekSet ∧ ¬cfg.dayOfWeek wday then false
    else true
  else true

def okDayHour (cfg : Config ι) (callInfo : CallInfo ι) : Bool :=
  if callInfo.at_ = 0 then true else okDayHourAt cfg (timeUsToS callInfo.at_)

/-- The calls of one address by their ids, with the time of the connect. -/
structure RccCallInfo where
  callsLocal : List (Bytes × Nat) := []
  callsInternational : List (Bytes × Nat) := []

def eraseCall (calls : List (Bytes × Nat)) (callid : Bytes) : List (Bytes × Nat) :=
  calls.filter (fun e => e.1 ≠ callid)

/-- `calls[callid] = at`; the key is made from the C string. -/
def setCall (calls : List (Bytes × Nat)) (callid : Bytes) (time : Nat) : List (Bytes × Nat) :=
  (cString callid, time) :: eraseCall calls (cString callid)

def RccCallInfo.addLocal (call : RccCallInfo) (callid : Bytes) (time : Nat) : RccCallInfo :=
  { call with callsLocal := setCall call.callsLocal callid time }

def RccCallInfo.addInternational (call : RccCallInfo) (callid : Bytes) (time : Nat) : RccCallInfo :=
  { call with callsInternational := setCall call.callsInternational callid time }

def RccCallInfo.isEmpty (call : RccCallInfo) : Bool :=
  call.callsLocal.length = 0 && call.callsInternational.length = 0

/-- Whether `cleanup` leaves a call. -/
def keepsCall (cfg : Config ι) (actTimeUs : Nat) (e : Bytes × Nat) : Bool :=
  !((e.2 + timeSToUs cfg.absoluteTimeout) % 2 ^ 64 < actTimeUs)

def RccCallInfo.cleanup (cfg : Config ι) (actTimeUs : Nat) (call : RccCallInfo) : RccCallInfo where
  callsLocal := call.callsLocal.filter (keepsCall cfg actTimeUs)
  callsInternational := call.callsInternational.filter (keepsCall cfg actTimeUs)

structure Rcc (ι : Type) where
  callsByIp : ι → Option RccCallInfo := fun _ => none
  lastCleanupAt : Nat := 0

def cleanup (cfg : Config ι) (s : Rcc ι) (actTimeUs : Nat) : Rcc ι :=
  { s with callsByIp := fun ip => (s.callsByIp ip).bind (fun call =>
      let call := call.cleanup cfg actTimeUs
      if call.isEmpty then none else some call) }

variable [DecidableEq ι]

/-- The part of `evCall_rcc` for the type of the event; `checkTime` is true for the alert itself. -/
def evCallType (s : Rcc ι) (callInfo : CallInfo ι) : Rcc ι :=
  match callInfo.typeCallInfo with
  | .connectCall =>
    let call := (s.callsByIp callInfo.callerIp).getD {}
    let call :=
      if callInfo.localCalledNumber then call.addLocal callInfo.callid callInfo.at_
      else call.addInternational callInfo.callid callInfo.at_
    { s with callsByIp := Function.update s.callsByIp callInfo.callerIp (some call) }
  | .seenByeCall | .endCall =>
    match s.callsByIp callInfo.callerIp with
    | none => s
    | some call =>
      -- both maps are searched, the one for the number first
      let call := {
        callsLocal := eraseCall call.callsLocal callInfo.callid
        callsInternational := eraseCall call.callsInternational callInfo.callid }
      { s with callsByIp := Function.update s.callsByIp callInfo.callerIp (some call) }
  | .beginCall | .sessionCanceledCall => s

def evCallRcc (cfg : Config ι) (s : Rcc ι) (callInfo : CallInfo ι) : Rcc ι :=
  let s := evCallType s callInfo
  if s.lastCleanupAt = 0 then { s with lastCleanupAt := timeUsToS callInfo.at_ }
  else if (s.lastCleanupAt + 15 * 60) % 2 ^ 32 < timeUsToS callInfo.at_ then
    { cleanup cfg s callInfo.at_ with lastCleanupAt := timeUsToS callInfo.at_ }
  else s

def evCall (cfg : Config ι) (s : Rcc ι) (callInfo : CallInfo ι) : Rcc ι :=
  if ¬callInfo.isInvite ∨ ¬cfg.okFilter callInfo ∨ ¬okDayHour cfg callInfo then s
  else evCallRcc cfg s callInfo

omit [DecidableEq ι] in
def calls (s : Rcc ι) (ip : ι) : List Bytes :=
  ((s.callsByIp ip).elim [] (fun call => call.callsLocal ++ call.callsInternational)).map Prod.fst

def CallInfo.isConnect (e : CallInfo ι) : Bool := e.typeCallInfo = .connectCall

def CallInfo.ends (e : CallInfo ι) : Bool :=
  e.typeCallInfo = .seenByeCall || e.typeCallInfo = .endCall

/-- The detector with the events so far and the time of the last one. -/
structure Traced (ι : Type) where
  rcc : Rcc ι := {}
  history : List (CallInfo ι) := []
  now : Nat := 0

/-- The event goes on with a sequence of events: the times do not decrease, the call passes the
filters, it connects once, and a bye or an end follows the connect of the call. -/
structure Follows (cfg : Config ι) (t : Traced ι) (e : CallInfo ι) : Prop where
  time : t.now ≤ e.at_
  invite : e.isInvite = true
  filter : cfg.okFilter e = true
  once : e.isConnect = true → ∀ e' ∈ t.history, e'.isConnect = true → e'.callid ≠ e.callid
  ends : e.ends = true →
    ∃ e' ∈ t.history, e'.isConnect = true ∧ e'.callid = e.callid ∧ e'.callerIp = e.callerIp

/-- The detector after one more event. -/
def Traced.next (cfg : Config ι) (t : Traced ι) (e : CallInfo ι) : Traced ι where
  rcc := evCall cfg t.rcc e
  history := e :: t.history
  now := e.at_

end VoipMonitor.FraudRcc

/-!
## Alerts for concurrent calls (`fraud.cpp`)

`FraudAlert_rcc_base`: the calls or the RTP streams of each identity, the limits on their numbers,
and the alerts that a connect or the begin of a stream raises. The alert itself and each of its time
periods is such an object, with records of its own. The events are those that passed the filters of
`evCall` and `evRtpStream`.
-/

namespace VoipMonitor.FraudAlerts
open VoipMonitor.Library VoipMonitor.CallsHash
open VoipMonitor.FraudRcc (TypeCallInfo timeUsToS timeSToUs)

inductive TypeBy where
  | na | sourceIp | destinationIp | sourceNumber | rtpStreamIp | rtpStreamIpGroup | summary
deriving DecidableEq, Repr

inductive TypeByIP where
  | na | src | dst | both
deriving DecidableEq, Repr

/-- `eLocalInternational`. -/
inductive Li where
  | local_ | international | booth
deriving DecidableEq, Repr

/-- `sFraudCallInfo`: the members that the calls are counted by. -/
structure CallInfo where
  typeCallInfo : TypeCallInfo
  callid : Bytes
  callerIp : VmIP
  calledIp : VmIP
  callerNumber : Bytes
  localCalledNumber : Bool := true
  atConnect : Nat
  atLast : Nat
  atConnect_lt : atConnect < 2 ^ 63 := by decide

inductive TypeRtpStreamInfo where
  | beginStream
  | endStream
deriving DecidableEq, Repr

/-- `sFraudRtpStreamInfo`. -/
structure RtpStreamInfo where
  typeRtpStreamInfo : TypeRtpStreamInfo
  callid : Bytes
  rtpSrcIp : VmIP
  rtpSrcIpGroup : Nat := 0
  rtpSrcPort : Nat
  rtpDstIp : VmIP
  rtpDstIpGroup : Nat := 0
  rtpDstPort : Nat
  localCalledNumber : Bool := true
  at_ : Nat
  at_lt : at_ < 2 ^ 63 := by decide

inductive Event where
  | call (callInfo : CallInfo)
  | rtpStream (rtpStreamInfo : RtpStreamInfo)

/-- The options. The limits and `checkTime` are those of the alert, or of the time period. The hours
are an `int`, and so is their product with 3600. -/
structure Config where
  typeBy : TypeBy
  typeByIP : TypeByIP := .na
  concurentCallsLimitLocal : Nat
  concurentCallsLimitInternational : Nat
  concurentCallsLimitBoth : Nat
  alertOncePerHours : Nat := 0
  hours_lt : alertOncePerHours * 3600 < 2 ^ 31 := by decide
  checkTime : Nat → Bool := fun _ => true
  absoluteTimeout : Nat := 4 * 3600

def Config.concurentCallsLimit (cfg : Config) : Li → Nat
  | .local_ => cfg.concurentCallsLimitLocal
  | .international => cfg.concurentCallsLimitInternational
  | .booth => cfg.concurentCallsLimitBoth

def TypeBy.isRtpStream (typeBy : TypeBy) : Bool :=
  typeBy = .rtpStreamIp || typeBy = .rtpStreamIpGroup

/-! ## `sIdAlert` -/

structure IdAlert where
  ips : VmIP := .v4 0
  ipd : VmIP := .v4 0
  number : Bytes := []
  rtpStreamIp : VmIP × VmIP := (.v4 0, .v4 0)
  rtpStreamId : Nat × Nat := (0, 0)
deriving DecidableEq, Repr

/-- `operator <`. -/
def IdAlert.lt (a b : IdAlert) : Bool :=
  if a.ips.isSet then a.ips.lt b.ips
  else if a.ipd.isSet then a.ipd.lt b.ipd
  else if a.number ≠ [] then a.number < b.number
  else if a.rtpStreamIp.1.isSet then
    a.rtpStreamIp.1.lt b.rtpStreamIp.1 ||
      (decide (a.rtpStreamIp.1 = b.rtpStreamIp.1) && a.rtpStreamIp.2.lt b.rtpStreamIp.2)
  else
    a.rtpStreamId.1 < b.rtpStreamId.1 ||
      (a.rtpStreamId.1 = b.rtpStreamId.1 && a.rtpStreamId.2 < b.rtpStreamId.2)

structure AlertInfo where
  concurentCalls : Nat
  at_ : Nat

/-- `map<sIdAlert, sAlertInfo>`. -/
abbrev AlertMap := List (IdAlert × AlertInfo)

def sameKey (a b : IdAlert) : Bool := !a.lt b && !b.lt a

def AlertMap.find (alerts : AlertMap) (idAlert : IdAlert) : Option AlertInfo :=
  (List.find? (fun e => sameKey e.1 idAlert) alerts).map Prod.snd

def AlertMap.set (alerts : AlertMap) (idAlert : IdAlert) (info : AlertInfo) : AlertMap :=
  (idAlert, info) :: List.filter (fun e => !sameKey e.1 idAlert) alerts

/-! ## The calls of an identity -/

inductive CallsId where
  | ip (callerIp : VmIP)
  | number (callerNumber : Bytes)
  | summary
  | rtpStreamIp (ips : VmIP × VmIP)
  | rtpStreamId (ids : Nat × Nat)
deriving DecidableEq, Repr

/-- The id of a call, or `str_dipn_port`. -/
inductive CallKey where
  | call (callid : Bytes)
  | stream (callid : Bytes) (src dst : VmIP × Nat)
deriving DecidableEq, Repr

/-- `FraudAlert_rcc_callInfo` and `FraudAlert_rcc_rtpStreamInfo`. -/
structure RccInfo where
  callsLocal : List (CallKey × Nat) := []
  callsInternational : List (CallKey × Nat) := []
  lastAlertInfoLocal : Nat := 0
  lastAlertInfoInternational : Nat := 0
  lastAlertInfoLi : Nat := 0

def eraseKey (calls : List (CallKey × Nat)) (key : CallKey) : List (CallKey × Nat) :=
  calls.filter (fun e => e.1 ≠ key)

def setKey (calls : List (CallKey × Nat)) (key : CallKey) (time : Nat) : List (CallKey × Nat) :=
  (key, time) :: eraseKey calls key

/-- `addLocal` or `addInternational`. -/
def RccInfo.add (call : RccInfo) (localCalledNumber : Bool) (key : CallKey) (time : Nat) : RccInfo :=
  if localCalledNumber then { call with callsLocal := setKey call.callsLocal key time }
  else { call with callsInternational := setKey call.callsInternational key time }

def RccInfo.remove (call : RccInfo) (localCalledNumber : Bool) (key : CallKey) : RccInfo :=
  if localCalledNumber then { call with callsLocal := eraseKey call.callsLocal key }
  else { call with callsInternational := eraseKey call.callsInternational key }

def RccInfo.isEmpty (call : RccInfo) : Bool :=
  call.callsLocal.length = 0 && call.callsInternational.length = 0

def keepsKey (cfg : Config) (actTimeUs : Nat) (e : CallKey × Nat) : Bool :=
  !((e.2 + timeSToUs cfg.absoluteTimeout) % 2 ^ 64 < actTimeUs)

def RccInfo.cleanup (cfg : Config) (actTimeUs : Nat) (call : RccInfo) : RccInfo :=
  { call with
    callsLocal := call.callsLocal.filter (keepsKey cfg actTimeUs)
    callsInternational := call.callsInternational.filter (keepsKey cfg actTimeUs) }

/-- The number of calls that is compared with the limit. -/
def RccInfo.count (call : RccInfo) : Li → Nat
  | .local_ => call.callsLocal.length
  | .international => call.callsInternational.length
  | .booth => call.callsLocal.length + call.callsInternational.length

def RccInfo.setLastAlert (call : RccInfo) (li : Li) (time : Nat) : RccInfo :=
  match li with
  | .local_ => { call with lastAlertInfoLocal := time }
  | .international => { call with lastAlertInfoInternational := time }
  | .booth => { call with lastAlertInfoLi := time }

/-! ## `FraudAlert_rcc_base` -/

/-- `calls_summary` and the maps of the calls of the other identities in one, of which an alert only
has those of its type; and `alerts_local`, `alerts_international` and `alerts_booth`. -/
structure RccBase where
  calls : CallsId → Option RccInfo := fun id => if id = .summary then some {} else none
  alerts : Li → AlertMap := fun _ => []
  lastCleanupAt : Nat := 0

/-- `FraudAlertInfo_rcc`, with the identity whose calls were counted and the time of the event. -/
structure Alert where
  li : Li
  callsId : CallsId
  idAlert : IdAlert
  concurentCalls : Nat
  at_ : Nat
deriving DecidableEq, Repr

def checkOkAlert (cfg : Config) (alerts : Li → AlertMap) (idAlert : IdAlert)
    (concurentCalls at_ : Nat) (li : Li) : Bool × (Li → AlertMap) :=
  if cfg.alertOncePerHours = 0 then (true, alerts)
  else
    let alerts' :=
      Function.update alerts li (AlertMap.set (alerts li) idAlert ⟨concurentCalls, at_⟩)
    match AlertMap.find (alerts li) idAlert with
    | none => (true, alerts')
    | some info =>
      if (info.at_ + timeSToUs (cfg.alertOncePerHours * 3600)) % 2 ^ 64 < at_ then (true, alerts')
      else (false, alerts)

structure Passes where
  call : RccInfo
  alerts : Li → AlertMap
  raised : List Alert := []

/-- One pass of the loop over the limits. `okLi` is the map that `checkOkAlert` is asked for: that of
the kind for calls, and always the local one for streams. -/
def Passes.pass (cfg : Config) (okLi : Li → Li) (id : CallsId) (idAlert : IdAlert) (time : Nat)
    (p : Passes) (li : Li) : Passes :=
  let actCalls := p.call.count li % 2 ^ 32
  if cfg.concurentCallsLimit li ≠ 0 ∧ actCalls ≥ cfg.concurentCallsLimit li ∧
      time > (p.call.lastAlertInfoLocal + timeSToUs 1) % 2 ^ 64 then
    let (ok, alerts) := checkOkAlert cfg p.alerts idAlert actCalls time (okLi li)
    if ok then
      { call := p.call.setLastAlert li time
        alerts := alerts
        raised := p.raised ++ [⟨li, id, idAlert, actCalls, time⟩] }
    else { p with alerts := alerts }
  else p

def kinds : List Li := [.local_, .international, .booth]

/-- A connect or the begin of a stream: the call is added to the record of the identity, which is
made when there is none, and the limits are checked. -/
def addCall (cfg : Config) (s : RccBase) (okLi : Li → Li) (id : CallsId) (idAlert : IdAlert)
    (localCalledNumber : Bool) (key : CallKey) (time : Nat) : RccBase × List Alert :=
  let call := ((s.calls id).getD {}).add localCalledNumber key time
  let p := kinds.foldl (Passes.pass cfg okLi id idAlert time) { call := call, alerts := s.alerts }
  ({ s with calls := Function.update s.calls id (some p.call), alerts := p.alerts }, p.raised)

def cleanup (cfg : Config) (s : RccBase) (actTimeUs : Nat) : RccBase :=
  { s with calls := fun id => (s.calls id).bind (fun call =>
      let call := call.cleanup cfg actTimeUs
      match id with
      | .summary => some call
      -- only the maps by the address and by the number are searched for empty records
      | .ip _ | .number _ => if call.isEmpty then none else some call
      | .rtpStreamIp _ | .rtpStreamId _ => s.calls id) }

/-- The identity that the calls of the event are counted by. -/
def CallInfo.callsId (cfg : Config) (callInfo : CallInfo) : Option CallsId :=
  match cfg.typeBy with
  | .sourceIp => some (.ip callInfo.callerIp)
  | .sourceNumber => some (.number callInfo.callerNumber)
  | .summary => some .summary
  | _ => none

def CallInfo.idAlert (cfg : Config) (callInfo : CallInfo) : IdAlert :=
  match cfg.typeBy with
  | .sourceIp => {
      ips := if cfg.typeByIP ≠ .dst then callInfo.callerIp else .v4 0
      ipd := if cfg.typeByIP = .dst ∨ cfg.typeByIP = .both then callInfo.calledIp else .v4 0 }
  | .sourceNumber => { number := callInfo.callerNumber }
  | _ => {}

/-- The part of `evCall_rcc` for the type of the event. -/
def evCallType (cfg : Config) (s : RccBase) (callInfo : CallInfo) : RccBase × List Alert :=
  match callInfo.typeCallInfo with
  | .connectCall =>
    if cfg.checkTime (timeUsToS callInfo.atConnect) then
      match callInfo.callsId cfg with
      | none => (s, [])
      | some id =>
        addCall cfg s (fun li => li) id (callInfo.idAlert cfg) callInfo.localCalledNumber
          (.call (cString callInfo.callid)) callInfo.atConnect
    else (s, [])
  | .seenByeCall | .endCall =>
    match callInfo.callsId cfg with
    | none => (s, [])
    | some id =>
      match s.calls id with
      | none => (s, [])
      | some call =>
        let call := { call with
          callsLocal := eraseKey call.callsLocal (.call callInfo.callid)
          callsInternational := eraseKey call.callsInternational (.call callInfo.callid) }
        ({ s with calls := Function.update s.calls id (some call) }, [])
  | .beginCall | .sessionCanceledCall => (s, [])

def evCallRcc (cfg : Config) (s : RccBase) (callInfo : CallInfo) : RccBase × List Alert :=
  if cfg.typeBy.isRtpStream then (s, [])
  else
    let (s, raised) := evCallType cfg s callInfo
    if s.lastCleanupAt = 0 then ({ s with lastCleanupAt := timeUsToS callInfo.atLast }, raised)
    else if (s.lastCleanupAt + 15 * 60) % 2 ^ 32 < timeUsToS callInfo.atLast then
      ({ cleanup cfg s callInfo.atLast with lastCleanupAt := timeUsToS callInfo.atLast }, raised)
    else (s, raised)

/-- The pair of the two addresses or groups, the lower one first, when both are set. -/
def RtpStreamInfo.callsId (cfg : Config) (r : RtpStreamInfo) : Option CallsId :=
  match cfg.typeBy with
  | .rtpStreamIp =>
    if r.rtpSrcIp.isSet ∧ r.rtpDstIp.isSet then
      some (.rtpStreamIp (if r.rtpDstIp.lt r.rtpSrcIp then (r.rtpDstIp, r.rtpSrcIp)
        else (r.rtpSrcIp, r.rtpDstIp)))
    else none
  | .rtpStreamIpGroup =>
    if r.rtpSrcIpGroup ≠ 0 ∧ r.rtpDstIpGroup ≠ 0 then
      some (.rtpStreamId (min r.rtpSrcIpGroup r.rtpDstIpGroup, max r.rtpSrcIpGroup r.rtpDstIpGroup))
    else none
  | _ => none

def CallsId.idAlert : CallsId → IdAlert
  | .rtpStreamIp ips => { rtpStreamIp := ips }
  | .rtpStreamId ids => { rtpStreamId := ids }
  | _ => {}

def RtpStreamInfo.key (r : RtpStreamInfo) : CallKey :=
  .stream (cString r.callid) (r.rtpSrcIp, r.rtpSrcPort) (r.rtpDstIp, r.rtpDstPort)

def evRtpStreamRcc (cfg : Config) (s : RccBase) (r : RtpStreamInfo) : RccBase × List Alert :=
  match r.callsId cfg with
  | none => (s, [])
  | some id =>
    match r.typeRtpStreamInfo with
    | .beginStream =>
      if cfg.checkTime (timeUsToS r.at_) then
        addCall cfg s (fun _ => .local_) id id.idAlert r.localCalledNumber r.key r.at_
      else (s, [])
    | .endStream =>
      match s.calls id with
      | none => (s, [])
      | some call =>
        let call := call.remove r.localCalledNumber r.key
        ({ s with calls := Function.update s.calls id (some call) }, [])

def step (cfg : Config) (s : RccBase) : Event → RccBase × List Alert
  | .call callInfo => evCallRcc cfg s callInfo
  | .rtpStream rtpStreamInfo => evRtpStreamRcc cfg s rtpStreamInfo

end VoipMonitor.FraudAlerts
