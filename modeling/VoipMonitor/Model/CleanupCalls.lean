import Mathlib

/-!
# Closing calls (`Calltable::cleanup_calls`)

The calls that are due are taken from the registries into an array, which is sized from a count
made before the registries are locked, and then pushed to `calls_queue`. The two walks over the
registries and the push are one step each; other threads add calls between them. Calls are
pointers, given by numbers.
-/

namespace VoipMonitor.CleanupCalls

abbrev CallId := Nat

structure CleanupConfig where
  rtptimeout : Int := 300
  sipwithoutrtptimeout : Int := 3600
  absoluteTimeout : Int := 4 * 3600
  optOnewaytimeout : Int := 15
  optMaxSipPacketsInCall : Nat := 20000
  optMaxInvitePacketsInCall : Nat := 10000
  optSafeCleanupCalls : Nat := 1
  optQuickSaveCdr : Bool := false
  optBlockcleanupcalls : Bool := false
  hashModifyQueueLengthMs : Nat := 0
  isReadFromFile : Bool := false

/-- The arguments of a call of `cleanup_calls` and the time of its start. -/
structure CleanupArgs where
  closeAll : Bool := false
  packetTimeS : Nat := 0
  currTimeMs : Nat := 0

def CleanupArgs.currTimeS (args : CleanupArgs) : Nat := args.currTimeMs / 1000 % 2 ^ 32

/-- The members of a call that `cleanup_calls` reads: `skinnyOrMgcp` is its type, `testTimeMs` the
time of the test, and `hashQueueCounter` is read after `removeFindTables`. -/
structure CallInfo where
  forceClose : Bool := false
  skinnyOrMgcp : Bool := false
  testTimeMs : Nat := 0
  inPreprocessQueueBeforeProcessPacket : Int := 0
  inPreprocessQueueBeforeProcessPacketAt : Nat × Nat := (0, 0)
  timeShiftMs : Int := 0
  destroyCallAt : Int := 0
  destroyCallAtBye : Int := 0
  destroyCallAtByeConfirmed : Int := 0
  firstRtpTimeUs : Nat := 0
  firstPacketTimeS : Nat := 0
  lastPacketTimeS : Nat := 0
  seenRES18X : Bool := false
  seenRES2XX : Bool := false
  oneway : Int := 0
  sipPacketsCounter : Nat := 0
  invitePacketsCounter : Nat := 0
  hashQueueCounter : Int := 0
  rtppacketsinqueue : Int := 0
  useInListCalls : Int := 0
  stopProcessing : Bool := false
  stopProcessingAtS : Nat := 0

section Tests
variable (cfg : CleanupConfig) (args : CleanupArgs)

/-- `unshiftSystemTime_s`, or the time of the packet, in 32 bits. -/
def currTimeSUnshift (c : CallInfo) : Nat :=
  let usePacketTime := cfg.isReadFromFile || cfg.optSafeCleanupCalls = 2
  if usePacketTime ∧ args.packetTimeS ≠ 0 then args.packetTimeS
  else if args.currTimeS = 0 then 0
  else ((args.currTimeS - c.timeShiftMs.tdiv 1000) % 2 ^ 32).toNat

/-- No packet of the call waits before the processing, or it has waited for too long. -/
def preprocessDone (now : Nat) (c : CallInfo) : Bool :=
  let at0 := c.inPreprocessQueueBeforeProcessPacketAt.1
  let at1 := c.inPreprocessQueueBeforeProcessPacketAt.2
  c.skinnyOrMgcp || c.inPreprocessQueueBeforeProcessPacket ≤ 0 ||
    (!cfg.isReadFromFile &&
      (at0 ≠ 0 && (at0 : Int) < ((now : Int) - 300) % 2 ^ 32 && at1 ≠ 0 &&
        (at1 : Int) < ((c.testTimeMs / 1000 : Nat) - 300 : Int) % 2 ^ 64))

/-- The timeouts of a call at its time `now`. -/
def timedOut (now : Nat) (c : CallInfo) : Bool :=
  (c.destroyCallAt ≠ 0 && c.destroyCallAt ≤ now) ||
  (c.destroyCallAtBye ≠ 0 && c.destroyCallAtBye ≤ now) ||
  (c.destroyCallAtByeConfirmed ≠ 0 && c.destroyCallAtByeConfirmed ≤ now) ||
  (c.firstRtpTimeUs ≠ 0 && (now : Int) > (c.lastPacketTimeS + cfg.rtptimeout) % 2 ^ 32) ||
  (c.firstRtpTimeUs = 0 && (now : Int) > c.firstPacketTimeS + cfg.sipwithoutrtptimeout) ||
  (now : Int) > c.firstPacketTimeS + cfg.absoluteTimeout ||
  (now > c.firstPacketTimeS + 300 && !c.seenRES18X && !c.seenRES2XX && c.firstRtpTimeUs = 0) ||
  (cfg.optMaxSipPacketsInCall > 0 && c.sipPacketsCounter > cfg.optMaxSipPacketsInCall) ||
  (cfg.optMaxInvitePacketsInCall > 0 && c.invitePacketsCounter > cfg.optMaxInvitePacketsInCall) ||
  (c.oneway = 1 && (now : Int) > (c.lastPacketTimeS + cfg.optOnewaytimeout) % 2 ^ 32)

def inUse (c : CallInfo) : Bool :=
  (cfg.hashModifyQueueLengthMs ≠ 0 && c.hashQueueCounter > 0) || c.rtppacketsinqueue > 0 ||
    c.useInListCalls ≠ 0

/-- With `opt_safe_cleanup_calls` a call is first stopped and closed some seconds later. -/
def safeCleanup (now : Nat) (c : CallInfo) : CallInfo × Bool :=
  if cfg.optSafeCleanupCalls ≠ 0 ∧ cfg.optQuickSaveCdr = false ∧ args.closeAll = false then
    if c.stopProcessing = false then
      ({ c with stopProcessing := true, stopProcessingAtS := args.currTimeS }, false)
    else
      let wait := if cfg.optSafeCleanupCalls = 2 then 15 else 5
      if args.currTimeS < (c.stopProcessingAtS + wait) % 2 ^ 32 ∨
          (cfg.optSafeCleanupCalls = 2 ∧ c.firstPacketTimeS / 60 ≥ now / 60) then (c, false)
      else (c, true)
  else (c, true)

/-- Whether a call is closed, with the mark that `safeCleanup` sets. -/
def closeCall (c : CallInfo) : CallInfo × Bool :=
  let now := currTimeSUnshift cfg args c
  if args.closeAll ∨ c.forceClose ∨ (preprocessDone cfg now c ∧ timedOut cfg now c) then
    if args.closeAll = false ∧ inUse cfg c then (c, false)
    else safeCleanup cfg args now c
  else (c, false)

end Tests

/-- The registries, in the order of the walk: `invite` is `calls_listMAP`, or `calls_list` with
`opt_call_id_alternative`, and `mgcp` is `calls_by_stream_callid_listMAP`. -/
structure Registries where
  invite : List CallId := []
  mgcp : List CallId := []
  info : CallId → CallInfo := fun _ => {}
  pushCallToCallsQueue : CallId → Bool := fun _ => false
  callsQueue : List CallId := []

/-- What the other threads do between the sections. -/
inductive OtherAct where
  | addInvite (index : Nat) (c : CallId)
  | addMgcp (index : Nat) (c : CallId)
  | change (c : CallId) (info : CallInfo)

def otherStep (s : Registries) : OtherAct → Registries
  | .addInvite index c => { s with invite := s.invite.insertIdx (min index s.invite.length) c }
  | .addMgcp index c => { s with mgcp := s.mgcp.insertIdx (min index s.mgcp.length) c }
  | .change c info => { s with info := fun k => if k = c then info else s.info k }

/-- The steps of the other threads in one run of `cleanup_calls`: while the calls are counted,
before each of the two walks, and before the push. -/
structure Interleaving where
  counting : List OtherAct := []
  beforeInvite : List OtherAct := []
  beforeMgcp : List OtherAct := []
  beforePush : List OtherAct := []

/-- A walk over one registry: what is left of it, the members of the calls, the array and the
erased entries. -/
structure Walk where
  left : List CallId
  info : CallId → CallInfo
  closeCalls : List CallId
  erased : List CallId

def walkCalls (cfg : CleanupConfig) (args : CleanupArgs) (closeCallsMax : Nat)
    (info : CallId → CallInfo) (closeCalls : List CallId) : List CallId → Walk
  | [] => ⟨[], info, closeCalls, []⟩
  | c :: calls =>
    let r := closeCall cfg args (info c)
    let info := fun k => if k = c then r.1 else info k
    if r.2 then
      let closeCalls := if closeCalls.length < closeCallsMax then closeCalls ++ [c] else closeCalls
      let w := walkCalls cfg args closeCallsMax info closeCalls calls
      { w with erased := c :: w.erased }
    else
      let w := walkCalls cfg args closeCallsMax info closeCalls calls
      { w with left := c :: w.left }

/-- The push to `calls_queue`, with the calls that are pushed. -/
def pushCalls : List CallId → Registries → Registries × List CallId
  | [], s => (s, [])
  | c :: closeCalls, s =>
    if s.pushCallToCallsQueue c then pushCalls closeCalls s
    else
      let r := pushCalls closeCalls { s with
        pushCallToCallsQueue := fun k => if k = c then true else s.pushCallToCallsQueue k
        callsQueue := s.callsQueue ++ [c] }
      (r.1, c :: r.2)

def closeCallsMax (count : Nat) : Nat := (count % 2 ^ 32 + count % 2 ^ 32 / 4) % 2 ^ 32

section Run
variable (cfg : CleanupConfig) (args : CleanupArgs) (o : Interleaving) (s : Registries)

/-- `getCountCalls`, which reads the sizes of the registries one after the other. -/
def getCountCalls : Nat := s.invite.length + (o.counting.foldl otherStep s).mgcp.length

/-- `cleanup_calls` returns before it looks at a call. -/
def skipped : Bool :=
  (args.packetTimeS = 0 && cfg.optSafeCleanupCalls = 2 && !args.closeAll) ||
    cfg.optBlockcleanupcalls || getCountCalls o s % 2 ^ 32 = 0

def atInvite : Registries := (o.counting ++ o.beforeInvite).foldl otherStep s

def inviteWalk : Walk :=
  walkCalls cfg args (closeCallsMax (getCountCalls o s)) (atInvite o s).info [] (atInvite o s).invite

def atMgcp : Registries :=
  o.beforeMgcp.foldl otherStep { atInvite o s with
    invite := (inviteWalk cfg args o s).left
    info := (inviteWalk cfg args o s).info }

def mgcpWalk : Walk :=
  walkCalls cfg args (closeCallsMax (getCountCalls o s)) (atMgcp cfg args o s).info
    (inviteWalk cfg args o s).closeCalls (atMgcp cfg args o s).mgcp

def atPush : Registries :=
  o.beforePush.foldl otherStep { atMgcp cfg args o s with
    mgcp := (mgcpWalk cfg args o s).left
    info := (mgcpWalk cfg args o s).info }

structure Outcome where
  registries : Registries
  erased : List CallId
  pushed : List CallId

/-- A run of `cleanup_calls` among the steps of the other threads. -/
def cleanupCalls : Outcome :=
  if skipped cfg args o s then ⟨s, [], []⟩
  else
    let r := pushCalls (mgcpWalk cfg args o s).closeCalls (atPush cfg args o s)
    ⟨r.1, (inviteWalk cfg args o s).erased ++ (mgcpWalk cfg args o s).erased, r.2⟩

end Run

end VoipMonitor.CleanupCalls
