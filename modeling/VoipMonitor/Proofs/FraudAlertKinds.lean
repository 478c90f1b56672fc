import VoipMonitor.Proofs.FraudAlertPasses

/-!
# The kinds of alerts for concurrent calls

Every pass over the limits asks for the last local alert of the identity, and for streams every pass
asks the local map, so an alert of one kind can suppress or let through one of another kind. What
the records and the maps hold is said by the alerts raised so far.
-/

namespace VoipMonitor.FraudAlerts
open VoipMonitor.Library VoipMonitor.CallsHash
open VoipMonitor.FraudRcc (timeUsToS timeSToUs)

/-! ## One event -/

structure Connect where
  id : CallsId
  idAlert : IdAlert
  localCalledNumber : Bool
  key : CallKey
  at_ : Nat
  at_lt : at_ < 2 ^ 63

def connect (cfg : Config) : Event → Option Connect
  | .call c =>
    if c.typeCallInfo = .connectCall ∧ cfg.checkTime (timeUsToS c.atConnect) then
      (c.callsId cfg).map (fun id => ⟨id, c.idAlert cfg, c.localCalledNumber,
        .call (cString c.callid), c.atConnect, c.atConnect_lt⟩)
    else none
  | .rtpStream r =>
    if r.typeRtpStreamInfo = .beginStream ∧ cfg.checkTime (timeUsToS r.at_) then
      (r.callsId cfg).map (fun id =>
        ⟨id, id.idAlert, r.localCalledNumber, r.key, r.at_, r.at_lt⟩)
    else none

def Connect.call (s : RccBase) (o : Connect) : RccInfo :=
  ((s.calls o.id).getD {}).add o.localCalledNumber o.key o.at_

def Connect.passes (cfg : Config) (s : RccBase) (o : Connect) : Passes :=
  kinds.foldl (Passes.pass cfg (okLi cfg) o.id o.idAlert o.at_)
    { call := o.call s, alerts := s.alerts }

def Connect.after (cfg : Config) (s : RccBase) (o : Connect) : RccBase :=
  { s with
    calls := Function.update s.calls o.id (some (o.passes cfg s).call)
    alerts := (o.passes cfg s).alerts }

structure Keeps (s s' : RccBase) : Prop where
  alerts : s'.alerts = s.alerts
  calls : ∀ id call', s'.calls id = some call' →
    ∃ call, s.calls id = some call ∧ call.lastAlertInfoLocal = call'.lastAlertInfoLocal

lemma Keeps.refl (s : RccBase) : Keeps s s := ⟨rfl, fun _ call h => ⟨call, h, rfl⟩⟩

lemma Keeps.trans {s t u : RccBase} (hst : Keeps s t) (htu : Keeps t u) : Keeps s u where
  alerts := htu.alerts.trans hst.alerts
  calls := by
    intro id call hcall
    obtain ⟨call', hcall', hlast⟩ := htu.calls id call hcall
    obtain ⟨call'', hcall'', hlast'⟩ := hst.calls id call' hcall'
    exact ⟨call'', hcall'', hlast'.trans hlast⟩

lemma keeps_cleanup (cfg : Config) (s : RccBase) (actTimeUs : Nat) :
    Keeps s (cleanup cfg s actTimeUs) where
  alerts := rfl
  calls := by
    intro id call' h
    obtain ⟨call, hcall, hcall'⟩ := Option.bind_eq_some_iff.mp h
    refine ⟨call, hcall, ?_⟩
    have hsome : ∀ {b : Bool}, (if b then none else some (call.cleanup cfg actTimeUs)) = some call' →
        call.lastAlertInfoLocal = call'.lastAlertInfoLocal := by
      intro b hb
      cases b with
      | true => cases hb
      | false =>
        obtain rfl := Option.some.inj hb
        rfl
    cases id with
    | ip a => exact hsome hcall'
    | number n => exact hsome hcall'
    | summary =>
      obtain rfl := Option.some.inj hcall'
      rfl
    | rtpStreamIp ips => rw [Option.some.inj (hcall.symm.trans hcall')]
    | rtpStreamId ids => rw [Option.some.inj (hcall.symm.trans hcall')]

lemma keeps_update {s : RccBase} {id : CallsId} {call call' : RccInfo} (h : s.calls id = some call)
    (hlast : call.lastAlertInfoLocal = call'.lastAlertInfoLocal) :
    Keeps s { s with calls := Function.update s.calls id (some call') } where
  alerts := rfl
  calls := by
    intro i c hc
    dsimp only at hc
    by_cases hi : i = id
    · subst hi
      rw [Function.update_self] at hc
      obtain rfl := Option.some.inj hc
      exact ⟨call, h, hlast⟩
    · rw [Function.update_of_ne hi] at hc
      exact ⟨c, hc, rfl⟩

def StepSpec (cfg : Config) (s : RccBase) (o : Option Connect) (r : RccBase × List Alert) : Prop :=
  match o with
  | none => Keeps s r.1 ∧ r.2 = []
  | some o => Keeps (o.after cfg s) r.1 ∧ r.2 = (o.passes cfg s).raised

lemma StepSpec.keeps {cfg : Config} {s s' : RccBase} {o : Option Connect} {r : RccBase × List Alert}
    (h : StepSpec cfg s o r) (hkeeps : Keeps r.1 s') : StepSpec cfg s o (s', r.2) := by
  cases o with
  | none => exact ⟨h.1.trans hkeeps, h.2⟩
  | some o => exact ⟨h.1.trans hkeeps, h.2⟩

lemma evCallType_spec {cfg : Config} (hcfg : cfg.typeBy.isRtpStream = false) (s : RccBase)
    (c : CallInfo) : StepSpec cfg s (connect cfg (.call c)) (evCallType cfg s c) := by
  have hli : okLi cfg = fun li => li := by
    unfold okLi
    rw [hcfg]
    rfl
  unfold connect evCallType
  dsimp only
  cases c.typeCallInfo with
  | connectCall =>
    by_cases htime : cfg.checkTime (timeUsToS c.atConnect) = true
    · rw [if_pos ⟨rfl, htime⟩]
      dsimp only
      rw [if_pos htime]
      cases c.callsId cfg with
      | none => exact ⟨Keeps.refl s, rfl⟩
      | some id =>
        dsimp only
        rw [← hli]
        exact ⟨Keeps.refl _, rfl⟩
    · rw [if_neg (fun h => htime h.2)]
      dsimp only
      rw [if_neg htime]
      exact ⟨Keeps.refl s, rfl⟩
  | seenByeCall | endCall =>
    dsimp only
    cases c.callsId cfg with
    | none => exact ⟨Keeps.refl s, rfl⟩
    | some id =>
      dsimp only
      cases hcall : s.calls id with
      | none => exact ⟨Keeps.refl s, rfl⟩
      | some call => exact ⟨keeps_update hcall rfl, rfl⟩
  | beginCall | sessionCanceledCall => exact ⟨Keeps.refl s, rfl⟩

theorem step_spec (cfg : Config) (s : RccBase) (e : Event) :
    StepSpec cfg s (connect cfg e) (step cfg s e) := by
  cases e with
  | call c =>
    rw [step, evCallRcc]
    by_cases hcfg : cfg.typeBy.isRtpStream = true
    · have hid : c.callsId cfg = none := by
        unfold CallInfo.callsId
        cases htype : cfg.typeBy <;> rw [htype] at hcfg <;> first | rfl | cases hcfg
      rw [if_pos hcfg, connect, hid, Option.map_none, ite_self]
      exact ⟨Keeps.refl s, rfl⟩
    · rw [if_neg hcfg]
      have hspec := evCallType_spec (Bool.eq_false_iff.mpr hcfg) s c
      dsimp only
      split
      · exact hspec.keeps ⟨rfl, fun _ call h => ⟨call, h, rfl⟩⟩
      split
      · have hclean := keeps_cleanup cfg (evCallType cfg s c).1 c.atLast
        exact hspec.keeps ⟨hclean.alerts, hclean.calls⟩
      · exact hspec
  | rtpStream r =>
    rw [step, evRtpStreamRcc, connect]
    cases hid : r.callsId cfg with
    | none =>
      rw [Option.map_none, ite_self]
      exact ⟨Keeps.refl s, rfl⟩
    | some id =>
      have hli : okLi cfg = fun _ => .local_ := by
        unfold RtpStreamInfo.callsId at hid
        unfold okLi
        cases htype : cfg.typeBy <;> rw [htype] at hid <;> first | rfl | cases hid
      cases r.typeRtpStreamInfo with
      | beginStream =>
        by_cases htime : cfg.checkTime (timeUsToS r.at_) = true
        · rw [if_pos ⟨rfl, htime⟩]
          dsimp only
          rw [if_pos htime, ← hli]
          exact ⟨Keeps.refl _, rfl⟩
        · rw [if_neg (fun h => htime h.2)]
          dsimp only
          rw [if_neg htime]
          exact ⟨Keeps.refl s, rfl⟩
      | endStream =>
        rw [if_neg (by simp)]
        dsimp only
        cases hcall : s.calls id with
        | none => exact ⟨Keeps.refl s, rfl⟩
        | some call =>
          refine ⟨keeps_update hcall ?_, rfl⟩
          unfold RccInfo.remove
          cases r.localCalledNumber <;> rfl

/-! ## Runs -/

/-- The alert with the alerts raised so far. Those in `kept` are of the records that exist and were
not dropped since. -/
structure Traced where
  rcc : RccBase := {}
  alerts : List Alert := []
  kept : List Alert := []

def Traced.next (cfg : Config) (t : Traced) (e : Event) : Traced where
  rcc := (step cfg t.rcc e).1
  alerts := t.alerts ++ (step cfg t.rcc e).2
  kept := (t.kept ++ (step cfg t.rcc e).2).filter
    (fun a => ((step cfg t.rcc e).1.calls a.callsId).isSome)

/-- The last alert of the kind for the identity lies more than one second back, and more than
`alertOncePerHours` back when this is set. -/
def OwnOld (cfg : Config) (t : Traced) (o : Connect) (li : Li) : Prop :=
  isOld 1000000 o.at_ (latest (Alert.isOf o.id li) t.alerts) ∧
    (cfg.alertOncePerHours = 0 ∨
      isOld (hoursUs cfg) o.at_ (latest (Alert.isOf o.id li) t.alerts))

instance (cfg : Config) (t : Traced) (o : Connect) (li : Li) : Decidable (OwnOld cfg t o li) :=
  inferInstanceAs (Decidable (_ ∧ _))

def due (cfg : Config) (t : Traced) (o : Connect) (li : Li) : Bool :=
  (o.call t.rcc).Reached cfg li ∧ OwnOld cfg t o li

/-- An event raises the alerts of the kinds that are due, one of each, and no others. -/
def Independent (cfg : Config) (t : Traced) (e : Event) : Prop :=
  (step cfg t.rcc e).2 = (connect cfg e).elim [] (fun o =>
    (kinds.filter (due cfg t o)).map ((o.call t.rcc).alert o.id o.idAlert o.at_))

/-- For each kind whose limit is reached, the alerts that its pass asks for, those that are due in
the passes before among them, decide as the alerts of the kind. -/
def Undisturbed (cfg : Config) (t : Traced) (e : Event) : Prop :=
  ∀ o ∈ connect cfg e, ∀ li, (o.call t.rcc).Reached cfg li →
    (Asked cfg o.id o.idAlert o.at_
        (t.kept ++ earlier (due cfg t o) (o.call t.rcc) o.id o.idAlert o.at_ li)
        (t.alerts ++ earlier (due cfg t o) (o.call t.rcc) o.id o.idAlert o.at_ li) li ↔
      OwnOld cfg t o li)

/-- The number of calls of the identity fits an `unsigned int`; and with `alertOncePerHours` the
order of the keys compares the same member as in the alerts before. -/
def Plain (cfg : Config) (t : Traced) (e : Event) : Prop :=
  ∀ o ∈ connect cfg e, (o.call t.rcc).count .booth < 2 ^ 32 ∧
    (cfg.alertOncePerHours ≠ 0 → ∀ a ∈ t.alerts, a.idAlert.part = o.idAlert.part)

structure Said (cfg : Config) (s : RccBase) (alerts kept : List Alert) : Prop where
  last : ∀ id call, s.calls id = some call → call.lastAlertInfoLocal = lastLocal id kept
  maps : cfg.alertOncePerHours ≠ 0 → MapsTell cfg s.alerts alerts
  times : ∀ a ∈ alerts, a.at_ < 2 ^ 63
  sub : ∀ a ∈ kept, a ∈ alerts

structure Inv (cfg : Config) (t : Traced) : Prop extends Said cfg t.rcc t.alerts t.kept where
  has : ∀ a ∈ t.kept, (t.rcc.calls a.callsId).isSome = true

lemma inv_start (cfg : Config) : Inv cfg {} where
  last := by
    intro id call h
    dsimp only at h
    split at h
    · obtain rfl := Option.some.inj h
      rfl
    · cases h
  maps := fun _ => mapsTell_start cfg
  times := by simp
  sub := by simp
  has := by simp

variable {cfg : Config} {t : Traced} {e : Event} {o : Connect}

lemma lastLocal_eq_zero {id : CallsId} {alerts : List Alert}
    (h : ∀ a ∈ alerts, a.callsId ≠ id) : lastLocal id alerts = 0 := by
  unfold lastLocal
  rw [latest_eq_none (fun a ha => by simp [Alert.isOf, h a ha])]
  rfl

lemma Inv.tells (h : Inv cfg t) (o : Connect) :
    Passes.Tells cfg o.id o.idAlert o.at_ t.kept t.alerts
      { call := o.call t.rcc, alerts := t.rcc.alerts } where
  last := by
    have hadd : (o.call t.rcc).lastAlertInfoLocal =
        ((t.rcc.calls o.id).getD {}).lastAlertInfoLocal := by
      unfold Connect.call RccInfo.add
      cases o.localCalledNumber <;> rfl
    rw [hadd, List.append_nil]
    cases hcall : t.rcc.calls o.id with
    | none =>
      rw [lastLocal_eq_zero]
      · rfl
      · intro a ha hid
        have hsome := h.has a ha
        rw [hid, hcall] at hsome
        cases hsome
    | some call => exact h.last o.id call hcall
  maps := by
    intro hh
    rw [List.append_nil]
    exact h.maps hh
  raised := by simp

lemma Inv.kept_times (h : Inv cfg t) : ∀ a ∈ t.kept, a.at_ < 2 ^ 63 :=
  fun a ha => h.times a (h.sub a ha)

lemma Said.keeps {s s' : RccBase} {alerts kept : List Alert} (h : Said cfg s alerts kept)
    (hkeeps : Keeps s s') :
    Inv cfg ⟨s', alerts, kept.filter (fun a => (s'.calls a.callsId).isSome)⟩ where
  last := by
    intro id call' hcall'
    obtain ⟨call, hcall, hlast⟩ := hkeeps.calls id call' hcall'
    rw [← hlast, h.last id call hcall]
    unfold lastLocal
    rw [latest_filter]
    intro a _ ha
    have hid : a.callsId = id := by
      simp only [Alert.isOf, Bool.and_eq_true, decide_eq_true_eq] at ha
      exact ha.1
    rw [hid]
    exact Option.isSome_of_eq_some hcall'
  maps := by
    intro hh
    rw [hkeeps.alerts]
    exact h.maps hh
  times := h.times
  sub := fun a ha => h.sub a (List.mem_of_mem_filter ha)
  has := fun _ ha => (List.mem_filter.mp ha).2

lemma Inv.after (h : Inv cfg t)
    (hplain : (o.call t.rcc).count .booth < 2 ^ 32 ∧
      (cfg.alertOncePerHours ≠ 0 → ∀ a ∈ t.alerts, a.idAlert.part = o.idAlert.part)) :
    Said cfg (o.after cfg t.rcc) (t.alerts ++ (o.passes cfg t.rcc).raised)
      (t.kept ++ (o.passes cfg t.rcc).raised) := by
  have htells := (h.tells o).foldl hplain.2 h.kept_times h.times o.at_lt hplain.1 kinds
  constructor
  · intro id call hcall
    unfold Connect.after at hcall
    dsimp only at hcall
    by_cases hid : id = o.id
    · subst hid
      rw [Function.update_self] at hcall
      obtain rfl := Option.some.inj hcall
      exact htells.last
    · rw [Function.update_of_ne hid] at hcall
      rw [h.last id call hcall]
      -- the alerts of the event are those of another identity
      have hother : ∀ l : List Alert, (∀ a ∈ l, a.callsId = o.id) →
          lastLocal id (t.kept ++ l) = lastLocal id t.kept := by
        intro l hl
        induction l using List.reverseRecOn with
        | nil => rw [List.append_nil]
        | append_singleton l a ih =>
          have ha := hl a (List.mem_append_right _ (List.mem_singleton_self a))
          rw [← List.append_assoc, lastLocal_snoc, if_neg (fun hc => hid (hc.1.symm.trans ha))]
          exact ih (fun b hb => hl b (List.mem_append_left _ hb))
      exact (hother _ (fun a ha => (htells.raised a ha).1)).symm
  · exact htells.maps
  · intro a ha
    rcases List.mem_append.mp ha with ha | ha
    · exact h.times a ha
    · rw [(htells.raised a ha).2.2]
      exact o.at_lt
  · intro a ha
    rcases List.mem_append.mp ha with ha | ha
    · exact List.mem_append_left _ (h.sub a ha)
    · exact List.mem_append_right _ ha

theorem Inv.next (h : Inv cfg t) (hplain : Plain cfg t e) : Inv cfg (t.next cfg e) := by
  have hspec := step_spec cfg t.rcc e
  unfold Traced.next
  cases hconnect : connect cfg e with
  | none =>
    rw [hconnect] at hspec
    obtain ⟨hkeeps, hraised⟩ := hspec
    rw [hraised, List.append_nil, List.append_nil]
    exact h.toSaid.keeps hkeeps
  | some o =>
    rw [hconnect] at hspec
    obtain ⟨hkeeps, hraised⟩ := hspec
    rw [hraised]
    exact (h.after (hplain o hconnect)).keeps hkeeps

theorem independent_iff_undisturbed (h : Inv cfg t) (hplain : Plain cfg t e) :
    Independent cfg t e ↔ Undisturbed cfg t e := by
  unfold Independent Undisturbed
  have hspec := step_spec cfg t.rcc e
  cases hconnect : connect cfg e with
  | none =>
    rw [hconnect] at hspec
    exact iff_of_true hspec.2 (by simp)
  | some o =>
    rw [hconnect] at hspec
    obtain ⟨hcount, hpart⟩ := hplain o hconnect
    rw [hspec.2, Option.elim_some]
    refine (loop_kinds_iff (h.tells o) rfl hpart h.kept_times h.times o.at_lt hcount
      (due cfg t o)).trans ?_
    constructor
    · intro hall o' ho' li hreached
      obtain rfl := Option.some.inj ho'
      have hli := hall li
      rw [due, decide_eq_true_iff] at hli
      exact (and_congr_right_iff.mp hli) hreached
    · intro hall li
      rw [due, decide_eq_true_iff]
      exact and_congr_right (hall o rfl li)

theorem alerts_independent_iff (cfg : Config) (events : List Event) :
    AlongRun (Traced.next cfg) (fun t e => Plain cfg t e ∧ Undisturbed cfg t e) {} events ↔
      AlongRun (Traced.next cfg) (fun t e => Plain cfg t e ∧ Independent cfg t e) {} events := by
  refine alongRun_iff (I := Inv cfg) ?_ ?_ events (inv_start cfg)
  · intro t e h
    exact and_congr_right (fun hplain => (independent_iff_undisturbed h hplain).symm)
  · intro t e h hok
    exact h.next hok.1

/-! ## Kinds that suppress each other -/

def localAndBoth : Config where
  typeBy := .sourceIp
  concurentCallsLimitLocal := 1
  concurentCallsLimitInternational := 0
  concurentCallsLimitBoth := 1

def localConnect : Event := .call {
  typeCallInfo := .connectCall
  callid := [0x61]
  callerIp := .v4 0x0A000001
  calledIp := .v4 0x0A000002
  callerNumber := [0x31]
  atConnect := 1700000000000000
  atLast := 1700000000000000 }

def streamsOncePerHour : Config where
  typeBy := .rtpStreamIp
  concurentCallsLimitLocal := 1
  concurentCallsLimitInternational := 1
  concurentCallsLimitBoth := 0
  alertOncePerHours := 1

def internationalStream : Event := .rtpStream {
  typeRtpStreamInfo := .beginStream
  callid := [0x61]
  rtpSrcIp := .v4 0x0A000001
  rtpSrcPort := 10000
  rtpDstIp := .v4 0x0A000002
  rtpDstPort := 20000
  localCalledNumber := false
  at_ := 1700000000000000 }

/-- A local stream between the same addresses two seconds later. -/
def localStream : Event := .rtpStream {
  typeRtpStreamInfo := .beginStream
  callid := [0x62]
  rtpSrcIp := .v4 0x0A000001
  rtpSrcPort := 10002
  rtpDstIp := .v4 0x0A000002
  rtpDstPort := 20002
  at_ := 1700000002000000 }

/-- The first local call reaches both limits and raises the local alert only; and the first local
alert of two streams is suppressed by the international one. -/
theorem local_alert_suppresses_both :
    ¬AlongRun (Traced.next localAndBoth) (Independent localAndBoth) {} [localConnect] ∧
    ¬AlongRun (Traced.next streamsOncePerHour) (Independent streamsOncePerHour) {}
      [internationalStream, localStream] := by
  constructor
  · rintro ⟨h, -⟩
    revert h
    unfold Independent
    decide
  · rintro ⟨-, h, -⟩
    revert h
    unfold Independent
    decide

end VoipMonitor.FraudAlerts
