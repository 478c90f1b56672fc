import VoipMonitor.Model.FraudAlerts
import VoipMonitor.Proofs.AddressSearch

/-!
# The passes over the limits of concurrent calls

A map of alerts finds the last alert of a key as long as its keys are ordered by one member. So what
`checkOkAlert` and the one-second test of a pass decide is said by the alerts raised so far, and the
three passes raise the alerts that are due exactly when each pass decides so by the alerts it asks
for.
-/

namespace VoipMonitor.FraudAlerts
open VoipMonitor.Library VoipMonitor.CallsHash
open VoipMonitor.FraudRcc (timeUsToS timeSToUs)

/-! ## The keys of the maps -/

/-- The member that decides the order. -/
inductive IdPart where
  | ips | ipd | number | rtpStreamIp | rtpStreamId

def IdAlert.part (a : IdAlert) : IdPart :=
  if a.ips.isSet then .ips
  else if a.ipd.isSet then .ipd
  else if a.number ≠ [] then .number
  else if a.rtpStreamIp.1.isSet then .rtpStreamIp
  else .rtpStreamId

inductive IdValue where
  | ip (ip : VmIP)
  | number (number : Bytes)
  | ipPair (ips : VmIP × VmIP)
  | idPair (ids : Nat × Nat)
deriving DecidableEq

def IdAlert.value (a : IdAlert) : IdValue :=
  match a.part with
  | .ips => .ip a.ips
  | .ipd => .ip a.ipd
  | .number => .number a.number
  | .rtpStreamIp => .ipPair a.rtpStreamIp
  | .rtpStreamId => .idPair a.rtpStreamId

def ltPart (part : IdPart) (a b : IdAlert) : Bool :=
  match part with
  | .ips => a.ips.lt b.ips
  | .ipd => a.ipd.lt b.ipd
  | .number => a.number < b.number
  | .rtpStreamIp => a.rtpStreamIp.1.lt b.rtpStreamIp.1 ||
      (decide (a.rtpStreamIp.1 = b.rtpStreamIp.1) && a.rtpStreamIp.2.lt b.rtpStreamIp.2)
  | .rtpStreamId => a.rtpStreamId.1 < b.rtpStreamId.1 ||
      (a.rtpStreamId.1 = b.rtpStreamId.1 && a.rtpStreamId.2 < b.rtpStreamId.2)

lemma lt_eq_ltPart (a b : IdAlert) : a.lt b = ltPart a.part a b := by
  unfold IdAlert.lt IdAlert.part
  split
  · rfl
  split
  · rfl
  split
  · rfl
  split
  · rfl
  · rfl

lemma vmIP_eq_iff (a b : VmIP) : a = b ↔ a.lt b = false ∧ b.lt a = false := by
  rw [← Bool.not_eq_true, ← Bool.not_eq_true, AddressLists.lt_iff_sortKey,
    AddressLists.lt_iff_sortKey, not_lt, not_lt]
  constructor
  · rintro rfl
    exact ⟨le_refl _, le_refl _⟩
  · rintro ⟨hba, hab⟩
    exact AddressLists.sortKey_inj (le_antisymm hab hba)

lemma pair_eq_iff {α : Type} [DecidableEq α] {lt : α → α → Bool}
    (hlt : ∀ a b, a = b ↔ lt a b = false ∧ lt b a = false) (p q : α × α) :
    p = q ↔ (lt p.1 q.1 || (decide (p.1 = q.1) && lt p.2 q.2)) = false ∧
      (lt q.1 p.1 || (decide (q.1 = p.1) && lt q.2 p.2)) = false := by
  obtain ⟨p1, p2⟩ := p
  obtain ⟨q1, q2⟩ := q
  rw [Prod.mk.injEq]
  by_cases h1 : p1 = q1
  · subst h1
    have hself : lt p1 p1 = false := ((hlt p1 p1).mp rfl).1
    simp only [hself, hlt p2 q2, decide_true, Bool.true_and, Bool.false_or, true_and]
  · simp only [h1, Ne.symm h1, decide_false, Bool.false_and, Bool.or_false, false_and, false_iff]
    exact fun h => h1 ((hlt p1 q1).mpr h)

lemma natLt_eq_iff (a b : Nat) : a = b ↔ decide (a < b) = false ∧ decide (b < a) = false := by
  rw [decide_eq_false_iff_not, decide_eq_false_iff_not]
  omega

lemma sameKey_iff {a b : IdAlert} (h : a.part = b.part) :
    sameKey a b = true ↔ a.value = b.value := by
  unfold sameKey IdAlert.value
  rw [lt_eq_ltPart, lt_eq_ltPart, ← h, Bool.and_eq_true, Bool.not_eq_true', Bool.not_eq_true']
  cases a.part with
  | ips => exact (vmIP_eq_iff _ _).symm.trans (by rw [IdValue.ip.injEq])
  | ipd => exact (vmIP_eq_iff _ _).symm.trans (by rw [IdValue.ip.injEq])
  | number =>
    rw [IdValue.number.injEq, ltPart, ltPart, decide_eq_false_iff_not, decide_eq_false_iff_not]
    constructor
    · rintro ⟨hab, hba⟩
      exact List.le_antisymm (List.not_lt.mp hba) (List.not_lt.mp hab)
    · intro he
      rw [he]
      exact ⟨List.lt_irrefl _, List.lt_irrefl _⟩
  | rtpStreamIp =>
    rw [IdValue.ipPair.injEq]
    exact (pair_eq_iff vmIP_eq_iff _ _).symm
  | rtpStreamId =>
    rw [IdValue.idPair.injEq]
    exact (pair_eq_iff natLt_eq_iff _ _).symm

lemma find_set {alerts : AlertMap} {x y : IdAlert} (info : AlertInfo)
    (hkeys : ∀ e ∈ alerts, e.1.part = x.part) (hxy : x.part = y.part) :
    (alerts.set x info).find y = if x.value = y.value then some info else alerts.find y := by
  unfold AlertMap.find AlertMap.set
  rw [List.find?_cons]
  by_cases hv : x.value = y.value
  · rw [(sameKey_iff hxy).mpr hv, if_pos hv]
    rfl
  · rw [Bool.eq_false_iff.mpr (fun h => hv ((sameKey_iff hxy).mp h)), if_neg hv, List.find?_filter]
    refine congrArg (Option.map Prod.snd) ?_
    -- an entry of the other key is not one that is replaced
    refine List.find?_congr (fun e he => ?_)
    cases hey : sameKey e.1 y with
    | false => exact decide_eq_false (fun h => Bool.false_ne_true h.2)
    | true =>
      have hex : sameKey e.1 x = false := by
        refine Bool.eq_false_iff.mpr (fun h => hv ?_)
        have hx := (sameKey_iff (hkeys e he)).mp h
        have hy := (sameKey_iff ((hkeys e he).trans hxy)).mp hey
        exact hx.symm.trans hy
      rw [hex]
      rfl

/-! ## What the records and the maps say about the alerts so far -/

def Alert.isOf (id : CallsId) (li : Li) (a : Alert) : Bool := a.callsId = id && a.li = li

def okLi (cfg : Config) : Li → Li :=
  if cfg.typeBy.isRtpStream then fun _ => .local_ else fun li => li

/-- The alert stands in the map of `li` under a key like `idAlert`. -/
def Alert.isUnder (cfg : Config) (li : Li) (idAlert : IdAlert) (a : Alert) : Bool :=
  okLi cfg a.li = li && a.idAlert.value = idAlert.value

def lastLocal (id : CallsId) (alerts : List Alert) : Nat :=
  (latest (Alert.isOf id .local_) alerts).elim 0 Alert.at_

structure MapsTell (cfg : Config) (maps : Li → AlertMap) (alerts : List Alert) : Prop where
  keys : ∀ li, ∀ e ∈ maps li, ∃ a ∈ alerts, a.idAlert = e.1
  find : ∀ li y, (∀ a ∈ alerts, a.idAlert.part = y.part) →
    ((maps li).find y).map AlertInfo.at_ = (latest (Alert.isUnder cfg li y) alerts).map Alert.at_

lemma mapsTell_start (cfg : Config) : MapsTell cfg (fun _ => []) [] where
  keys := by simp
  find := by
    intro li y _
    rfl

lemma MapsTell.raise {cfg : Config} {maps : Li → AlertMap} {alerts : List Alert}
    (h : MapsTell cfg maps alerts) {a : Alert}
    (hpart : ∀ b ∈ alerts, b.idAlert.part = a.idAlert.part) {info : AlertInfo}
    (hinfo : info.at_ = a.at_) :
    MapsTell cfg (Function.update maps (okLi cfg a.li) ((maps (okLi cfg a.li)).set a.idAlert info))
      (alerts ++ [a]) := by
  have hkeys : ∀ li, ∀ e ∈ maps li, e.1.part = a.idAlert.part := by
    intro li e he
    obtain ⟨b, hb, hbe⟩ := h.keys li e he
    rw [← hbe]
    exact hpart b hb
  constructor
  · intro li e he
    by_cases hli : li = okLi cfg a.li
    · subst hli
      rw [Function.update_self] at he
      rcases List.mem_cons.mp he with rfl | he
      · exact ⟨a, List.mem_append_right _ (List.mem_singleton_self a), rfl⟩
      · obtain ⟨b, hb, hbe⟩ := h.keys _ e (List.mem_of_mem_filter he)
        exact ⟨b, List.mem_append_left _ hb, hbe⟩
    · rw [Function.update_of_ne hli] at he
      obtain ⟨b, hb, hbe⟩ := h.keys li e he
      exact ⟨b, List.mem_append_left _ hb, hbe⟩
  · intro li y hy
    have ha : a.idAlert.part = y.part :=
      hy a (List.mem_append_right _ (List.mem_singleton_self a))
    have hold := h.find li y (fun b hb => hy b (List.mem_append_left _ hb))
    rw [latest_snoc]
    by_cases hli : li = okLi cfg a.li
    · subst hli
      rw [Function.update_self, find_set info (hkeys _) ha]
      by_cases hv : a.idAlert.value = y.value
      · rw [if_pos hv, if_pos (by simp [Alert.isUnder, hv])]
        exact congrArg some hinfo
      · rw [if_neg hv, if_neg (by simp [Alert.isUnder, hv])]
        exact hold
    · rw [Function.update_of_ne hli, if_neg (by simp [Alert.isUnder, Ne.symm hli])]
      exact hold

/-! ## One pass -/

/-- The alert lies more than `us` microseconds back, if there is one. -/
def isOld (us time : Nat) (last : Option Alert) : Bool := last.all (fun a => a.at_ + us < time)

@[simp] lemma isOld_some (us time : Nat) (a : Alert) :
    isOld us time (some a) = true ↔ a.at_ + us < time := by
  unfold isOld
  rw [Option.all_some, decide_eq_true_eq]

def hoursUs (cfg : Config) : Nat := cfg.alertOncePerHours * 3600 * 1000000

/-- What a pass asks of the alerts so far: `kept` are those of the records that exist. -/
def Asked (cfg : Config) (id : CallsId) (idAlert : IdAlert) (time : Nat) (kept alerts : List Alert)
    (li : Li) : Prop :=
  lastLocal id kept + 1000000 < time ∧
    (cfg.alertOncePerHours = 0 ∨
      isOld (hoursUs cfg) time (latest (Alert.isUnder cfg (okLi cfg li) idAlert) alerts))

lemma add_hours (cfg : Config) {at_ : Nat} (h : at_ < 2 ^ 63) :
    (at_ + timeSToUs (cfg.alertOncePerHours * 3600)) % 2 ^ 64 = at_ + hoursUs cfg := by
  have hhours := cfg.hours_lt
  unfold timeSToUs hoursUs
  omega

lemma checkOkAlert_eq {cfg : Config} {maps : Li → AlertMap} {alerts : List Alert}
    (hmaps : cfg.alertOncePerHours ≠ 0 → MapsTell cfg maps alerts) {idAlert : IdAlert}
    (hpart : cfg.alertOncePerHours ≠ 0 → ∀ a ∈ alerts, a.idAlert.part = idAlert.part)
    (htimes : ∀ a ∈ alerts, a.at_ < 2 ^ 63) (n time : Nat) (li : Li) :
    checkOkAlert cfg maps idAlert n time li =
      if cfg.alertOncePerHours = 0 then (true, maps)
      else if isOld (hoursUs cfg) time (latest (Alert.isUnder cfg li idAlert) alerts) then
        (true, Function.update maps li ((maps li).set idAlert ⟨n, time⟩))
      else (false, maps) := by
  unfold checkOkAlert
  by_cases hh : cfg.alertOncePerHours = 0
  · rw [if_pos hh, if_pos hh]
  rw [if_neg hh, if_neg hh]
  have hfind := (hmaps hh).find li idAlert (hpart hh)
  cases hlast : latest (Alert.isUnder cfg li idAlert) alerts with
  | none =>
    rw [hlast, Option.map_none, Option.map_eq_none_iff] at hfind
    rw [hfind]
    rfl
  | some a =>
    rw [hlast, Option.map_some, Option.map_eq_some_iff] at hfind
    obtain ⟨info, hinfo, hat⟩ := hfind
    have hsum := add_hours cfg (htimes a (latest_mem hlast).1)
    rw [hinfo]
    dsimp only
    rw [hat, hsum]
    by_cases hold : a.at_ + hoursUs cfg < time
    · rw [if_pos hold, if_pos ((isOld_some _ _ a).mpr hold)]
    · rw [if_neg hold, if_neg (fun h => hold ((isOld_some _ _ a).mp h))]

structure Passes.Tells (cfg : Config) (id : CallsId) (idAlert : IdAlert) (time : Nat)
    (kept alerts : List Alert) (p : Passes) : Prop where
  last : p.call.lastAlertInfoLocal = lastLocal id (kept ++ p.raised)
  maps : cfg.alertOncePerHours ≠ 0 → MapsTell cfg p.alerts (alerts ++ p.raised)
  raised : ∀ a ∈ p.raised, a.callsId = id ∧ a.idAlert = idAlert ∧ a.at_ = time

lemma RccInfo.count_setLastAlert (call : RccInfo) (li li' : Li) (time : Nat) :
    (call.setLastAlert li time).count li' = call.count li' := by
  cases li with
  | local_ => cases li' <;> rfl
  | international => cases li' <;> rfl
  | booth => cases li' <;> rfl

lemma RccInfo.count_le (call : RccInfo) (li : Li) : call.count li ≤ call.count .booth := by
  cases li with
  | local_ => exact Nat.le_add_right _ _
  | international => exact Nat.le_add_left _ _
  | booth => exact le_refl _

lemma lastLocal_lt {id : CallsId} {alerts : List Alert} (h : ∀ a ∈ alerts, a.at_ < 2 ^ 63) :
    lastLocal id alerts < 2 ^ 63 := by
  unfold lastLocal
  cases hlast : latest (Alert.isOf id .local_) alerts with
  | none => exact Nat.two_pow_pos 63
  | some a => exact h a (latest_mem hlast).1

lemma lastLocal_snoc (id : CallsId) (alerts : List Alert) (a : Alert) :
    lastLocal id (alerts ++ [a]) =
      if a.callsId = id ∧ a.li = .local_ then a.at_ else lastLocal id alerts := by
  unfold lastLocal
  rw [latest_snoc]
  by_cases h : a.callsId = id ∧ a.li = .local_
  · rw [if_pos h, if_pos (by simp [Alert.isOf, h])]
    rfl
  · rw [if_neg h, if_neg (by simpa [Alert.isOf] using h)]

section Pass

variable {cfg : Config} {id : CallsId} {idAlert : IdAlert} {time : Nat} {kept alerts : List Alert}
  {p : Passes}

/-- The alert that a pass raises. -/
def RccInfo.alert (call : RccInfo) (id : CallsId) (idAlert : IdAlert) (time : Nat) (li : Li) :
    Alert :=
  ⟨li, id, idAlert, call.count li, time⟩

def RccInfo.Reached (cfg : Config) (call : RccInfo) (li : Li) : Prop :=
  cfg.concurentCallsLimit li ≠ 0 ∧ cfg.concurentCallsLimit li ≤ call.count li

instance (call : RccInfo) (li : Li) : Decidable (call.Reached cfg li) :=
  inferInstanceAs (Decidable (_ ∧ _))

lemma Passes.Tells.raise (h : p.Tells cfg id idAlert time kept alerts)
    (hpart : cfg.alertOncePerHours ≠ 0 → ∀ a ∈ alerts, a.idAlert.part = idAlert.part)
    (n m : Nat) (li : Li) {maps : Li → AlertMap}
    (hmaps : maps = if cfg.alertOncePerHours = 0 then p.alerts
      else Function.update p.alerts (okLi cfg li) ((p.alerts (okLi cfg li)).set idAlert ⟨m, time⟩)) :
    Passes.Tells cfg id idAlert time kept alerts
      ⟨p.call.setLastAlert li time, maps, p.raised ++ [⟨li, id, idAlert, n, time⟩]⟩ where
  last := by
    rw [← List.append_assoc, lastLocal_snoc, ← h.last]
    cases li with
    | local_ => rw [if_pos ⟨rfl, rfl⟩]; rfl
    | international => rw [if_neg (by simp)]; rfl
    | booth => rw [if_neg (by simp)]; rfl
  maps := by
    intro hh
    have hall : ∀ b ∈ alerts ++ p.raised, b.idAlert.part = idAlert.part := by
      intro b hb
      rcases List.mem_append.mp hb with hb | hb
      · exact hpart hh b hb
      · rw [(h.raised b hb).2.1]
    rw [hmaps, if_neg hh, ← List.append_assoc]
    exact MapsTell.raise (a := ⟨li, id, idAlert, n, time⟩) (h.maps hh) hall rfl
  raised := by
    intro a ha
    rcases List.mem_append.mp ha with ha | ha
    · exact h.raised a ha
    · rw [List.mem_singleton.mp ha]
      exact ⟨rfl, rfl, rfl⟩

lemma Passes.Tells.pass (h : p.Tells cfg id idAlert time kept alerts)
    (hpart : cfg.alertOncePerHours ≠ 0 → ∀ a ∈ alerts, a.idAlert.part = idAlert.part)
    (hkept : ∀ a ∈ kept, a.at_ < 2 ^ 63) (halerts : ∀ a ∈ alerts, a.at_ < 2 ^ 63)
    (htime : time < 2 ^ 63) (hcount : p.call.count .booth < 2 ^ 32) (li : Li) :
    (p.pass cfg (okLi cfg) id idAlert time li).Tells cfg id idAlert time kept alerts ∧
    (∀ li', (p.pass cfg (okLi cfg) id idAlert time li).call.count li' = p.call.count li') ∧
    ∃ raises : Bool, (raises = true ↔ p.call.Reached cfg li ∧
        Asked cfg id idAlert time (kept ++ p.raised) (alerts ++ p.raised) li) ∧
      (p.pass cfg (okLi cfg) id idAlert time li).raised =
        p.raised ++ if raises then [p.call.alert id idAlert time li] else [] := by
  have hraised : ∀ a ∈ p.raised, a.at_ < 2 ^ 63 := fun a ha => by
    rw [(h.raised a ha).2.2]
    exact htime
  have hkept' : ∀ a ∈ kept ++ p.raised, a.at_ < 2 ^ 63 := fun a ha =>
    (List.mem_append.mp ha).elim (hkept a) (hraised a)
  have halerts' : ∀ a ∈ alerts ++ p.raised, a.at_ < 2 ^ 63 := fun a ha =>
    (List.mem_append.mp ha).elim (halerts a) (hraised a)
  have hpart' : cfg.alertOncePerHours ≠ 0 →
      ∀ a ∈ alerts ++ p.raised, a.idAlert.part = idAlert.part := fun hh a ha =>
    (List.mem_append.mp ha).elim (hpart hh a) (fun ha => by rw [(h.raised a ha).2.1])
  -- neither the number of calls nor the sum of the times wraps
  have hmod : p.call.count li % 2 ^ 32 = p.call.count li :=
    Nat.mod_eq_of_lt (lt_of_le_of_lt (p.call.count_le li) hcount)
  have hlast : lastLocal id (kept ++ p.raised) < 2 ^ 63 := lastLocal_lt hkept'
  have hsum : (p.call.lastAlertInfoLocal + timeSToUs 1) % 2 ^ 64 =
      lastLocal id (kept ++ p.raised) + 1000000 := by
    rw [h.last]
    unfold timeSToUs
    omega
  unfold Passes.pass
  dsimp only
  rw [hmod, hsum, checkOkAlert_eq h.maps hpart' halerts']
  by_cases hfirst : cfg.concurentCallsLimit li ≠ 0 ∧
      p.call.count li ≥ cfg.concurentCallsLimit li ∧
      time > lastLocal id (kept ++ p.raised) + 1000000
  · rw [if_pos hfirst]
    obtain ⟨hlimit, hreached, hsecond⟩ := hfirst
    by_cases hh : cfg.alertOncePerHours = 0
    · rw [if_pos hh, if_pos rfl]
      exact ⟨h.raise hpart _ 0 li (if_pos hh).symm,
        fun li' => p.call.count_setLastAlert li li' time, true,
        iff_of_true rfl ⟨⟨hlimit, hreached⟩, hsecond, Or.inl hh⟩, rfl⟩
    rw [if_neg hh]
    by_cases hold : isOld (hoursUs cfg) time
        (latest (Alert.isUnder cfg (okLi cfg li) idAlert) (alerts ++ p.raised)) = true
    · rw [if_pos hold, if_pos rfl]
      exact ⟨h.raise hpart _ _ li (if_neg hh).symm,
        fun li' => p.call.count_setLastAlert li li' time, true,
        iff_of_true rfl ⟨⟨hlimit, hreached⟩, hsecond, Or.inr hold⟩, rfl⟩
    · rw [if_neg hold, if_neg Bool.false_ne_true]
      exact ⟨h, fun _ => rfl, false,
        iff_of_false Bool.false_ne_true (fun hasked => hasked.2.2.elim hh hold),
        (List.append_nil _).symm⟩
  · rw [if_neg hfirst]
    exact ⟨h, fun _ => rfl, false,
      iff_of_false Bool.false_ne_true (fun hasked => hfirst ⟨hasked.1.1, hasked.1.2, hasked.2.1⟩),
      (List.append_nil _).symm⟩

end Pass

/-! ## The three passes -/

section Loop

variable {cfg : Config} {id : CallsId} {idAlert : IdAlert} {time : Nat} {kept alerts : List Alert}

lemma Passes.Tells.foldl {p : Passes} (h : p.Tells cfg id idAlert time kept alerts)
    (hpart : cfg.alertOncePerHours ≠ 0 → ∀ a ∈ alerts, a.idAlert.part = idAlert.part)
    (hkept : ∀ a ∈ kept, a.at_ < 2 ^ 63) (halerts : ∀ a ∈ alerts, a.at_ < 2 ^ 63)
    (htime : time < 2 ^ 63) (hcount : p.call.count .booth < 2 ^ 32) (lis : List Li) :
    (lis.foldl (Passes.pass cfg (okLi cfg) id idAlert time) p).Tells cfg id idAlert time kept
      alerts := by
  induction lis generalizing p with
  | nil => exact h
  | cons li lis ih =>
    obtain ⟨hnext, hsame, -⟩ := h.pass hpart hkept halerts htime hcount li
    exact ih hnext ((hsame .booth).symm ▸ hcount)

/-- The alerts of an event in the passes before that of a kind, when the kinds `due` raise one. -/
def earlier (due : Li → Bool) (call : RccInfo) (id : CallsId) (idAlert : IdAlert) (time : Nat)
    (li : Li) : List Alert :=
  ((kinds.takeWhile (fun li' => li' ≠ li)).filter due).map (call.alert id idAlert time)

lemma filter_kinds (due : Li → Bool) :
    kinds.filter due = (if due .local_ then [.local_] else []) ++
      (if due .international then [.international] else []) ++
      (if due .booth then [.booth] else []) := by
  cases hl : due .local_ <;> cases hi : due .international <;> cases hb : due .booth <;>
    simp [kinds, hl, hi, hb]

lemma earlier_international (due : Li → Bool) (call : RccInfo) :
    earlier due call id idAlert time .international =
      if due .local_ then [call.alert id idAlert time .local_] else [] := by
  cases hl : due .local_ <;> simp [earlier, kinds, hl]

lemma earlier_booth (due : Li → Bool) (call : RccInfo) :
    earlier due call id idAlert time .booth =
      (if due .local_ then [call.alert id idAlert time .local_] else []) ++
        if due .international then [call.alert id idAlert time .international] else [] := by
  cases hl : due .local_ <;> cases hi : due .international <;> simp [earlier, kinds, hl, hi]

lemma RccInfo.alert_congr {call call' : RccInfo} (h : ∀ li, call.count li = call'.count li) :
    call.alert id idAlert time = call'.alert id idAlert time := by
  funext li
  rw [RccInfo.alert, RccInfo.alert, h li]

lemma RccInfo.reached_congr {call call' : RccInfo} (h : ∀ li, call.count li = call'.count li)
    (li : Li) : call.Reached cfg li ↔ call'.Reached cfg li := by
  unfold RccInfo.Reached
  rw [h li]

/-- The loop raises the alerts that are due exactly when each pass decides so by the alerts that it
asks for, those that are due in the passes before among them. -/
theorem loop_kinds_iff {p : Passes} (h : p.Tells cfg id idAlert time kept alerts)
    (hstart : p.raised = [])
    (hpart : cfg.alertOncePerHours ≠ 0 → ∀ a ∈ alerts, a.idAlert.part = idAlert.part)
    (hkept : ∀ a ∈ kept, a.at_ < 2 ^ 63) (halerts : ∀ a ∈ alerts, a.at_ < 2 ^ 63)
    (htime : time < 2 ^ 63) (hcount : p.call.count .booth < 2 ^ 32) (due : Li → Bool) :
    (kinds.foldl (Passes.pass cfg (okLi cfg) id idAlert time) p).raised =
        (kinds.filter due).map (p.call.alert id idAlert time) ↔
      ∀ li, (p.call.Reached cfg li ∧
        Asked cfg id idAlert time (kept ++ earlier due p.call id idAlert time li)
          (alerts ++ earlier due p.call id idAlert time li) li) ↔ due li = true := by
  obtain ⟨h1, hcount1, raises1, hiff1, hraised1⟩ :=
    h.pass hpart hkept halerts htime hcount .local_
  obtain ⟨h2, hcount2, raises2, hiff2, hraised2⟩ :=
    h1.pass hpart hkept halerts htime ((hcount1 .booth).symm ▸ hcount) .international
  obtain ⟨-, -, raises3, hiff3, hraised3⟩ := h2.pass hpart hkept halerts htime
    ((hcount2 .booth).symm ▸ (hcount1 .booth).symm ▸ hcount) .booth
  rw [filter_kinds, kinds, List.foldl_cons, List.foldl_cons, List.foldl_cons, List.foldl_nil]
  generalize Passes.pass cfg (okLi cfg) id idAlert time p .local_ = p1 at *
  generalize Passes.pass cfg (okLi cfg) id idAlert time p1 .international = p2 at *
  generalize Passes.pass cfg (okLi cfg) id idAlert time p2 .booth = p3 at *
  -- the limits are compared with the same numbers in all passes
  have hcount2' : ∀ li, p2.call.count li = p.call.count li := fun li =>
    (hcount2 li).trans (hcount1 li)
  rw [RccInfo.reached_congr hcount1] at hiff2
  rw [RccInfo.reached_congr hcount2'] at hiff3
  rw [hstart, List.nil_append] at hraised1
  rw [hstart] at hiff1
  rw [RccInfo.alert_congr hcount1, hraised1] at hraised2
  rw [RccInfo.alert_congr hcount2', hraised2] at hraised3
  have hkinds : p3.raised = ((if raises1 then [Li.local_] else []) ++
      (if raises2 then [Li.international] else []) ++
      (if raises3 then [Li.booth] else [])).map (p.call.alert id idAlert time) := by
    rw [hraised3]
    cases raises1 <;> cases raises2 <;> cases raises3 <;> rfl
  have hinj : Function.Injective (p.call.alert id idAlert time) := fun _ _ h => congrArg Alert.li h
  have heq : p3.raised = ((if due .local_ then [Li.local_] else []) ++
      (if due .international then [Li.international] else []) ++
      (if due .booth then [Li.booth] else [])).map (p.call.alert id idAlert time) ↔
      raises1 = due .local_ ∧ raises2 = due .international ∧ raises3 = due .booth := by
    rw [hkinds, List.map_inj_right hinj]
    cases raises1 <;> cases raises2 <;> cases raises3 <;> cases due .local_ <;>
      cases due .international <;> cases due .booth <;> decide
  -- as long as the passes raised what is due, the next one has the alerts that are due before it
  have hbefore2 : raises1 = due .local_ →
      p1.raised = earlier due p.call id idAlert time .international := by
    intro he
    rw [earlier_international, hraised1, he]
  have hbefore3 : raises1 = due .local_ → raises2 = due .international →
      p2.raised = earlier due p.call id idAlert time .booth := by
    intro he1 he2
    rw [earlier_booth, hraised2, he1, he2]
  rw [heq]
  constructor
  · rintro ⟨he1, he2, he3⟩ li
    cases li with
    | local_ => exact hiff1.symm.trans (by rw [he1])
    | international =>
      rw [← hbefore2 he1]
      exact hiff2.symm.trans (by rw [he2])
    | booth =>
      rw [← hbefore3 he1 he2]
      exact hiff3.symm.trans (by rw [he3])
  · intro hall
    have he1 : raises1 = due .local_ := Bool.eq_iff_iff.mpr (hiff1.trans (hall .local_))
    have hall2 := hall .international
    rw [← hbefore2 he1] at hall2
    have he2 : raises2 = due .international := Bool.eq_iff_iff.mpr (hiff2.trans hall2)
    have hall3 := hall .booth
    rw [← hbefore3 he1 he2] at hall3
    exact ⟨he1, he2, Bool.eq_iff_iff.mpr (hiff3.trans hall3)⟩

end Loop

end VoipMonitor.FraudAlerts
