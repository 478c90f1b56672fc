import VoipMonitor.Model.FraudAlerts

/-!
# The calls held by the fraud detector

A call is entered with its connect and erased with its bye or end, when these pass the window. The
entries are those of the open calls as long as no bye or end of an open call falls outside of the
window, and as long as the ids are C strings, since a call is entered under the C string of its id
and searched under the whole of it.
-/

namespace VoipMonitor.FraudRcc
open VoipMonitor.Library

variable {ι : Type} [DecidableEq ι] {cfg : Config ι}

/-! ## The entries of an address -/

def entries (s : Rcc ι) (ip : ι) : List (Bytes × Nat) :=
  (s.callsByIp ip).elim [] (fun call => call.callsLocal ++ call.callsInternational)

omit [DecidableEq ι] in
lemma calls_eq (s : Rcc ι) (ip : ι) : calls s ip = (entries s ip).map Prod.fst := rfl

lemma entries_connect {s : Rcc ι} {e : CallInfo ι} (he : e.isConnect = true) (hid : 0 ∉ e.callid)
    (hnew : e.callid ∉ calls s e.callerIp) (ip : ι) :
    (entries (evCallType s e) ip).Perm
      (if ip = e.callerIp then (e.callid, e.at_) :: entries s ip else entries s ip) := by
  have htype : e.typeCallInfo = .connectCall := of_decide_eq_true he
  have hkey : cString e.callid = e.callid := cString_eq hid
  -- the id is in none of the maps, so that nothing is replaced
  have herase : ∀ l : List (Bytes × Nat), e.callid ∉ l.map Prod.fst → eraseCall l e.callid = l := by
    intro l hl
    refine List.filter_eq_self.mpr (fun x hx => ?_)
    rw [decide_eq_true_eq]
    intro hx'
    exact hl (hx' ▸ List.mem_map_of_mem hx)
  unfold evCallType entries
  rw [htype]
  dsimp only
  by_cases hip : ip = e.callerIp
  · subst hip
    rw [Function.update_self, if_pos rfl, Option.elim_some]
    rw [calls_eq, entries] at hnew
    cases hcall : s.callsByIp e.callerIp with
    | none =>
      unfold RccCallInfo.addLocal RccCallInfo.addInternational setCall
      rw [hkey]
      cases e.localCalledNumber with
      | true => exact List.Perm.refl _
      | false => exact List.Perm.refl _
    | some call =>
      rw [hcall, Option.elim_some, List.map_append, List.mem_append, not_or] at hnew
      rw [Option.getD_some, Option.elim_some]
      unfold RccCallInfo.addLocal RccCallInfo.addInternational setCall
      rw [hkey, herase _ hnew.1, herase _ hnew.2]
      cases e.localCalledNumber with
      | true => exact List.Perm.refl _
      | false => exact List.perm_middle
  · rw [Function.update_of_ne hip, if_neg hip]

lemma entries_end {s : Rcc ι} {e : CallInfo ι} (he : e.ends = true) (ip : ι) :
    entries (evCallType s e) ip =
      if ip = e.callerIp then eraseCall (entries s ip) e.callid else entries s ip := by
  unfold CallInfo.ends at he
  unfold evCallType
  cases htype : e.typeCallInfo with
  | beginCall | connectCall | sessionCanceledCall => rw [htype] at he; exact absurd he (by decide)
  | seenByeCall | endCall =>
    unfold entries
    cases hcall : s.callsByIp e.callerIp with
    | none =>
      by_cases hip : ip = e.callerIp
      · rw [if_pos hip, hip, hcall]
        rfl
      · rw [if_neg hip]
    | some call =>
      dsimp only
      by_cases hip : ip = e.callerIp
      · rw [if_pos hip, hip, Function.update_self, hcall, Option.elim_some, Option.elim_some]
        unfold eraseCall
        rw [List.filter_append]
      · rw [if_neg hip, Function.update_of_ne hip]

lemma entries_other {s : Rcc ι} {e : CallInfo ι} (hconnect : e.isConnect = false)
    (hends : e.ends = false) : evCallType s e = s := by
  unfold CallInfo.isConnect at hconnect
  unfold CallInfo.ends at hends
  unfold evCallType
  cases htype : e.typeCallInfo with
  | beginCall => rfl
  | sessionCanceledCall => rfl
  | connectCall => rw [htype] at hconnect; exact absurd hconnect (by decide)
  | seenByeCall => rw [htype] at hends; exact absurd hends (by decide)
  | endCall => rw [htype] at hends; exact absurd hends (by decide)

def Old (cfg : Config ι) (now time : Nat) : Prop := time + cfg.absoluteTimeout * 1000000 < now

omit [DecidableEq ι] in
lemma keepsCall_iff {now : Nat} {x : Bytes × Nat} (hx : x.2 < 2 ^ 63) :
    keepsCall cfg now x = true ↔ ¬Old cfg now x.2 := by
  have htimeout := cfg.timeout_lt
  have hus : timeSToUs cfg.absoluteTimeout = cfg.absoluteTimeout * 1000000 :=
    Nat.mod_eq_of_lt (by omega)
  have hsum : (x.2 + cfg.absoluteTimeout * 1000000) % 2 ^ 64 = x.2 + cfg.absoluteTimeout * 1000000 :=
    Nat.mod_eq_of_lt (by omega)
  unfold keepsCall Old
  rw [hus, hsum]
  simp

omit [DecidableEq ι] in
lemma entries_cleanup (s : Rcc ι) (now : Nat) (ip : ι) :
    entries (cleanup cfg s now) ip = (entries s ip).filter (keepsCall cfg now) := by
  unfold entries cleanup
  dsimp only
  cases s.callsByIp ip with
  | none => rfl
  | some call =>
    rw [Option.bind_some, Option.elim_some, List.filter_append]
    split
    · rename_i hempty
      unfold RccCallInfo.isEmpty RccCallInfo.cleanup at hempty
      rw [Bool.and_eq_true] at hempty
      have hlocal := List.eq_nil_of_length_eq_zero (of_decide_eq_true hempty.1)
      have hinternational := List.eq_nil_of_length_eq_zero (of_decide_eq_true hempty.2)
      dsimp only at hlocal hinternational
      rw [hlocal, hinternational]
      rfl
    · rfl

lemma entries_evCallRcc (cfg : Config ι) (s : Rcc ι) (e : CallInfo ι) :
    (∀ ip, entries (evCallRcc cfg s e) ip = entries (evCallType s e) ip) ∨
      ∀ ip, entries (evCallRcc cfg s e) ip =
        (entries (evCallType s e) ip).filter (keepsCall cfg e.at_) := by
  unfold evCallRcc
  dsimp only
  split
  · exact Or.inl (fun _ => rfl)
  · split
    · exact Or.inr (fun ip => entries_cleanup _ _ ip)
    · exact Or.inl (fun _ => rfl)

/-! ## Open calls -/

def Open (cfg : Config ι) (history : List (CallInfo ι)) (e : CallInfo ι) : Prop :=
  e ∈ history ∧ e.isConnect = true ∧ okDayHour cfg e = true ∧
    ∀ e' ∈ history, e'.ends = true → e'.callid ≠ e.callid

omit [DecidableEq ι] in
lemma open_cons {history : List (CallInfo ι)} {e x : CallInfo ι} (h : Open cfg (e :: history) x) :
    (e.ends = true → e.callid ≠ x.callid) ∧ (x = e ∨ Open cfg history x) := by
  obtain ⟨hmem, hconnect, hok, hends⟩ := h
  refine ⟨hends e List.mem_cons_self, ?_⟩
  rcases List.mem_cons.mp hmem with rfl | hmem
  · exact Or.inl rfl
  · exact Or.inr ⟨hmem, hconnect, hok, fun e' he' => hends e' (List.mem_cons_of_mem _ he')⟩

omit [DecidableEq ι] in
lemma Open.cons {history : List (CallInfo ι)} {e x : CallInfo ι} (h : Open cfg history x)
    (hends : e.ends = true → e.callid ≠ x.callid) : Open cfg (e :: history) x := by
  obtain ⟨hmem, hconnect, hok, hall⟩ := h
  refine ⟨List.mem_cons_of_mem _ hmem, hconnect, hok, fun e' he' => ?_⟩
  rcases List.mem_cons.mp he' with rfl | he'
  · exact hends
  · exact hall e' he'

structure Holds (cfg : Config ι) (history : List (CallInfo ι)) (now : Nat)
    (held : ι → List (Bytes × Nat)) : Prop where
  nodup : ∀ ip, ((held ip).map Prod.fst).Nodup
  sound : ∀ ip x, x ∈ held ip → ∃ e, Open cfg history e ∧ e.callerIp = ip ∧ x = (e.callid, e.at_)
  complete : ∀ e, Open cfg history e → (e.callid, e.at_) ∈ held e.callerIp ∨ Old cfg now e.at_

variable {history : List (CallInfo ι)} {now : Nat} {held : ι → List (Bytes × Nat)}

omit [DecidableEq ι] in
lemma Holds.perm {held' : ι → List (Bytes × Nat)} (h : Holds cfg history now held)
    (hperm : ∀ ip, (held' ip).Perm (held ip)) : Holds cfg history now held' where
  nodup ip := ((hperm ip).map Prod.fst).nodup_iff.mpr (h.nodup ip)
  sound ip x hx := h.sound ip x ((hperm ip).mem_iff.mp hx)
  complete e he := (h.complete e he).imp_left (hperm e.callerIp).mem_iff.mpr

omit [DecidableEq ι] in
lemma Holds.cleanup (h : Holds cfg history now held) :
    Holds cfg history now (fun ip => (held ip).filter (keepsCall cfg now)) where
  nodup ip := (h.nodup ip).sublist (List.filter_sublist.map _)
  sound ip x hx := h.sound ip x (List.mem_of_mem_filter hx)
  complete e he := by
    rcases h.complete e he with hmem | hold
    · by_cases hold : Old cfg now e.at_
      · exact Or.inr hold
      · exact Or.inl (List.mem_filter.mpr ⟨hmem, (keepsCall_iff e.at_lt).mpr hold⟩)
    · exact Or.inr hold

omit [DecidableEq ι] in
lemma Old.mono {now' time : Nat} (h : Old cfg now time) (hle : now ≤ now') : Old cfg now' time :=
  lt_of_lt_of_le h hle

omit [DecidableEq ι] in
lemma Holds.pass (h : Holds cfg history now held) {e : CallInfo ι} (htime : now ≤ e.at_)
    (hopen : ¬(e.isConnect = true ∧ okDayHour cfg e = true))
    (hends : e.ends = true → ∀ x, Open cfg history x → x.callid ≠ e.callid) :
    Holds cfg (e :: history) e.at_ held where
  nodup := h.nodup
  sound ip x hx := by
    obtain ⟨e', he', hip, hxe⟩ := h.sound ip x hx
    exact ⟨e', he'.cons (fun hend => (hends hend e' he').symm), hip, hxe⟩
  complete x hx := by
    rcases (open_cons hx).2 with rfl | hx'
    · exact absurd ⟨hx.2.1, hx.2.2.1⟩ hopen
    · exact (h.complete x hx').imp_right (fun hold => hold.mono htime)

lemma Holds.connect (h : Holds cfg history now held) {e : CallInfo ι} (htime : now ≤ e.at_)
    (hconnect : e.isConnect = true) (hok : okDayHour cfg e = true)
    (hnew : e.callid ∉ (held e.callerIp).map Prod.fst)
    (hnoend : ∀ e' ∈ history, e'.ends = true → e'.callid ≠ e.callid) (hends : e.ends = false) :
    Holds cfg (e :: history) e.at_
      (fun ip => if ip = e.callerIp then (e.callid, e.at_) :: held ip else held ip) where
  nodup ip := by
    split
    · rename_i hip
      rw [List.map_cons, List.nodup_cons]
      exact ⟨hip ▸ hnew, h.nodup ip⟩
    · exact h.nodup ip
  sound ip x hx := by
    have hold : x ∈ held ip → ∃ e', Open cfg (e :: history) e' ∧ e'.callerIp = ip ∧
        x = (e'.callid, e'.at_) := by
      intro hx
      obtain ⟨e', he', hip, hxe⟩ := h.sound ip x hx
      exact ⟨e', he'.cons (fun hend => by rw [hends] at hend; cases hend), hip, hxe⟩
    split at hx
    · rename_i hip
      rcases List.mem_cons.mp hx with rfl | hx
      · refine ⟨e, ⟨List.mem_cons_self, hconnect, hok, fun e' he' hend => ?_⟩, hip.symm, rfl⟩
        rcases List.mem_cons.mp he' with rfl | he'
        · rw [hends] at hend
          cases hend
        · exact hnoend e' he' hend
      · exact hold hx
    · exact hold hx
  complete x hx := by
    rcases (open_cons hx).2 with rfl | hx'
    · rw [if_pos rfl]
      exact Or.inl List.mem_cons_self
    · rcases h.complete x hx' with hmem | hold
      · left
        split
        · exact List.mem_cons_of_mem _ hmem
        · exact hmem
      · exact Or.inr (hold.mono htime)

lemma Holds.ends (h : Holds cfg history now held) {e : CallInfo ι} (htime : now ≤ e.at_)
    (hends : e.ends = true) (hconnect : e.isConnect = false)
    (hip : ∀ x, Open cfg history x → x.callid = e.callid → x.callerIp = e.callerIp) :
    Holds cfg (e :: history) e.at_
      (fun ip => if ip = e.callerIp then eraseCall (held ip) e.callid else held ip) where
  nodup ip := by
    split
    · exact (h.nodup ip).sublist (List.filter_sublist.map _)
    · exact h.nodup ip
  sound ip x hx := by
    have hmem : x ∈ held ip ∧ (ip = e.callerIp → x.1 ≠ e.callid) := by
      split at hx
      · obtain ⟨hmem, hne⟩ := List.mem_filter.mp hx
        exact ⟨hmem, fun _ => of_decide_eq_true hne⟩
      · rename_i hne
        exact ⟨hx, fun heq => absurd heq hne⟩
    obtain ⟨e', he', hip', rfl⟩ := h.sound ip x hmem.1
    refine ⟨e', he'.cons (fun _ heq => ?_), hip', rfl⟩
    exact hmem.2 (hip'.symm.trans (hip e' he' heq.symm)) heq.symm
  complete x hx := by
    obtain ⟨hne, hx'⟩ := open_cons hx
    rcases hx' with rfl | hx'
    · exact absurd hx.2.1 (by rw [hconnect]; decide)
    · rcases h.complete x hx' with hmem | hold
      · left
        split
        · refine List.mem_filter.mpr ⟨hmem, ?_⟩
          rw [decide_eq_true_eq]
          exact (hne hends).symm
        · exact hmem
      · exact Or.inr (hold.mono htime)

/-! ## Runs -/

/-- A call that connects inside of the window has a C string as its id, and no bye or end of an open
call falls outside of the window. -/
def EndsInside (cfg : Config ι) (t : Traced ι) (e : CallInfo ι) : Prop :=
  (e.isConnect = true → okDayHour cfg e = true → 0 ∉ e.callid) ∧
    (e.ends = true → okDayHour cfg e = false → ∀ x, Open cfg t.history x → x.callid ≠ e.callid)

structure Inv (cfg : Config ι) (t : Traced ι) : Prop where
  holds : Holds cfg t.history t.now (entries t.rcc)
  connects : ∀ e ∈ t.history, ∀ e' ∈ t.history, e.isConnect = true → e'.isConnect = true →
    e.callid = e'.callid → e.callerIp = e'.callerIp
  ended : ∀ e ∈ t.history, e.ends = true → ∃ e' ∈ t.history, e'.isConnect = true ∧ e'.callid = e.callid

omit [DecidableEq ι] in
lemma inv_start : Inv cfg {} := by
  refine ⟨⟨fun _ => List.nodup_nil, nofun, ?_⟩, nofun, nofun⟩
  rintro e ⟨hmem, -⟩
  cases hmem

omit [DecidableEq ι] in
lemma not_ends_of_isConnect {e : CallInfo ι} (h : e.isConnect = true) : e.ends = false := by
  have htype : e.typeCallInfo = .connectCall := of_decide_eq_true h
  unfold CallInfo.ends
  rw [htype]
  rfl

lemma evCall_eq {t : Traced ι} {e : CallInfo ι} (h : Follows cfg t e) :
    evCall cfg t.rcc e = if okDayHour cfg e then evCallRcc cfg t.rcc e else t.rcc := by
  unfold evCall
  rw [h.invite, h.filter]
  cases okDayHour cfg e with
  | true => simp
  | false => simp

lemma Holds.evCallRcc {s : Rcc ι} {e : CallInfo ι}
    (h : Holds cfg history e.at_ (entries (evCallType s e))) :
    Holds cfg history e.at_ (entries (evCallRcc cfg s e)) := by
  rcases entries_evCallRcc cfg s e with hsame | hfilter
  · rwa [funext hsame]
  · rw [funext hfilter]
    exact h.cleanup

lemma Inv.next {t : Traced ι} {e : CallInfo ι} (h : Inv cfg t) (hfollows : Follows cfg t e)
    (hinside : EndsInside cfg t e) : Inv cfg (t.next cfg e) := by
  have hholds : Holds cfg (e :: t.history) e.at_ (entries (evCall cfg t.rcc e)) := by
    rw [evCall_eq hfollows]
    cases hok : okDayHour cfg e with
    | false =>
      rw [if_neg Bool.false_ne_true]
      refine h.holds.pass hfollows.time ?_ (fun hends => hinside.2 hends hok)
      rw [hok]
      exact fun hbad => Bool.false_ne_true hbad.2
    | true =>
      rw [if_pos rfl]
      refine Holds.evCallRcc ?_
      cases hconnect : e.isConnect with
      | true =>
        have hfirst := hfollows.once hconnect
        -- an entry with the id would be from an earlier connect of the call
        have hnew : e.callid ∉ calls t.rcc e.callerIp := by
          intro hmem
          obtain ⟨x, hx, hxid⟩ := List.mem_map.mp hmem
          obtain ⟨e', he', -, rfl⟩ := h.holds.sound _ x hx
          exact hfirst e' he'.1 he'.2.1 hxid
        have hnoend : ∀ e' ∈ t.history, e'.ends = true → e'.callid ≠ e.callid := by
          intro e' he' hend heq
          obtain ⟨c, hc, hc', hid⟩ := h.ended e' he' hend
          exact hfirst c hc hc' (hid.trans heq)
        exact (h.holds.connect hfollows.time hconnect hok hnew hnoend
          (not_ends_of_isConnect hconnect)).perm
            (entries_connect hconnect (hinside.1 hconnect hok) hnew)
      | false =>
        cases hends : e.ends with
        | true =>
          rw [funext (entries_end hends)]
          refine h.holds.ends hfollows.time hends hconnect (fun x hx hid => ?_)
          obtain ⟨c, hc, hc', hcid, hcip⟩ := hfollows.ends hends
          rw [← hcip]
          exact h.connects x hx.1 c hc hx.2.1 hc' (hid.trans hcid.symm)
        | false =>
          rw [entries_other hconnect hends]
          refine h.holds.pass hfollows.time ?_ (fun hbad => ?_)
          · rw [hconnect]
            exact fun hbad => Bool.false_ne_true hbad.1
          · rw [hends] at hbad
            cases hbad
  refine ⟨hholds, fun x hx y hy hxc hyc hid => ?_, fun x hx hend => ?_⟩
  · rcases List.mem_cons.mp hx with rfl | hx'
    · rcases List.mem_cons.mp hy with rfl | hy'
      · rfl
      · exact absurd hid.symm (hfollows.once hxc y hy' hyc)
    · rcases List.mem_cons.mp hy with rfl | hy'
      · exact absurd hid (hfollows.once hyc x hx' hxc)
      · exact h.connects x hx' y hy' hxc hyc hid
  · rcases List.mem_cons.mp hx with rfl | hx
    · obtain ⟨c, hc, hc', hcid, -⟩ := hfollows.ends hend
      exact ⟨c, List.mem_cons_of_mem _ hc, hc', hcid⟩
    · obtain ⟨c, hc, hc', hcid⟩ := h.ended x hx hend
      exact ⟨c, List.mem_cons_of_mem _ hc, hc', hcid⟩

/-- The calls of each address are the open ones, once each, but for calls that are older than the
timeout. -/
def CallsExact (cfg : Config ι) (t : Traced ι) : Prop :=
  ∀ ip, (calls t.rcc ip).Nodup ∧
    (∀ callid ∈ calls t.rcc ip, ∃ e, Open cfg t.history e ∧ e.callerIp = ip ∧ e.callid = callid) ∧
    ∀ e, Open cfg t.history e → e.callerIp = ip →
      e.callid ∈ calls t.rcc ip ∨ e.at_ + cfg.absoluteTimeout * 1000000 < t.now

omit [DecidableEq ι] in
lemma Inv.callsExact {t : Traced ι} (h : Inv cfg t) : CallsExact cfg t := by
  intro ip
  refine ⟨h.holds.nodup ip, fun callid hmem => ?_, fun e he hip => ?_⟩
  · obtain ⟨x, hx, rfl⟩ := List.mem_map.mp hmem
    obtain ⟨e, he, hip, rfl⟩ := h.holds.sound ip x hx
    exact ⟨e, he, hip, rfl⟩
  · subst hip
    exact (h.holds.complete e he).imp_left (fun hmem => List.mem_map_of_mem hmem)

/-- After every event of a run in which the calls that connect inside of the window end inside of it,
the calls of each address are exactly the open ones. -/
theorem evCall_callsExact (cfg : Config ι) (t : Traced ι)
    (h : ReachBy (fun t e => some (t.next cfg e))
      (fun t e => Follows cfg t e ∧ EndsInside cfg t e) {} t) : CallsExact cfg t := by
  have hinv : Inv cfg t := by
    refine h.invariant inv_start ?_
    rintro s e t hs ⟨hfollows, hinside⟩ hstep
    obtain rfl := Option.some.inj hstep
    exact hs.next hfollows hinside
  exact hinv.callsExact

def exampleConfig : Config Nat where
  hourFrom := 8
  hourTo := 18
  dayOfWeekSet := false
  dayOfWeek := fun _ => true
  timeR := fun s => (s / 3600 % 24, (s / 86400 + 4) % 7)
  okFilter := fun _ => true
  absoluteTimeout := 4 * 3600
  timeout_lt := by decide

def exampleEvent (typeCallInfo : TypeCallInfo) (hour : Nat) (h : hour < 24) : CallInfo Nat where
  typeCallInfo := typeCallInfo
  callid := [97]
  callerIp := 1
  at_ := hour * 3600000000
  at_lt := by omega

lemma example_follows (hour : Nat) (h : hour < 24) (hle : 10 ≤ hour) :
    Follows exampleConfig {} (exampleEvent .connectCall 10 (by decide)) ∧
      Follows exampleConfig (Traced.next exampleConfig {} (exampleEvent .connectCall 10 (by decide)))
        (exampleEvent .seenByeCall hour h) := by
  refine ⟨⟨Nat.zero_le _, rfl, rfl, fun _ => nofun, nofun⟩, ⟨?_, rfl, rfl, nofun, fun _ => ?_⟩⟩
  · exact Nat.mul_le_mul_right _ hle
  · exact ⟨_, List.mem_cons_self, rfl, rfl, rfl⟩

theorem evCall_callsExact_example : CallsExact exampleConfig
    ((Traced.next exampleConfig {} (exampleEvent .connectCall 10 (by decide))).next exampleConfig
      (exampleEvent .seenByeCall 11 (by decide))) := by
  obtain ⟨hfirst, hsecond⟩ := example_follows 11 (by decide) (by decide)
  refine evCall_callsExact exampleConfig _ ((ReachBy.initial.step ⟨hfirst, ?_, nofun⟩ rfl).step
    ⟨hsecond, nofun, fun _ hok => ?_⟩ rfl)
  · intro _ _
    decide
  · exact absurd hok (by decide)

/-- The call connects at 10 o'clock and ends at 19 o'clock, outside of the window: it is still
held. -/
theorem evCall_keeps_ended_call : ¬∀ (cfg : Config Nat) (t : Traced Nat),
    ReachBy (fun t e => some (t.next cfg e)) (fun t e => Follows cfg t e) {} t → CallsExact cfg t := by
  intro hall
  obtain ⟨hfirst, hsecond⟩ := example_follows 19 (by decide) (by decide)
  have hexact := hall exampleConfig _ ((ReachBy.initial.step hfirst rfl).step hsecond rfl)
  obtain ⟨-, hsound, -⟩ := hexact 1
  obtain ⟨e, he, -, hid⟩ := hsound [97] (by decide)
  exact he.2.2.2 (exampleEvent .seenByeCall 19 (by decide)) List.mem_cons_self rfl hid.symm

end VoipMonitor.FraudRcc
