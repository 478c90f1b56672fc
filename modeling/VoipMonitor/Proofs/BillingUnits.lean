import VoipMonitor.Library.UnitRuns
import VoipMonitor.Model.Billing

/-!
# The price of the tariff units

The loop charges the units in runs, all of a run by the rate at its first second. A run is cut at
the time that `peakCheck` gives, which has the seconds of the beginning of the run, and is not cut
at all in the first round. The time is converted to an unsigned number, and there is no result when
it is out of range.
-/

namespace VoipMonitor.Billing
open VoipMonitor.Library VoipMonitor.TimeCache Calendar

/-! ## Times of the loop -/

section Times
variable (t : Tariff) (offset : Int) (holidays : Option (List Holiday))

lemma mktime_fst (time : Tm) : (mktime offset time).1 = toSeconds time - offset := rfl

lemma dateTimeAdd_ofSeconds (n addS : Int) :
    dateTimeAdd offset (ofSeconds n) addS = ofSeconds (n + addS) := by
  rw [dateTimeAdd, mktime_fst, toSeconds_ofSeconds, localtime]
  congr 1
  ring

lemma toSeconds_getNextBeginDate (n : Int) :
    toSeconds (getNextBeginDate offset (ofSeconds n)) = (n / 86400 + 1) * 86400 := by
  unfold getNextBeginDate
  dsimp only
  rw [mktime_fst, toSeconds_sameDay, localtime, toSeconds_sameDay]
  omega

/-- The change is at the next midnight or at a boundary of the peak hours that is ahead. -/
def IsAhead (p : PeakDefinition) (time toTime : Tm) : Prop :=
  toTime = getNextBeginDate offset time ∨
    ∃ hour minute : BitVec 32, (hour = p.peakStartsHour ∧ minute = p.peakStartsMinute ∨
      hour = p.peakEndsHour ∧ minute = p.peakEndsMinute) ∧
      time.hour * 60 + time.min < (hour * 60 + minute).toInt ∧
      toTime = PeakDefinition.atHour time hour minute

lemma isAhead_peakCheck (p : PeakDefinition) (time : Tm) :
    IsAhead offset p time (p.peakCheck offset time holidays).2 := by
  have hday : ∀ peak : Bool, IsAhead offset p time (peak, getNextBeginDate offset time).2 :=
    fun _ => Or.inl rfl
  have hstarts : ∀ peak : Bool, time.hour * 60 + time.min < p.peakStarts.toInt → IsAhead offset p
      time (peak, PeakDefinition.atHour time p.peakStartsHour p.peakStartsMinute).2 :=
    fun _ h => Or.inr ⟨_, _, Or.inl ⟨rfl, rfl⟩, h, rfl⟩
  have hends : ∀ peak : Bool, time.hour * 60 + time.min < p.peakEnds.toInt → IsAhead offset p
      time (peak, PeakDefinition.atHour time p.peakEndsHour p.peakEndsMinute).2 :=
    fun _ h => Or.inr ⟨_, _, Or.inr ⟨rfl, rfl⟩, h, rfl⟩
  unfold PeakDefinition.peakCheck
  dsimp only
  generalize (if p.weekendStart ≠ 0 then p.weekendStart.toInt else 7) = weekDay1
  generalize (if weekDay1 = 7 then 1 else weekDay1 + 1) = weekDay2
  split
  · exact hday _
  split
  · exact hday _
  split
  · exact hday _
  split
  · split
    · split
      · exact hstarts _ ‹_›
      · split
        · exact hends _ ‹_›
        · exact hday _
    · split
      · split
        · exact hends _ ‹_›
        · split
          · exact hstarts _ ‹_›
          · exact hday _
      · exact hday _
  · exact hday _

def peakAt (n : Int) : Bool := (t.peakDefinition.peakCheck offset (ofSeconds n) holidays).1

/-- The seconds from a second to the change that `peakCheck` gives for it. -/
def toChange (n : Int) : Int :=
  diffTime offset (t.peakDefinition.peakCheck offset (ofSeconds n) holidays).2 (ofSeconds n)

/-- The time to the next change is an unsigned number. -/
def InRange (n : Int) : Prop :=
  t.peakDefinition.enable = true → 0 ≤ toChange t offset holidays n ∧
    toChange t offset holidays n < 2 ^ 32

/-- How long a run that begins at a second may be. -/
def limitAt (n : Int) : Nat :=
  if t.peakDefinition.enable then (toUnsigned (toChange t offset holidays n)).getD (2 ^ 32 - 1)
  else 2 ^ 32 - 1

lemma diffTime_atHour (n : Int) (hour minute : BitVec 32) :
    diffTime offset (PeakDefinition.atHour (ofSeconds n) hour minute) (ofSeconds n) =
      60 * (hour.toInt * 60 + minute.toInt - ((ofSeconds n).hour * 60 + (ofSeconds n).min)) := by
  have hto := toSeconds_sameDay n hour.toInt minute.toInt (n % 60)
  have hfrom := toSeconds_ofSeconds n
  have hhour : (ofSeconds n).hour = n % 86400 / 3600 := rfl
  have hmin : (ofSeconds n).min = n % 3600 / 60 := rfl
  rw [diffTime, mktime_fst, mktime_fst, hfrom, hhour, hmin]
  change toSeconds { ofSeconds n with hour := hour.toInt, min := minute.toInt, sec := n % 60 } -
    offset - (n - offset) = _
  rw [hto]
  omega

lemma toChange_cases (n : Int) :
    0 < toChange t offset holidays n ∧ toChange t offset holidays n ≤ 86400 ∨
      ∃ hour minute : BitVec 32, (hour = t.peakDefinition.peakStartsHour ∧
        minute = t.peakDefinition.peakStartsMinute ∨ hour = t.peakDefinition.peakEndsHour ∧
        minute = t.peakDefinition.peakEndsMinute) ∧
        n % 86400 / 60 < (hour * 60 + minute).toInt ∧
        toChange t offset holidays n = 60 * (hour.toInt * 60 + minute.toInt - n % 86400 / 60) := by
  have htime : (ofSeconds n).hour * 60 + (ofSeconds n).min = n % 86400 / 60 := by
    change n % 86400 / 3600 * 60 + n % 3600 / 60 = _
    omega
  unfold toChange
  rcases isAhead_peakCheck offset holidays t.peakDefinition (ofSeconds n) with
    hto | ⟨hour, minute, hof, hahead, hto⟩
  · left
    rw [hto, diffTime, mktime_fst, mktime_fst, toSeconds_getNextBeginDate, toSeconds_ofSeconds]
    omega
  · rw [htime] at hahead
    rw [hto, diffTime_atHour, htime]
    exact Or.inr ⟨hour, minute, hof, hahead, rfl⟩

lemma toInt_mul_add (hour minute : BitVec 32) :
    (hour * 60 + minute).toInt = Int.bmod (hour.toInt * 60 + minute.toInt) (2 ^ 32) := by
  have hsixty : (60 : BitVec 32).toInt = 60 := rfl
  rw [BitVec.toInt_add, BitVec.toInt_mul, hsixty, Int.bmod_add_bmod]

lemma limitAt_pos (n : Int) : 0 < limitAt t offset holidays n := by
  have hne : toChange t offset holidays n ≠ 0 := by
    rcases toChange_cases t offset holidays n with ⟨hpos, -⟩ | ⟨hour, minute, -, hahead, heq⟩
    · exact hpos.ne'
    · intro hzero
      have hnow : hour.toInt * 60 + minute.toInt = n % 86400 / 60 := by omega
      rw [toInt_mul_add, hnow, Int.bmod_eq_of_le (by omega) (by omega)] at hahead
      exact lt_irrefl _ hahead
  unfold limitAt toUnsigned
  split
  · split
    · rw [Option.getD_some]
      omega
    · rw [Option.getD_none]
      omega
  · omega

/-- Hours and minutes below a million are always in range. -/
lemma inRange_of_small (n : Int) (hsmall : ∀ x ∈ [t.peakDefinition.peakStartsHour,
      t.peakDefinition.peakStartsMinute, t.peakDefinition.peakEndsHour,
      t.peakDefinition.peakEndsMinute], x.toNat < 10 ^ 6) : InRange t offset holidays n := by
  intro _
  have hint : ∀ x : BitVec 32, x.toNat < 10 ^ 6 → x.toInt = x.toNat :=
    fun x hx => BitVec.toInt_eq_toNat_of_lt (by omega)
  simp only [List.forall_mem_cons, List.not_mem_nil, false_implies, implies_true, and_true] at hsmall
  obtain ⟨hsh, hsm, heh, hem⟩ := hsmall
  rcases toChange_cases t offset holidays n with ⟨hpos, hle⟩ | ⟨hour, minute, hof, hahead, heq⟩
  · omega
  · have hbounds : hour.toNat < 10 ^ 6 ∧ minute.toNat < 10 ^ 6 := by
      rcases hof with ⟨rfl, rfl⟩ | ⟨rfl, rfl⟩
      · exact ⟨hsh, hsm⟩
      · exact ⟨heh, hem⟩
    rw [toInt_mul_add, hint _ hbounds.1, hint _ hbounds.2,
      Int.bmod_eq_of_le (by omega) (by omega)] at hahead
    rw [hint _ hbounds.1, hint _ hbounds.2] at heq
    omega

lemma enable_and_peakAt (n : Int) :
    (t.peakDefinition.enable && peakAt t offset holidays n) = peakAt t offset holidays n := by
  cases henable : t.peakDefinition.enable with
  | true => rfl
  | false => simp [peakAt, PeakDefinition.peakCheck, henable]

end Times

/-! ## The loop -/

def rate (t : Tariff) (peak : Bool) : ℚ := if peak then t.pricePeak else t.price

section Loop
variable (t : Tariff) (offset : Int) (holidays : Option (List Holiday))

def iterDuration (n rest : Int) (count : Nat) : Nat :=
  let duration := if count = 0 ∧ t.t1 ≠ t.t2 then t.t1 else rest.toNat
  if count > 0 then min duration (limitAt t offset holidays n) else duration

def iterUnit (count : Nat) : Nat := if count = 0 then t.t1 else t.t2

lemma iterDuration_eq (n rest : Int) (count : Nat) (hsmall : rest < 2 ^ 31) :
    iterDuration t offset holidays n rest count =
      if t.peakDefinition.enable ∧ limitAt t offset holidays n <
          (if count = 0 ∧ t.t1 ≠ t.t2 then t.t1 else rest.toNat) ∧ count > 0 then
        limitAt t offset holidays n
      else if count = 0 ∧ t.t1 ≠ t.t2 then t.t1 else rest.toNat := by
  unfold iterDuration
  by_cases hcount : count > 0
  · have hduration : (if count = 0 ∧ t.t1 ≠ t.t2 then t.t1 else rest.toNat) = rest.toNat :=
      if_neg (by omega)
    rw [if_pos hcount, hduration]
    cases henable : t.peakDefinition.enable with
    | true =>
      simp only [true_and, hcount, and_true]
      split
      · exact min_eq_right (by omega)
      · exact min_eq_left (by omega)
    | false =>
      simp only [limitAt, henable, Bool.false_eq_true, if_false, false_and]
      exact min_eq_left (by omega)
  · generalize (if count = 0 ∧ t.t1 ≠ t.t2 then t.t1 else rest.toNat) = duration
    rw [if_neg hcount, if_neg (fun h => hcount h.2.2)]

lemma maxDurationIter_eq (n rest : Int) (count : Nat) (price : ℚ) (billed : Nat) :
    (InRange t offset holidays n → maxDurationIter t offset holidays
      ⟨rest, ofSeconds n, count, price, billed⟩ = some (limitAt t offset holidays n)) ∧
    (¬InRange t offset holidays n → maxDurationIter t offset holidays
      ⟨rest, ofSeconds n, count, price, billed⟩ = none) := by
  unfold InRange maxDurationIter limitAt
  cases t.peakDefinition.enable with
  | false => simp
  | true =>
    simp only [if_true, forall_const]
    rw [← toChange, toUnsigned]
    constructor
    · intro h
      rw [if_pos h]
      rfl
    · exact fun h => if_neg h

lemma chargeIter_eq (n rest : Int) (count : Nat) (price : ℚ) (billed : Nat)
    (hrange : InRange t offset holidays n) (hunit : 0 < iterUnit t count) (hrest : 0 < rest)
    (hsmall : rest < 2 ^ 31)
    (hbound : unitsFor (iterDuration t offset holidays n rest count) (iterUnit t count) *
      iterUnit t count < 2 ^ 31) :
    chargeIter t offset holidays ⟨rest, ofSeconds n, count, price, billed⟩ =
      let k := unitsFor (iterDuration t offset holidays n rest count) (iterUnit t count)
      some ⟨rest - (k * iterUnit t count : Nat), ofSeconds (n + (k * iterUnit t count : Nat)),
        count + 1,
        price + k * rate t (peakAt t offset holidays n) * iterUnit t count / 60,
        billed + k * iterUnit t count⟩ := by
  have hduration := iterDuration_eq t offset holidays n rest count hsmall
  have hwhole : unitsFor (iterDuration t offset holidays n rest count) (iterUnit t count) *
      iterUnit t count % 2 ^ 32 =
      unitsFor (iterDuration t offset holidays n rest count) (iterUnit t count) *
        iterUnit t count := Nat.mod_eq_of_lt (by omega)
  have hcount : unitsFor (iterDuration t offset holidays n rest count) (iterUnit t count) *
      iterUnit t count / iterUnit t count =
      unitsFor (iterDuration t offset holidays n rest count) (iterUnit t count) :=
    Nat.mul_div_cancel _ hunit
  rw [chargeIter, (maxDurationIter_eq t offset holidays n rest count price billed).1 hrange,
    Option.map_some]
  unfold chargeUpTo
  dsimp only
  rw [← hduration, ← iterUnit, ← unitsFor, hwhole, hcount, dateTimeAdd_ofSeconds, ← peakAt,
    enable_and_peakAt, Int.bmod_eq_of_le (by omega) (by omega)]
  rfl

section LaterRound
variable (n rest : Int) (count : Nat) (price : ℚ) (billed : Nat)

def laterUnits : Nat := unitsFor (min rest.toNat (limitAt t offset holidays n)) t.t2

lemma iterUnit_later (hcount : 0 < count) : iterUnit t count = t.t2 := if_neg (by omega)

lemma iterDuration_later (hcount : 0 < count) :
    iterDuration t offset holidays n rest count = min rest.toNat (limitAt t offset holidays n) := by
  unfold iterDuration
  rw [if_pos hcount, if_neg (by omega)]

lemma laterUnits_bounds (hunit : 0 < t.t2) (hrest : 0 < rest) :
    0 < laterUnits t offset holidays n rest * t.t2 ∧
      laterUnits t offset holidays n rest * t.t2 < rest.toNat + t.t2 := by
  have hlimit := limitAt_pos t offset holidays n
  obtain ⟨hle, hlt⟩ := unitsFor_bounds (min rest.toNat (limitAt t offset holidays n)) hunit
  unfold laterUnits
  omega

lemma chargeIter_later (hrange : InRange t offset holidays n) (hunit : 0 < t.t2)
    (hcount : 0 < count) (hrest : 0 < rest) (hbound : rest + t.t2 < 2 ^ 31) :
    chargeIter t offset holidays ⟨rest, ofSeconds n, count, price, billed⟩ =
      some ⟨rest - (laterUnits t offset holidays n rest * t.t2 : Nat),
        ofSeconds (n + (laterUnits t offset holidays n rest * t.t2 : Nat)), count + 1,
        price + laterUnits t offset holidays n rest * rate t (peakAt t offset holidays n) *
          t.t2 / 60, billed + laterUnits t offset holidays n rest * t.t2⟩ := by
  have hunits := laterUnits_bounds t offset holidays n rest hunit hrest
  have hstep := chargeIter_eq t offset holidays n rest count price billed hrange
    (by rw [iterUnit_later t count hcount]; exact hunit) hrest (by omega)
  rw [iterDuration_later t offset holidays n rest count hcount, iterUnit_later t count hcount,
    ← laterUnits] at hstep
  exact hstep (by omega)

lemma iterDuration_start (duration : Nat) :
    iterDuration t offset holidays n duration 0 = if t.t1 = t.t2 then duration else t.t1 := by
  by_cases hsame : t.t1 = t.t2
  · simp [iterDuration, hsame]
  · simp [iterDuration, hsame]

end LaterRound

lemma chargeLoop_done (fuel : Nat) {s : Charge} (h : s.durationRest ≤ 0) :
    chargeLoop t offset holidays fuel s = some s := by
  unfold chargeLoop
  rw [if_neg (by omega)]

lemma chargeLoop_succ (fuel : Nat) {s : Charge} (h : 0 < s.durationRest) :
    chargeLoop t offset holidays (fuel + 1) s =
      (chargeIter t offset holidays s).bind (chargeLoop t offset holidays fuel) := by
  rw [chargeLoop, if_pos h]

lemma inRange_of_chargeIter {n rest : Int} {count : Nat} {price : ℚ} {billed fuel : Nat} {s : Charge}
    (hrest : 0 < rest)
    (h : chargeLoop t offset holidays fuel ⟨rest, ofSeconds n, count, price, billed⟩ = some s) :
    InRange t offset holidays n ∧ ∃ fuel', fuel = fuel' + 1 := by
  cases fuel with
  | zero =>
    unfold chargeLoop at h
    rw [if_pos hrest] at h
    cases h
  | succ fuel =>
    refine ⟨?_, fuel, rfl⟩
    by_contra hrange
    rw [chargeLoop_succ _ _ _ _ (by exact hrest), chargeIter,
      (maxDurationIter_eq t offset holidays n rest count price billed).2 hrange] at h
    cases h

/-- The runs of the rest of a call. -/
def restRuns (n rest : Int) : List Int :=
  runStarts (limitAt t offset holidays) t.t2 (unitsFor rest.toNat t.t2) n n

lemma restRuns_of_nonpos {n rest : Int} (h : rest ≤ 0) : restRuns t offset holidays n rest = [] := by
  rw [restRuns, Int.toNat_of_nonpos h, unitsFor_zero, runStarts]

lemma restRuns_step (hunit : 0 < t.t2) (n rest : Int) (hrest : 0 < rest) :
    let k := laterUnits t offset holidays n rest
    0 < k ∧ k * t.t2 < rest.toNat + t.t2 ∧
      unitsFor rest.toNat t.t2 = k + unitsFor (rest - (k * t.t2 : Nat)).toNat t.t2 ∧
      restRuns t offset holidays n rest = List.replicate k n ++
        restRuns t offset holidays (n + (k * t.t2 : Nat)) (rest - (k * t.t2 : Nat)) := by
  intro k
  obtain ⟨hpos, hlt⟩ := laterUnits_bounds t offset holidays n rest hunit hrest
  have hsplit := runStarts_unitsFor (limitAt t offset holidays) t.t2 hunit
    (limitAt_pos t offset holidays) rest.toNat n
  have hunits := unitsFor_sub hunit _
    (unitsFor_mono hunit (min_le_left rest.toNat (limitAt t offset holidays n)))
  have hnext : (rest - (k * t.t2 : Nat)).toNat = rest.toNat - k * t.t2 := by omega
  rw [← laterUnits] at hsplit hunits
  refine ⟨Nat.pos_of_mul_pos_right hpos, hlt, ?_, ?_⟩
  · rw [hnext]
    exact hunits
  · rw [restRuns, restRuns, hnext]
    exact hsplit

lemma chargeLoop_eq (hunit : 0 < t.t2) (fuel : Nat) (n rest : Int) (count : Nat) (price : ℚ)
    (billed : Nat) (hcount : 0 < count) (hbound : rest + t.t2 < 2 ^ 31) (hfuel : rest.toNat ≤ fuel)
    (hrange : ∀ run ∈ restRuns t offset holidays n rest, InRange t offset holidays run) :
    ∃ s, chargeLoop t offset holidays fuel ⟨rest, ofSeconds n, count, price, billed⟩ = some s ∧
      s.rsltPrice = price + ((restRuns t offset holidays n rest).map
        (fun run => rate t (peakAt t offset holidays run))).sum * t.t2 / 60 ∧
      s.billed = billed + unitsFor rest.toNat t.t2 * t.t2 := by
  induction fuel generalizing n rest count price billed with
  | zero =>
    have hzero : rest.toNat = 0 := by omega
    refine ⟨_, chargeLoop_done _ _ _ _ (by dsimp only; omega), ?_, ?_⟩
    · rw [restRuns_of_nonpos t offset holidays (by omega)]
      simp
    · rw [hzero, unitsFor_zero, Nat.zero_mul, Nat.add_zero]
  | succ fuel ih =>
    by_cases hrest : 0 < rest
    · obtain ⟨hpos, hlt, hunits, hruns⟩ := restRuns_step t offset holidays hunit n rest hrest
      have hless := Nat.mul_pos hpos hunit
      rw [hruns] at hrange
      have hfirst : InRange t offset holidays n :=
        hrange n (List.mem_append_left _ (List.mem_replicate.mpr ⟨hpos.ne', rfl⟩))
      have hstep := chargeIter_later t offset holidays n rest count price billed hfirst hunit hcount
        hrest hbound
      generalize laterUnits t offset holidays n rest = k at hpos hlt hunits hruns hrange hstep hless
      obtain ⟨s, hs, hprice, hbilled⟩ := ih (n + (k * t.t2 : Nat)) (rest - (k * t.t2 : Nat))
        (count + 1) (price + k * rate t (peakAt t offset holidays n) * t.t2 / 60)
        (billed + k * t.t2) (by omega) (by omega) (by omega)
        (fun run hrun => hrange run (List.mem_append_right _ hrun))
      refine ⟨s, ?_, ?_, ?_⟩
      · rw [chargeLoop_succ _ _ _ _ (by exact hrest), hstep, Option.bind_some, hs]
      · rw [hprice, hruns, List.map_append, List.map_replicate, List.sum_append, List.sum_replicate,
          nsmul_eq_mul]
        ring
      · rw [hbilled, hunits, Nat.add_mul, Nat.add_assoc]
    · have hzero : rest.toNat = 0 := by omega
      refine ⟨_, chargeLoop_done _ _ _ _ (by dsimp only; omega), ?_, ?_⟩
      · rw [restRuns_of_nonpos t offset holidays (by omega)]
        simp
      · rw [hzero, unitsFor_zero, Nat.zero_mul, Nat.add_zero]

lemma inRange_of_chargeLoop (hunit : 0 < t.t2) (fuel : Nat) (n rest : Int) (count : Nat) (price : ℚ)
    (billed : Nat) {s : Charge} (hcount : 0 < count) (hbound : rest + t.t2 < 2 ^ 31)
    (h : chargeLoop t offset holidays fuel ⟨rest, ofSeconds n, count, price, billed⟩ = some s) :
    ∀ run ∈ restRuns t offset holidays n rest, InRange t offset holidays run := by
  induction fuel generalizing n rest count price billed with
  | zero =>
    have hrest : rest ≤ 0 := by
      by_contra hrest
      obtain ⟨-, fuel, hfuel⟩ := inRange_of_chargeIter t offset holidays (not_le.mp hrest) h
      cases hfuel
    rw [restRuns_of_nonpos t offset holidays hrest]
    simp
  | succ fuel ih =>
    by_cases hrest : 0 < rest
    · obtain ⟨hfirst, -⟩ := inRange_of_chargeIter t offset holidays hrest h
      obtain ⟨hpos, -, -, hruns⟩ := restRuns_step t offset holidays hunit n rest hrest
      rw [chargeLoop_succ _ _ _ _ (by exact hrest), chargeIter_later t offset holidays n rest count
        price billed hfirst hunit hcount hrest hbound, Option.bind_some] at h
      have hlater := ih _ _ _ _ _ (by omega) (by omega) h
      rw [hruns]
      intro run hrun
      rcases List.mem_append.mp hrun with hrun | hrun
      · rw [List.eq_of_mem_replicate hrun]
        exact hfirst
      · exact hlater run hrun
    · rw [restRuns_of_nonpos t offset holidays (not_lt.mp hrest)]
      simp

/-- The beginnings of the runs of the units behind the first one. When both units have the same
length the first round charges the whole call. -/
def chargedRuns (n : Int) (units : Nat) : List Int :=
  if t.t1 = t.t2 then List.replicate units n
  else runStarts (limitAt t offset holidays) t.t2 units (n + t.t1) (n + t.t1)

/-- The first round, in which the whole call or the first unit is charged. -/
lemma chargeLoop_first (h1 : 0 < t.t1) (n : Int) (duration fuel : Nat) (hduration : 0 < duration)
    (hmax : duration + max t.t1 t.t2 < 2 ^ 31) (hrange : InRange t offset holidays n) :
    chargeLoop t offset holidays (fuel + 1) ⟨duration, ofSeconds n, 0, 0, 0⟩ =
      let k := if t.t1 = t.t2 then unitsFor duration t.t1 else 1
      chargeLoop t offset holidays fuel ⟨duration - (k * t.t1 : Nat), ofSeconds (n + (k * t.t1 : Nat)),
        1, k * rate t (peakAt t offset holidays n) * t.t1 / 60, k * t.t1⟩ := by
  have hiterUnit : iterUnit t 0 = t.t1 := rfl
  have hunits : unitsFor (iterDuration t offset holidays n duration 0) t.t1 =
      if t.t1 = t.t2 then unitsFor duration t.t1 else 1 := by
    rw [iterDuration_start]
    split
    · rfl
    · exact unitsFor_self h1
  obtain ⟨-, hlt⟩ := unitsFor_bounds duration h1
  have hstep := chargeIter_eq t offset holidays n duration 0 0 0 hrange h1 (by omega) (by omega)
  rw [hiterUnit, hunits] at hstep
  rw [chargeLoop_succ _ _ _ _ (by dsimp only; omega), hstep (by split <;> omega), Option.bind_some]
  simp only [zero_add]

lemma chargeLoop_start (h1 : 0 < t.t1) (h2 : 0 < t.t2) (n : Int) (duration : Nat)
    (hduration : 0 < duration) (hmax : duration + max t.t1 t.t2 < 2 ^ 31)
    (hrange : ∀ run ∈ n :: chargedRuns t offset holidays n (unitsFor (duration - t.t1) t.t2),
      InRange t offset holidays run) :
    ∃ s, chargeLoop t offset holidays duration ⟨duration, ofSeconds n, 0, 0, 0⟩ = some s ∧
      s.rsltPrice = (t.t1 * rate t (peakAt t offset holidays n) +
        ((chargedRuns t offset holidays n (unitsFor (duration - t.t1) t.t2)).map
          (fun run => rate t (peakAt t offset holidays run))).sum * t.t2) / 60 ∧
      s.billed = t.t1 + unitsFor (duration - t.t1) t.t2 * t.t2 := by
  obtain ⟨fuel, rfl⟩ : ∃ fuel, duration = fuel + 1 := ⟨duration - 1, by omega⟩
  obtain ⟨hfirst, hruns⟩ := List.forall_mem_cons.mp hrange
  rw [chargeLoop_first t offset holidays h1 n _ fuel hduration hmax hfirst]
  by_cases hsame : t.t1 = t.t2
  · obtain ⟨hle, -⟩ := unitsFor_bounds (fuel + 1) h1
    have hunits := unitsFor_sub h1 1 (unitsFor_pos h1 hduration)
    rw [one_mul] at hunits
    rw [if_pos hsame]
    refine ⟨_, chargeLoop_done _ _ _ _ (by dsimp only; omega), ?_, ?_⟩
    · rw [chargedRuns, if_pos hsame, ← hsame, hunits, List.map_replicate, List.sum_replicate,
        nsmul_eq_mul]
      push_cast
      ring
    · rw [← hsame, hunits]
      ring
  · have hrest : (((fuel + 1 : Nat) : Int) - (1 * t.t1 : Nat)).toNat = fuel + 1 - t.t1 := by omega
    have hcharged : chargedRuns t offset holidays n (unitsFor (fuel + 1 - t.t1) t.t2) =
        restRuns t offset holidays (n + (1 * t.t1 : Nat)) ((fuel + 1 : Nat) - (1 * t.t1 : Nat)) := by
      rw [chargedRuns, if_neg hsame, restRuns, hrest, Nat.one_mul]
    rw [if_neg hsame]
    rw [hcharged] at hruns ⊢
    obtain ⟨s, hs, hprice, hbilled⟩ := chargeLoop_eq t offset holidays h2 fuel _ _ 1
      (((1 : Nat) : ℚ) * rate t (peakAt t offset holidays n) * t.t1 / 60) (1 * t.t1) (by omega)
      (by omega) (by omega) hruns
    refine ⟨s, hs, ?_, ?_⟩
    · rw [hprice]
      push_cast
      ring
    · rw [hbilled, hrest, Nat.one_mul]

lemma inRange_of_start (h1 : 0 < t.t1) (h2 : 0 < t.t2) (n : Int) (duration fuel : Nat) {s : Charge}
    (hduration : 0 < duration) (hmax : duration + max t.t1 t.t2 < 2 ^ 31)
    (h : chargeLoop t offset holidays fuel ⟨duration, ofSeconds n, 0, 0, 0⟩ = some s) :
    ∀ run ∈ n :: chargedRuns t offset holidays n (unitsFor (duration - t.t1) t.t2),
      InRange t offset holidays run := by
  obtain ⟨hfirst, fuel, rfl⟩ := inRange_of_chargeIter t offset holidays (by omega) h
  refine List.forall_mem_cons.mpr ⟨hfirst, ?_⟩
  by_cases hsame : t.t1 = t.t2
  · intro run hrun
    rw [chargedRuns, if_pos hsame] at hrun
    rw [List.eq_of_mem_replicate hrun]
    exact hfirst
  · have hrest : ((duration : Int) - (1 * t.t1 : Nat)).toNat = duration - t.t1 := by omega
    rw [chargeLoop_first t offset holidays h1 n _ fuel hduration hmax hfirst, if_neg hsame] at h
    have hruns := inRange_of_chargeLoop t offset holidays h2 fuel _ _ _ _ _ (by omega) (by omega) h
    rw [restRuns, hrest, Nat.one_mul] at hruns
    rw [chargedRuns, if_neg hsame]
    exact hruns

end Loop

/-! ## Units -/

section Units
variable (t : Tariff) (time : Int) (duration : Nat) (startOffset offset : Int)
  (holidays : Option (List Holiday))

/-- The units that cover the duration, each with the second at which it starts and its length. -/
def tariffUnits : List (Nat × Nat) :=
  (0, t.t1) :: (List.range (unitsFor (duration - t.t1) t.t2)).map
    (fun i => (t.t1 + i * t.t2, t.t2))

def unitPrice (unit : Nat × Nat) : ℚ :=
  unit.2 / 60 * rate t
    (t.peakDefinition.peakCheck offset (localtime startOffset (time + unit.1)) holidays).1

def priceByUnits : ℚ :=
  ((tariffUnits t duration).map (unitPrice t time startOffset offset holidays)).sum

def unitStarts : List Int :=
  (List.range (unitsFor (duration - t.t1) t.t2)).map
    (fun i => time + startOffset + ((t.t1 + i * t.t2 : Nat) : Int))

def unitRuns : List Int :=
  chargedRuns t offset holidays (time + startOffset) (unitsFor (duration - t.t1) t.t2)

/-- The units that start outside of the peak hours in a run that begins in them, and for `false`
those that start in the peak hours in a run that begins outside of them. -/
def lateUnits (peak : Bool) : Nat :=
  ((unitRuns t time duration startOffset offset holidays).zip
    (unitStarts t time duration startOffset)).countP
    (fun p => peakAt t offset holidays p.1 == peak && peakAt t offset holidays p.2 == !peak)

lemma sum_rate_sub (peak : Int → Bool) (runs starts : List Int)
    (hlength : runs.length = starts.length) :
    (runs.map (fun n => rate t (peak n))).sum - (starts.map (fun n => rate t (peak n))).sum =
      (t.pricePeak - t.price) *
        (((runs.zip starts).countP (fun p => peak p.1 == true && peak p.2 == !true) : ℚ) -
          (runs.zip starts).countP (fun p => peak p.1 == false && peak p.2 == !false)) := by
  induction runs generalizing starts with
  | nil =>
    obtain rfl := List.length_eq_zero_iff.mp hlength.symm
    simp
  | cons run runs ih =>
    cases starts with
    | nil => cases hlength
    | cons start starts =>
      rw [List.map_cons, List.map_cons, List.sum_cons, List.sum_cons, List.zip_cons_cons,
        List.countP_cons, List.countP_cons, add_sub_add_comm, ih starts (Nat.succ.inj hlength)]
      unfold rate
      cases peak run <;> cases peak start <;> push_cast <;> simp <;> ring

lemma length_unitRuns : (unitRuns t time duration startOffset offset holidays).length =
    (unitStarts t time duration startOffset).length := by
  unfold unitRuns unitStarts chargedRuns
  rw [List.length_map, List.length_range]
  split
  · exact List.length_replicate
  · exact length_runStarts _ _ _ _ _

lemma priceByUnits_eq : priceByUnits t time duration startOffset offset holidays =
    (t.t1 * rate t (peakAt t offset holidays (time + startOffset)) +
      ((unitStarts t time duration startOffset).map
        (fun n => rate t (peakAt t offset holidays n))).sum * t.t2) / 60 := by
  have hprice : ∀ unit : Nat × Nat, unitPrice t time startOffset offset holidays unit =
      unit.2 / 60 * rate t (peakAt t offset holidays (time + startOffset + unit.1)) := by
    intro unit
    rw [unitPrice, peakAt, localtime, add_right_comm]
  have hsum : ((List.range (unitsFor (duration - t.t1) t.t2)).map (fun i =>
      (t.t2 / 60 : ℚ) * rate t (peakAt t offset holidays
        (time + startOffset + ((t.t1 + i * t.t2 : Nat) : Int))))).sum =
      ((unitStarts t time duration startOffset).map
        (fun n => rate t (peakAt t offset holidays n))).sum * t.t2 / 60 := by
    rw [List.sum_map_mul_left, unitStarts, List.map_map]
    simp only [Function.comp_def]
    ring
  unfold priceByUnits tariffUnits
  rw [List.map_cons, List.sum_cons, List.map_map, hprice, add_div, ← hsum]
  simp only [Function.comp_def, hprice, Nat.cast_zero, add_zero]
  congr 1
  ring

/-- Where the first round or a run begins, the time to the next change is an unsigned number. -/
def BoundariesInRange : Prop :=
  ∀ run ∈ (time + startOffset) :: unitRuns t time duration startOffset offset holidays,
    InRange t offset holidays run

lemma billing_eq_chargeLoop (regexps : Regexps) (rule : Rule) (called : CalledNumber)
    (htariff : rule.tariffFor regexps called = t) (h1 : 0 < t.t1) (h2 : 0 < t.t2)
    (hprice : 0 < t.price) (hpeak : 0 < t.pricePeak) (hduration : 1 ≤ duration) :
    rule.billing regexps called time duration startOffset offset holidays =
      (chargeLoop t offset holidays duration (chargeStart time startOffset duration)).map
        Charge.rsltPrice := by
  unfold Rule.billing
  rw [htariff, if_neg (by omega : duration ≠ 0)]
  rw [if_neg]
  rintro (h | h | h | ⟨-, h⟩)
  · omega
  · omega
  · exact hprice.ne' h
  · exact hpeak.ne' h

end Units

/-- The price is that of the tariff units, each by the rate at its first second, exactly when the
times to the changes are unsigned numbers and the two prices are the same or as many units are
charged as peak only because of their run as are charged as off-peak only because of it. -/
theorem billing_eq_priceByUnits_iff (regexps : Regexps) (rule : Rule) (called : CalledNumber)
    (time : Int) (duration : Nat) (startOffset offset : Int) (holidays : Option (List Holiday))
    (t : Tariff) (htariff : rule.tariffFor regexps called = t) (h1 : 0 < t.t1) (h2 : 0 < t.t2)
    (hprice : 0 < t.price) (hpeak : 0 < t.pricePeak) (hduration : 1 ≤ duration)
    (hmax : duration < 2 ^ 31 - max t.t1 t.t2) :
    rule.billing regexps called time duration startOffset offset holidays =
        some (priceByUnits t time duration startOffset offset holidays) ↔
      BoundariesInRange t time duration startOffset offset holidays ∧
        (t.pricePeak = t.price ∨
          lateUnits t time duration startOffset offset holidays true =
            lateUnits t time duration startOffset offset holidays false) := by
  have hdiff := sum_rate_sub t (peakAt t offset holidays) _ _
    (length_unitRuns t time duration startOffset offset holidays)
  have hunit : (t.t2 : ℚ) ≠ 0 := by positivity
  rw [billing_eq_chargeLoop t time duration startOffset offset holidays regexps rule called htariff h1
    h2 hprice hpeak hduration]
  by_cases hrange : BoundariesInRange t time duration startOffset offset holidays
  · obtain ⟨s, hs, hcharged, -⟩ := chargeLoop_start t offset holidays h1 h2 (time + startOffset)
      duration (by omega) (by omega) hrange
    rw [chargeStart, localtime, hs, Option.map_some, Option.some_inj, hcharged, priceByUnits_eq,
      ← unitRuns, and_iff_right hrange]
    unfold lateUnits
    constructor
    · intro heq
      have hsums : ((unitRuns t time duration startOffset offset holidays).map
          (fun n => rate t (peakAt t offset holidays n))).sum =
          ((unitStarts t time duration startOffset).map
            (fun n => rate t (peakAt t offset holidays n))).sum := by
        apply mul_right_cancel₀ hunit
        linarith
      rw [hsums, sub_self] at hdiff
      rcases mul_eq_zero.mp hdiff.symm with hrates | hcounts
      · exact Or.inl (sub_eq_zero.mp hrates)
      · exact Or.inr (Nat.cast_injective (sub_eq_zero.mp hcounts))
    · rintro (hrates | hcounts)
      · rw [hrates, sub_self, zero_mul] at hdiff
        rw [sub_eq_zero.mp hdiff]
      · rw [hcounts, sub_self, mul_zero] at hdiff
        rw [sub_eq_zero.mp hdiff]
  · constructor
    · intro heq
      obtain ⟨s, hs, -⟩ := Option.map_eq_some_iff.mp heq
      exact absurd (inRange_of_start t offset holidays h1 h2 (time + startOffset) duration duration
        (by omega) (by omega) hs) hrange
    · exact fun h => absurd h.1 hrange

def sampleRule (t1 t2 : Nat) : Rule where
  tariff :=
    { price := 1
      pricePeak := 2
      t1 := t1
      t2 := t2
      peakDefinition := { enable := true, peakStartsHour := 8, peakEndsHour := 18 } }

lemma inRange_sampleRule (t1 t2 : Nat) (offset : Int) (holidays : Option (List Holiday)) (n : Int) :
    InRange (sampleRule t1 t2).tariff offset holidays n :=
  inRange_of_small _ _ _ _ (by simp [sampleRule])

def sampleNumber : CalledNumber where
  number := [0x31]
  numberNormalized := none
  isLocalNumber := true

def noRegexps : Regexps where
  isOK := fun _ => false
  matchParts := fun _ _ => []

theorem billing_eq_priceByUnits_iff_example :
    (sampleRule 30 60).billing noRegexps sampleNumber 64740 200 0 0 none =
      some (priceByUnits (sampleRule 30 60).tariff 64740 200 0 0 none) := by
  refine (billing_eq_priceByUnits_iff noRegexps (sampleRule 30 60) sampleNumber 64740 200 0 0 none
    (sampleRule 30 60).tariff rfl ?_ ?_ ?_ ?_ ?_ ?_).mpr ⟨?_, Or.inr ?_⟩
  · decide
  · decide
  · decide
  · decide
  · decide
  · decide
  · exact fun run _ => inRange_sampleRule 30 60 0 none run
  · decide

/-- A call from 17:58:30 on. With a first unit of 60 and others of 10 seconds those from 18:00:00
to 18:00:20 are charged as peak, since the run began at the second 30. With units of 60 seconds
all is charged as peak. -/
theorem billing_charges_late :
    ((sampleRule 60 10).billing noRegexps sampleNumber 64710 120 0 0 none = some 4 ∧
      priceByUnits (sampleRule 60 10).tariff 64710 120 0 0 none = 7 / 2 ∧
      (sampleRule 60 10).billing noRegexps sampleNumber 64710 120 0 0 none ≠
        some (priceByUnits (sampleRule 60 10).tariff 64710 120 0 0 none)) ∧
    ((sampleRule 60 60).billing noRegexps sampleNumber 64710 180 0 0 none = some 6 ∧
      priceByUnits (sampleRule 60 60).tariff 64710 180 0 0 none = 5 ∧
      (sampleRule 60 60).billing noRegexps sampleNumber 64710 180 0 0 none ≠
        some (priceByUnits (sampleRule 60 60).tariff 64710 180 0 0 none)) := by
  decide +kernel

/-! ## The charged seconds -/

end VoipMonitor.Billing
