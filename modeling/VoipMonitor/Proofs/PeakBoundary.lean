import VoipMonitor.Proofs.BillingUnits

/-!
# The boundary of the peak hours

`peakCheck` changes the hour and the minute of the time it is given to those of the next change
and leaves the seconds. Its answer then holds for as many seconds too long as the time has.
-/

namespace VoipMonitor.Billing
open VoipMonitor.Library VoipMonitor.TimeCache Calendar

namespace PeakDefinition
variable (p : PeakDefinition)

/-! ## The hours of a day -/

def hoursAt (minute : Int) : Bool :=
  (p.peakStartsHour ≠ 0 ∨ p.peakEndsHour ≠ 0) ∧
    if p.peakEnds.toNat > p.peakStarts.toNat then
      p.peakStarts.toInt ≤ minute ∧ minute < p.peakEnds.toInt
    else p.peakEnds.toNat < p.peakStarts.toNat ∧
      (minute < p.peakEnds.toInt ∨ p.peakStarts.toInt ≤ minute)

def changeAhead (minute : Int) : Option (BitVec 32 × BitVec 32) :=
  let starts := (p.peakStartsHour, p.peakStartsMinute)
  let ends := (p.peakEndsHour, p.peakEndsMinute)
  if p.peakStartsHour = 0 ∧ p.peakEndsHour = 0 then none
  else if p.peakEnds.toNat > p.peakStarts.toNat then
    if minute < p.peakStarts.toInt then some starts
    else if minute < p.peakEnds.toInt then some ends else none
  else if p.peakEnds.toNat < p.peakStarts.toNat then
    if minute < p.peakEnds.toInt then some ends
    else if minute < p.peakStarts.toInt then some starts else none
  else none

def changeMinute (change : BitVec 32 × BitVec 32) : Int := (change.1 * 60 + change.2).toInt

variable {p} {minute : Int}

lemma hoursAt_none (h : p.peakStartsHour = 0 ∧ p.peakEndsHour = 0) :
    p.hoursAt minute = false := by
  unfold hoursAt
  rw [decide_eq_false_iff_not]
  tauto

lemma hoursAt_between (hset : ¬(p.peakStartsHour = 0 ∧ p.peakEndsHour = 0))
    (h : p.peakEnds.toNat > p.peakStarts.toNat) :
    p.hoursAt minute = decide (p.peakStarts.toInt ≤ minute ∧ minute < p.peakEnds.toInt) := by
  unfold hoursAt
  rw [decide_eq_decide, if_pos h]
  tauto

lemma hoursAt_around (hset : ¬(p.peakStartsHour = 0 ∧ p.peakEndsHour = 0))
    (h : p.peakEnds.toNat < p.peakStarts.toNat) :
    p.hoursAt minute = decide (minute < p.peakEnds.toInt ∨ p.peakStarts.toInt ≤ minute) := by
  unfold hoursAt
  rw [decide_eq_decide, if_neg (by omega)]
  tauto

lemma hoursAt_never (h : p.peakEnds.toNat = p.peakStarts.toNat) : p.hoursAt minute = false := by
  unfold hoursAt
  rw [decide_eq_false_iff_not, if_neg (by omega)]
  omega

lemma hoursAt_of_none (h : p.changeAhead minute = none) {m : Int} (hm : minute ≤ m) :
    p.hoursAt m = p.hoursAt minute := by
  unfold changeAhead at h
  by_cases hset : p.peakStartsHour = 0 ∧ p.peakEndsHour = 0
  · rw [hoursAt_none hset, hoursAt_none hset]
  · rw [if_neg hset] at h
    rcases lt_trichotomy p.peakEnds.toNat p.peakStarts.toNat with horder | horder | horder
    · rw [if_neg (by omega), if_pos horder] at h
      rw [hoursAt_around hset horder, hoursAt_around hset horder, decide_eq_decide]
      split at h
      · cases h
      · split at h
        · cases h
        · omega
    · rw [hoursAt_never horder, hoursAt_never horder]
    · rw [if_pos horder] at h
      rw [hoursAt_between hset horder, hoursAt_between hset horder, decide_eq_decide]
      split at h
      · cases h
      · split at h
        · cases h
        · omega

lemma changeAhead_cases {change : BitVec 32 × BitVec 32} (h : p.changeAhead minute = some change) :
    ((∀ m, p.hoursAt m = decide (p.peakStarts.toInt ≤ m ∧ m < p.peakEnds.toInt)) ∧
      p.peakEnds.toNat > p.peakStarts.toNat ∧
      (changeMinute change = p.peakStarts.toInt ∧ minute < p.peakStarts.toInt ∨
        changeMinute change = p.peakEnds.toInt ∧ p.peakStarts.toInt ≤ minute ∧
          minute < p.peakEnds.toInt)) ∨
    ((∀ m, p.hoursAt m = decide (m < p.peakEnds.toInt ∨ p.peakStarts.toInt ≤ m)) ∧
      p.peakEnds.toNat < p.peakStarts.toNat ∧
      (changeMinute change = p.peakEnds.toInt ∧ minute < p.peakEnds.toInt ∨
        changeMinute change = p.peakStarts.toInt ∧ p.peakEnds.toInt ≤ minute ∧
          minute < p.peakStarts.toInt)) := by
  unfold changeAhead at h
  by_cases hset : p.peakStartsHour = 0 ∧ p.peakEndsHour = 0
  · rw [if_pos hset] at h
    cases h
  · rw [if_neg hset] at h
    rcases lt_trichotomy p.peakEnds.toNat p.peakStarts.toNat with horder | horder | horder
    · rw [if_neg (by omega), if_pos horder] at h
      refine Or.inr ⟨fun m => hoursAt_around hset horder, horder, ?_⟩
      split at h
      · cases h
        exact Or.inl ⟨rfl, ‹_›⟩
      · split at h
        · cases h
          exact Or.inr ⟨rfl, by omega, ‹_›⟩
        · cases h
    · rw [if_neg (by omega), if_neg (by omega)] at h
      cases h
    · rw [if_pos horder] at h
      refine Or.inl ⟨fun m => hoursAt_between hset horder, horder, ?_⟩
      split at h
      · cases h
        exact Or.inl ⟨rfl, ‹_›⟩
      · split at h
        · cases h
          exact Or.inr ⟨rfl, by omega, ‹_›⟩
        · cases h

section Change
variable {change : BitVec 32 × BitVec 32} (h : p.changeAhead minute = some change)
include h

lemma changeAhead_lt : minute < changeMinute change := by
  have := changeAhead_cases h
  omega

lemma hoursAt_of_lt {m : Int} (hm : minute ≤ m) (hlt : m < changeMinute change) :
    p.hoursAt m = p.hoursAt minute := by
  rcases changeAhead_cases h with ⟨hhours, -, hchange⟩ | ⟨hhours, -, hchange⟩
  · rw [hhours, hhours, decide_eq_decide]
    omega
  · rw [hhours, hhours, decide_eq_decide]
    omega

/-- The hours at one other minute, that of the change or midnight, tell them at all minutes. -/
lemma hoursAt_of_tests {m k : Int} (hsame : p.hoursAt k = p.hoursAt minute) (hminute : 0 ≤ minute)
    (hm : 0 ≤ m) (hk : k = changeMinute change ∨
      k = 0 ∧ 1440 ≤ changeMinute change ∧ minute < 1440 ∧ m < 1440) :
    p.hoursAt m = p.hoursAt minute := by
  have hstarts := BitVec.toInt_eq_toNat_cond p.peakStarts
  have hends := BitVec.toInt_eq_toNat_cond p.peakEnds
  have hstarts32 := p.peakStarts.isLt
  have hends32 := p.peakEnds.isLt
  rcases changeAhead_cases h with ⟨hhours, horder, hchange⟩ | ⟨hhours, horder, hchange⟩
  · rw [hhours, hhours, decide_eq_decide] at hsame ⊢
    split at hstarts <;> split at hends <;> omega
  · rw [hhours, hhours, decide_eq_decide] at hsame ⊢
    split at hstarts <;> split at hends <;> omega

end Change

/-! ## Days -/

def isWeekend (p : PeakDefinition) (time : Tm) : Bool :=
  let weekDay1 := if p.weekendStart ≠ 0 then p.weekendStart.toInt else 7
  let weekDay2 := if weekDay1 = 7 then 1 else weekDay1 + 1
  time.wday = weekDay1 - 1 ∨ time.wday = weekDay2 - 1

section Days
variable (p : PeakDefinition) (offset : Int) (holidays : Option (List Holiday))

def working (time : Tm) : Bool :=
  p.enable && !p.isWeekend time && !holidays.any (fun holidays => isHoliday offset holidays time)

def minuteOf (time : Tm) : Int := time.hour * 60 + time.min

lemma working_sameDay {m n : Int} (h : m / 86400 = n / 86400) :
    p.working offset holidays (ofSeconds m) = p.working offset holidays (ofSeconds n) := by
  have hholiday : ∀ holiday : Holiday,
      holiday.isHoliday offset (ofSeconds m) = holiday.isHoliday offset (ofSeconds n) := by
    intro holiday
    simp only [Holiday.isHoliday, isEasterMondayDate, sameDate, ofSeconds, h]
  have hwday : (ofSeconds m).wday = (ofSeconds n).wday := by simp only [ofSeconds, h]
  have hweekend : p.isWeekend (ofSeconds m) = p.isWeekend (ofSeconds n) := by
    unfold isWeekend
    rw [hwday]
  simp only [working, isHoliday, hholiday, hweekend]

lemma peakCheck_eq (time : Tm) : p.peakCheck offset time holidays =
    if p.working offset holidays time then
      (p.hoursAt (minuteOf time),
        match p.changeAhead (minuteOf time) with
        | some change => atHour time change.1 change.2
        | none => getNextBeginDate offset time)
    else (false, getNextBeginDate offset time) := by
  have hminute : time.hour * 60 + time.min = minuteOf time := rfl
  unfold peakCheck
  rw [hminute]
  cases henable : p.enable with
  | false => simp [working, henable]
  | true =>
    rw [if_neg (by decide)]
    by_cases hweekend : p.isWeekend time = true
    · have hoff : p.working offset holidays time = false := by simp [working, hweekend]
      rw [if_pos (of_decide_eq_true hweekend), hoff, if_neg (by decide)]
    · rw [if_neg (fun h => hweekend (decide_eq_true h))]
      by_cases hholiday : holidays.any (fun holidays => isHoliday offset holidays time) = true
      · have hoff : p.working offset holidays time = false := by simp [working, hholiday]
        rw [if_pos hholiday, hoff, if_neg (by decide)]
      · have hon : p.working offset holidays time = true := by
          simp [working, henable, hweekend, hholiday]
        rw [if_neg hholiday, hon, if_pos rfl]
        unfold changeAhead
        by_cases hset : p.peakStartsHour = 0 ∧ p.peakEndsHour = 0
        · rw [if_neg (by tauto), if_pos hset, hoursAt_none hset]
        · rw [if_pos (by tauto), if_neg hset]
          rcases lt_trichotomy p.peakEnds.toNat p.peakStarts.toNat with horder | horder | horder
          · have hother : ¬p.peakEnds.toNat > p.peakStarts.toNat := by omega
            simp only [if_neg hother, if_pos horder, hoursAt_around hset horder]
            split
            · rw [decide_eq_true (Or.inl ‹_›)]
            · split
              · rw [decide_eq_false (by omega)]
              · rw [decide_eq_true (by omega)]
          · have hother : ¬p.peakEnds.toNat > p.peakStarts.toNat := by omega
            have hother' : ¬p.peakEnds.toNat < p.peakStarts.toNat := by omega
            simp only [if_neg hother, if_neg hother', hoursAt_never horder]
          · simp only [if_pos horder, hoursAt_between hset horder]
            split
            · rw [decide_eq_false (by omega)]
            · split
              · rw [decide_eq_true (by omega)]
              · rw [decide_eq_false (by omega)]

lemma minuteOf_ofSeconds (n : Int) : minuteOf (ofSeconds n) = n % 86400 / 60 := by
  have hhour : (ofSeconds n).hour = n % 86400 / 3600 := rfl
  have hmin : (ofSeconds n).min = n % 3600 / 60 := rfl
  rw [minuteOf, hhour, hmin]
  omega

lemma peakCheck_fst (n : Int) : (p.peakCheck offset (ofSeconds n) holidays).1 =
    (p.working offset holidays (ofSeconds n) && p.hoursAt (n % 86400 / 60)) := by
  rw [peakCheck_eq, minuteOf_ofSeconds]
  cases p.working offset holidays (ofSeconds n) <;> rfl

lemma toSeconds_peakCheck (n : Int) :
    toSeconds (p.peakCheck offset (ofSeconds n) holidays).2 =
      (match if p.working offset holidays (ofSeconds n) then p.changeAhead (n % 86400 / 60)
        else none with
      | some change => n / 86400 * 86400 + (change.1.toInt * 60 + change.2.toInt) * 60 + n % 60
      | none => (n / 86400 + 1) * 86400 : Int) := by
  have hsec : (ofSeconds n).sec = n % 60 := rfl
  rw [peakCheck_eq, minuteOf_ofSeconds]
  cases p.working offset holidays (ofSeconds n) with
  | false => exact toSeconds_getNextBeginDate offset n
  | true =>
    simp only [if_true]
    cases p.changeAhead (n % 86400 / 60) with
    | none => exact toSeconds_getNextBeginDate offset n
    | some change =>
      have hday := toSeconds_sameDay n change.1.toInt change.2.toInt (n % 60)
      dsimp only [atHour]
      rw [← hsec] at hday
      rw [hday, hsec]
      ring

/-- The answer holds up to the boundary, and the boundary is later. -/
def BoundaryExact (time : Int) : Prop :=
  let check := p.peakCheck offset (localtime offset time) holidays
  let toTime := (mktime offset check.2).1
  time < toTime ∧ ∀ y, time ≤ y → y < toTime →
    (p.peakCheck offset (localtime offset y) holidays).1 = check.1

/-- A change ahead of a working time comes at the full minute, and behind midnight the days up to
it begin with the same answer. Numbers of 2^31 minutes or more change their value in the tests. -/
def ChangesOnTime (time : Int) : Prop :=
  let now := localtime offset time
  let minute := minuteOf now
  p.working offset holidays now = true → ∀ change, p.changeAhead minute = some change →
    let boundary := change.1.toInt * 60 + change.2.toInt
    minute < boundary ∧
    (changeMinute change < 1440 → p.hoursAt (changeMinute change) ≠ p.hoursAt minute →
      boundary = changeMinute change ∧ now.sec = 0) ∧
    ∀ day : Nat, 0 < day → 86400 * day < boundary * 60 + now.sec →
      (p.working offset holidays (localtime offset (time - minute * 60 - now.sec + 86400 * day)) &&
        p.hoursAt 0) = p.hoursAt minute

variable {p holidays}

lemma peakCheck_upToMidnight {n y : Int} (hle : n ≤ y) (hlt : y < (n / 86400 + 1) * 86400)
    (hchange : (if p.working offset holidays (ofSeconds n) then p.changeAhead (n % 86400 / 60)
      else none) = none) :
    (p.peakCheck offset (ofSeconds y) holidays).1 =
      (p.peakCheck offset (ofSeconds n) holidays).1 := by
  have hday : y / 86400 = n / 86400 := by omega
  rw [peakCheck_fst, peakCheck_fst, working_sameDay p offset holidays hday]
  cases hworking : p.working offset holidays (ofSeconds n) with
  | false => rfl
  | true =>
    rw [hworking, if_pos rfl] at hchange
    rw [hoursAt_of_none hchange (by omega)]

section Change
variable {n : Int} {change : BitVec 32 × BitVec 32}
  (hworking : p.working offset holidays (ofSeconds n) = true)
  (hchange : p.changeAhead (n % 86400 / 60) = some change)
include hworking hchange

lemma peakCheck_upToChange
    (htrue : changeMinute change < 1440 →
      p.hoursAt (changeMinute change) ≠ p.hoursAt (n % 86400 / 60) →
      change.1.toInt * 60 + change.2.toInt = changeMinute change ∧ n % 60 = 0)
    (hdays : ∀ day : Nat, 0 < day →
      86400 * day < (change.1.toInt * 60 + change.2.toInt) * 60 + n % 60 →
      (p.working offset holidays (ofSeconds (n / 86400 * 86400 + 86400 * day)) &&
        p.hoursAt 0) = p.hoursAt (n % 86400 / 60)) {y : Int} (hle : n ≤ y)
    (hlt : y < n / 86400 * 86400 + (change.1.toInt * 60 + change.2.toInt) * 60 + n % 60) :
    (p.peakCheck offset (ofSeconds y) holidays).1 = p.hoursAt (n % 86400 / 60) := by
  rw [peakCheck_fst]
  by_cases hday : y / 86400 = n / 86400
  · rw [working_sameDay p offset holidays hday, hworking, Bool.true_and]
    by_cases hsame : p.hoursAt (changeMinute change) = p.hoursAt (n % 86400 / 60)
    · exact hoursAt_of_tests hchange hsame (by omega) (by omega) (.inl rfl)
    · apply hoursAt_of_lt hchange (by omega)
      by_cases hend : changeMinute change < 1440
      · obtain ⟨hboundary, hsec⟩ := htrue hend hsame
        omega
      · omega
  · have hbegin := hdays (y / 86400 - n / 86400).toNat (by omega) (by omega)
    have hcast : n / 86400 * 86400 + 86400 * ((y / 86400 - n / 86400).toNat : Int) =
        y / 86400 * 86400 := by omega
    rw [hcast, working_sameDay p offset holidays (by omega : y / 86400 * 86400 / 86400 = y / 86400)]
      at hbegin
    cases hday' : p.working offset holidays (ofSeconds y) with
    | false =>
      rw [hday'] at hbegin
      exact hbegin
    | true =>
      rw [hday', Bool.true_and] at hbegin
      rw [Bool.true_and]
      by_cases hsame : p.hoursAt (changeMinute change) = p.hoursAt (n % 86400 / 60)
      · exact hoursAt_of_tests hchange hsame (by omega) (by omega) (.inl rfl)
      · by_cases hend : changeMinute change < 1440
        · obtain ⟨hboundary, hsec⟩ := htrue hend hsame
          omega
        · refine hoursAt_of_tests hchange hbegin (by omega) ?_ (.inr ⟨rfl, ?_⟩)
          · omega
          · omega

lemma onTime_of_peakCheck (hlater : n % 86400 / 60 < change.1.toInt * 60 + change.2.toInt)
    (h : ∀ y, n ≤ y →
      y < n / 86400 * 86400 + (change.1.toInt * 60 + change.2.toInt) * 60 + n % 60 →
      (p.peakCheck offset (ofSeconds y) holidays).1 = p.hoursAt (n % 86400 / 60))
    (hend : changeMinute change < 1440)
    (hother : p.hoursAt (changeMinute change) ≠ p.hoursAt (n % 86400 / 60)) :
    change.1.toInt * 60 + change.2.toInt = changeMinute change ∧ n % 60 = 0 := by
  have hahead := changeAhead_lt hchange
  have hcongr : (change.1.toInt * 60 + change.2.toInt) % 2 ^ 32 = changeMinute change % 2 ^ 32 := by
    have hsixty : (60 : BitVec 32).toInt = 60 := rfl
    rw [changeMinute, BitVec.toInt_add, BitVec.toInt_mul, hsixty, Int.bmod_add_bmod]
    exact Int.bmod_emod.symm
  have hbehind : (change.1.toInt * 60 + change.2.toInt) * 60 + n % 60 ≤
      changeMinute change * 60 := by
    by_contra hbefore
    have hsecond := h (n / 86400 * 86400 + changeMinute change * 60) (by omega) (by omega)
    have hday : (n / 86400 * 86400 + changeMinute change * 60) / 86400 = n / 86400 := by omega
    have hminute : (n / 86400 * 86400 + changeMinute change * 60) % 86400 / 60 =
        changeMinute change := by omega
    rw [peakCheck_fst, hminute, working_sameDay p offset holidays hday, hworking,
      Bool.true_and] at hsecond
    exact hother hsecond
  omega

end Change

variable (p holidays)

/-- The boundary is exact when the change that is ahead comes on time. -/
theorem boundaryExact_iff (time : Int) :
    p.BoundaryExact offset holidays time ↔ p.ChangesOnTime offset holidays time := by
  have hto := toSeconds_peakCheck p offset holidays (time + offset)
  have hsec : (ofSeconds (time + offset)).sec = (time + offset) % 60 := rfl
  unfold BoundaryExact ChangesOnTime
  simp only [localtime, mktime_fst, minuteOf_ofSeconds, hsec]
  cases hchange : (if p.working offset holidays (ofSeconds (time + offset)) then
      p.changeAhead ((time + offset) % 86400 / 60) else none) with
  | none =>
    rw [hchange] at hto
    dsimp only at hto
    constructor
    · intro _ hworking change hahead
      rw [if_pos hworking, hahead] at hchange
      cases hchange
    · intro _
      refine ⟨by omega, fun y hle hlt => ?_⟩
      exact peakCheck_upToMidnight offset (by omega) (by omega) hchange
  | some change =>
    have hworking : p.working offset holidays (ofSeconds (time + offset)) = true := by
      by_contra hoff
      rw [if_neg hoff] at hchange
      cases hchange
    rw [hchange] at hto
    dsimp only at hto
    rw [if_pos hworking] at hchange
    have hnow : (p.peakCheck offset (ofSeconds (time + offset)) holidays).1 =
        p.hoursAt ((time + offset) % 86400 / 60) := by
      rw [peakCheck_fst, hworking, Bool.true_and]
    have hbegin : ∀ day : Nat, time - (time + offset) % 86400 / 60 * 60 - (time + offset) % 60 +
        86400 * day + offset = (time + offset) / 86400 * 86400 + 86400 * day := by
      intro day
      omega
    rw [hto, hnow]
    constructor
    · rintro ⟨hlater, hsame⟩ - change' hahead
      obtain rfl := Option.some.inj (hchange.symm.trans hahead)
      have hsame' : ∀ y, time + offset ≤ y → y < (time + offset) / 86400 * 86400 +
          (change.1.toInt * 60 + change.2.toInt) * 60 + (time + offset) % 60 →
          (p.peakCheck offset (ofSeconds y) holidays).1 =
            p.hoursAt ((time + offset) % 86400 / 60) := by
        intro y hle hlt
        have h := hsame (y - offset) (by omega) (by omega)
        rwa [sub_add_cancel] at h
      refine ⟨by omega, onTime_of_peakCheck offset hworking hchange (by omega) hsame', ?_⟩
      intro day hpos hlt
      have hfirst := hsame' ((time + offset) / 86400 * 86400 + 86400 * day) (by omega) (by omega)
      have hminute : ((time + offset) / 86400 * 86400 + 86400 * (day : Int)) % 86400 / 60 = 0 := by
        omega
      rw [peakCheck_fst, hminute] at hfirst
      rw [hbegin]
      exact hfirst
    · intro hontime
      obtain ⟨hlater, htrue, hdays⟩ := hontime hworking change hchange
      simp only [hbegin] at hdays
      refine ⟨by omega, fun y hle hlt => ?_⟩
      exact peakCheck_upToChange offset hworking hchange htrue hdays (by omega) (by omega)

end Days

end PeakDefinition

/-- At 17:58:30 the end of the hours from 8 to 18 o'clock is given as 18:00:30. -/
theorem peakCheck_secondsKept :
    ¬(sampleRule 60 10).tariff.peakDefinition.BoundaryExact 0 none 64710 := by
  rintro ⟨-, hsame⟩
  have hend := hsame 64800 (by decide) (by decide +kernel)
  revert hend
  decide +kernel

end VoipMonitor.Billing
