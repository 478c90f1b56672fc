import Mathlib.Tactic

/-!
# The civil calendar

Days are counted from 1 January 1970 and seconds from its midnight. The broken-down time has the
fields of the C library: years from 1900, months from zero, and the day of the week and of the
year. The year begins in March, so that the leap day is its last one.
-/

namespace VoipMonitor.Library

/-- The fields of a broken-down time. -/
structure Tm where
  year : Int := 0
  mon : Int := 0
  mday : Int := 0
  hour : Int := 0
  min : Int := 0
  sec : Int := 0
  wday : Int := 0
  yday : Int := 0
  isdst : Int := 0
deriving DecidableEq, Repr

namespace Calendar

/-- The day in its period of 400 years, which is four centuries, the last with a leap day more. -/
def dayOfEra (day : Int) : Int := (day + 719468) % 146097

def century (day : Int) : Int := min (dayOfEra day / 36524) 3

def dayOfCentury (day : Int) : Int := dayOfEra day - 36524 * century day

def yearOfFour (day : Int) : Int := min (dayOfCentury day % 1461 / 365) 3

def yearOfEra (day : Int) : Int :=
  100 * century day + 4 * (dayOfCentury day / 1461) + yearOfFour day

def dayOfYear (day : Int) : Int := dayOfCentury day % 1461 - 365 * yearOfFour day

/-- The month, counted from March. -/
def monthOfYear (day : Int) : Int := (5 * dayOfYear day + 2) / 153

def civilMonth (day : Int) : Int :=
  if monthOfYear day < 10 then monthOfYear day + 3 else monthOfYear day - 9

def civilDay (day : Int) : Int := dayOfYear day - (153 * monthOfYear day + 2) / 5 + 1

def civilYear (day : Int) : Int :=
  (day + 719468) / 146097 * 400 + yearOfEra day + if civilMonth day ≤ 2 then 1 else 0

def daysBeforeYear (year : Int) : Int :=
  year / 400 * 146097 + (year % 400 * 365 + year % 400 / 4 - year % 400 / 100)

/-- The day of a date, whose day of the month may be out of its range. -/
def daysFromCivil (year month day : Int) : Int :=
  let y := if month ≤ 2 then year - 1 else year
  let mp := if month ≤ 2 then month + 9 else month - 3
  daysBeforeYear y + ((153 * mp + 2) / 5 + day - 1) - 719468

section Days
variable (day : Int)

lemma century_bounds : 0 ≤ century day ∧ century day ≤ 3 ∧
    0 ≤ dayOfCentury day ∧ dayOfCentury day ≤ 36524 := by
  have h : 0 ≤ dayOfEra day ∧ dayOfEra day < 146097 := by
    unfold dayOfEra
    omega
  unfold dayOfCentury century
  omega

lemma yearOfFour_bounds : 0 ≤ yearOfFour day ∧ yearOfFour day ≤ 3 ∧
    0 ≤ dayOfYear day ∧ dayOfYear day ≤ 365 := by
  unfold dayOfYear yearOfFour
  omega

lemma yearOfEra_bounds : 0 ≤ yearOfEra day ∧ yearOfEra day < 400 := by
  have hcentury := century_bounds day
  have hfour := yearOfFour_bounds day
  unfold yearOfEra
  unfold yearOfFour at *
  omega

lemma dayOfEra_eq : dayOfEra day =
    yearOfEra day * 365 + yearOfEra day / 4 - yearOfEra day / 100 + dayOfYear day := by
  have hcentury := century_bounds day
  have hfour := yearOfFour_bounds day
  have hyear := yearOfEra_bounds day
  have hday : dayOfEra day = 36524 * century day + dayOfCentury day := by
    unfold dayOfCentury
    omega
  have hleap : yearOfEra day / 4 = 25 * century day + dayOfCentury day / 1461 := by
    unfold yearOfEra
    omega
  have hhundred : yearOfEra day / 100 = century day := by
    unfold yearOfEra at *
    unfold yearOfFour at *
    omega
  rw [hleap, hhundred, hday]
  unfold yearOfEra dayOfYear
  omega

lemma monthOfYear_bounds : 0 ≤ monthOfYear day ∧ monthOfYear day ≤ 11 := by
  have h := yearOfFour_bounds day
  unfold monthOfYear
  omega

lemma civilMonth_bounds : 1 ≤ civilMonth day ∧ civilMonth day ≤ 12 := by
  have h := monthOfYear_bounds day
  unfold civilMonth
  split <;> omega

lemma civilDay_bounds : 1 ≤ civilDay day ∧ civilDay day ≤ 31 := by
  have h := yearOfFour_bounds day
  unfold civilDay monthOfYear
  omega

lemma daysBeforeYear_le (year : Int) : daysBeforeYear (year - 1) + 365 ≤ daysBeforeYear year ∧
    daysBeforeYear year ≤ daysBeforeYear (year - 1) + 366 := by
  unfold daysBeforeYear
  by_cases hera : year % 400 = 0
  · have hdiv : (year - 1) / 400 = year / 400 - 1 := by omega
    have hmod : (year - 1) % 400 = 399 := by omega
    rw [hdiv, hmod, hera]
    omega
  · have hdiv : (year - 1) / 400 = year / 400 := by omega
    have hmod : (year - 1) % 400 = year % 400 - 1 := by omega
    rw [hdiv, hmod]
    omega

lemma daysBeforeYear_eq :
    daysBeforeYear ((day + 719468) / 146097 * 400 + yearOfEra day) + dayOfYear day =
      day + 719468 := by
  have hyear := yearOfEra_bounds day
  have hdoe := dayOfEra_eq day
  have hera : dayOfEra day = (day + 719468) % 146097 := rfl
  have hdiv : ((day + 719468) / 146097 * 400 + yearOfEra day) / 400 =
      (day + 719468) / 146097 := by omega
  have hmod : ((day + 719468) / 146097 * 400 + yearOfEra day) % 400 = yearOfEra day := by omega
  unfold daysBeforeYear
  rw [hdiv, hmod]
  omega

theorem daysFromCivil_civil :
    daysFromCivil (civilYear day) (civilMonth day) (civilDay day) = day := by
  have hmonth := monthOfYear_bounds day
  have hdays := daysBeforeYear_eq day
  have hy : (if civilMonth day ≤ 2 then civilYear day - 1 else civilYear day) =
      (day + 719468) / 146097 * 400 + yearOfEra day := by
    unfold civilYear
    split <;> omega
  have hmp : (if civilMonth day ≤ 2 then civilMonth day + 9 else civilMonth day - 3) =
      monthOfYear day := by
    unfold civilMonth
    split <;> split <;> omega
  unfold daysFromCivil
  dsimp only
  rw [hy, hmp]
  unfold civilDay
  omega

lemma dayOfCivilYear_bounds : 0 ≤ day - daysFromCivil (civilYear day) 1 1 ∧
    day - daysFromCivil (civilYear day) 1 1 ≤ 365 := by
  have hmonth := monthOfYear_bounds day
  have hfour := yearOfFour_bounds day
  have hdays := daysBeforeYear_eq day
  have hmp : monthOfYear day = (5 * dayOfYear day + 2) / 153 := rfl
  have hjanuary : daysFromCivil (civilYear day) 1 1 =
      daysBeforeYear (civilYear day - 1) + 306 - 719468 := by
    unfold daysFromCivil
    norm_num
  rw [hjanuary]
  unfold civilYear civilMonth
  by_cases hspring : monthOfYear day < 10
  · have hnext := daysBeforeYear_le ((day + 719468) / 146097 * 400 + yearOfEra day)
    rw [if_pos hspring, if_neg (by omega), add_zero]
    omega
  · rw [if_neg hspring, if_pos (by omega), add_sub_cancel_right]
    omega

end Days

/-- The broken-down time of a second. -/
def ofSeconds (t : Int) : Tm where
  year := civilYear (t / 86400) - 1900
  mon := civilMonth (t / 86400) - 1
  mday := civilDay (t / 86400)
  hour := t % 86400 / 3600
  min := t % 3600 / 60
  sec := t % 60
  wday := (t / 86400 + 4) % 7
  yday := t / 86400 - daysFromCivil (civilYear (t / 86400)) 1 1
  isdst := 0

/-- The second of a broken-down time, whose hours, minutes and seconds may be out of range. -/
def toSeconds (time : Tm) : Int :=
  daysFromCivil (time.year + 1900) (time.mon + 1) time.mday * 86400 + time.hour * 3600 +
    time.min * 60 + time.sec

lemma toSeconds_sameDay (t hour min sec : Int) :
    toSeconds { ofSeconds t with hour := hour, min := min, sec := sec } =
      t / 86400 * 86400 + hour * 3600 + min * 60 + sec := by
  have hday := daysFromCivil_civil (t / 86400)
  unfold toSeconds ofSeconds
  rw [sub_add_cancel, sub_add_cancel, hday]

theorem toSeconds_ofSeconds (t : Int) : toSeconds (ofSeconds t) = t := by
  have hday := toSeconds_sameDay t (t % 86400 / 3600) (t % 3600 / 60) (t % 60)
  calc toSeconds (ofSeconds t)
      = t / 86400 * 86400 + t % 86400 / 3600 * 3600 + t % 3600 / 60 * 60 + t % 60 := hday
    _ = t := by omega

example : ofSeconds 951827696 =
    { year := 100, mon := 1, mday := 29, hour := 12, min := 34, sec := 56, wday := 2, yday := 59 } := by
  decide

end Calendar

end VoipMonitor.Library
