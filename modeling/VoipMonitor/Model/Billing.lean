import Std.Data.TreeMap.Basic
import VoipMonitor.Model.AddressLists
import VoipMonitor.Model.TimeCache

/-!
# Prices of calls (`cBillingRule`, `billing.cpp`)

A rule has default prices and tariff units, which the entry for the called number replaces. The
loop charges the first unit and then whole runs of units up to the next change between peak and
off-peak. Prices are rational numbers, and the offsets of the zones are constant.
-/

namespace VoipMonitor.Billing
open VoipMonitor.Library VoipMonitor.TimeCache

/-! ## Dates -/

/-- `getNextBeginDate`: midnight, a day and a half later, and then midnight again. -/
def getNextBeginDate (offset : Int) (dateTime : Tm) : Tm :=
  let timeS := (mktime offset { dateTime with hour := 0, min := 0, sec := 0 }).1 + 60 * 60 * 36
  { localtime offset timeS with hour := 0, min := 0, sec := 0 }

def dateTimeAdd (offset : Int) (dateTime : Tm) (addS : Int) : Tm :=
  localtime offset ((mktime offset dateTime).1 + addS)

def diffTime (offset : Int) (time1 time0 : Tm) : Int :=
  (mktime offset time1).1 - (mktime offset time0).1

/-- `getEasterMondayDate`, `decDays` days before it. -/
def getEasterMondayDate (offset year decDays : Int) : Tm :=
  if year < 1900 ∨ year > 2099 then {}
  else
    let a := year % 19
    let b := year % 4
    let c := year % 7
    let d := (19 * a + 24) % 30
    let e := (2 * b + 4 * c + 6 * d + 5) % 7
    let v := 81 + d + e
    let v := if v > 115 ∨ (v = 115 ∧ d = 28 ∧ e = 6 ∧ a > 10) then v - 7 else v
    let v := if year % 4 = 0 ∧ (year % 100 ≠ 0 ∨ year % 400 = 0) then v + 1 else v
    let timeS := (mktime offset { year := year - 1900, mon := 0, mday := 1 }).1
    localtime offset (timeS + (v - decDays) * 60 * 60 * 24)

def sameDate (day date : Tm) : Bool :=
  day.year == date.year && day.mon == date.mon && day.mday == date.mday

def isEasterMondayDate (offset : Int) (date : Tm) (decDays : Int) : Bool :=
  sameDate (getEasterMondayDate offset (date.year + 1900) decDays) date

/-! ## Holidays and peak hours -/

/-- `eBillingHolidayType`. -/
inductive HolidayType where
  | na | fixed | movable | easterMonday | easterFriday

/-- `cStateHolidays::sHoliday`. -/
structure Holiday where
  type : HolidayType
  day : Tm := {}

def Holiday.isHoliday (offset : Int) (h : Holiday) (day : Tm) : Bool :=
  match h.type with
  | .fixed => h.day.mon == day.mon && h.day.mday == day.mday
  | .movable => sameDate h.day day
  | .easterMonday => isEasterMondayDate offset day 0
  | .easterFriday => isEasterMondayDate offset day 3
  | .na => false

def isHoliday (offset : Int) (holidays : List Holiday) (day : Tm) : Bool :=
  holidays.any (fun h => h.isHoliday offset day)

/-- `cPeakDefinition`; the numbers are unsigned ones of 32 bits. -/
structure PeakDefinition where
  enable : Bool := false
  peakStartsHour : BitVec 32 := 0
  peakStartsMinute : BitVec 32 := 0
  peakEndsHour : BitVec 32 := 0
  peakEndsMinute : BitVec 32 := 0
  weekendStart : BitVec 32 := 0
deriving DecidableEq, Repr

namespace PeakDefinition

def peakStarts (p : PeakDefinition) : BitVec 32 := p.peakStartsHour * 60 + p.peakStartsMinute

def peakEnds (p : PeakDefinition) : BitVec 32 := p.peakEndsHour * 60 + p.peakEndsMinute

/-- The time of a change; the seconds stay those of `time`. -/
def atHour (time : Tm) (hour minute : BitVec 32) : Tm :=
  { time with hour := hour.toInt, min := minute.toInt }

/-- `peakCheck` with the time up to which its answer is used. -/
def peakCheck (p : PeakDefinition) (offset : Int) (time : Tm) (holidays : Option (List Holiday)) :
    Bool × Tm :=
  let toTime := getNextBeginDate offset time
  if !p.enable then (false, toTime)
  else
    let weekDay1 := if p.weekendStart ≠ 0 then p.weekendStart.toInt else 7
    let weekDay2 := if weekDay1 = 7 then 1 else weekDay1 + 1
    if time.wday = weekDay1 - 1 ∨ time.wday = weekDay2 - 1 then (false, toTime)
    else if holidays.any (fun holidays => isHoliday offset holidays time) then (false, toTime)
    else if p.peakStartsHour ≠ 0 ∨ p.peakEndsHour ≠ 0 then
      let minute := time.hour * 60 + time.min
      if p.peakEnds.toNat > p.peakStarts.toNat then
        if minute < p.peakStarts.toInt then
          (false, atHour time p.peakStartsHour p.peakStartsMinute)
        else if minute < p.peakEnds.toInt then
          (true, atHour time p.peakEndsHour p.peakEndsMinute)
        else (false, toTime)
      else if p.peakEnds.toNat < p.peakStarts.toNat then
        if minute < p.peakEnds.toInt then
          (true, atHour time p.peakEndsHour p.peakEndsMinute)
        else if minute < p.peakStarts.toInt then
          (false, atHour time p.peakStartsHour p.peakStartsMinute)
        else (true, toTime)
      else (false, toTime)
    else (false, toTime)

end PeakDefinition

/-! ## The tariff of a number -/

/-- `eNumberFormat`. -/
inductive NumberFormat where
  | na | original | normalized | both
deriving DecidableEq, Repr

/-- `eNumberType`. -/
inductive NumberType where
  | na | localNumber | international | both
deriving DecidableEq, Repr

/-- What the loop charges by. -/
structure Tariff where
  price : ℚ
  pricePeak : ℚ
  t1 : Nat
  t2 : Nat
  peakDefinition : PeakDefinition
deriving DecidableEq, Repr

/-- `cBillingRuleNumber`; zero means that the default is used. -/
structure RuleNumber where
  numberPrefix : Bytes := []
  numberFixed : Bytes := []
  numberRegex : Bytes := []
  tariff : Tariff
  useForNumberFormat : NumberFormat := .na
  useForNumberType : NumberType := .na
deriving DecidableEq, Repr

structure Rule where
  tariff : Tariff
  useForNumberFormat : NumberFormat := .na
  useForNumberType : NumberType := .na
  numbers : List RuleNumber := []

/-- `cRegExp`: whether an expression compiles and the parts of a text that it matches. -/
structure Regexps where
  isOK : Bytes → Bool
  matchParts : Bytes → Bytes → List Bytes

structure CalledNumber where
  number : Bytes
  numberNormalized : Option Bytes
  isLocalNumber : Bool

def RuleNumber.forms (rule : Rule) (n : RuleNumber) (called : CalledNumber) : List Bytes :=
  let default := if rule.useForNumberFormat = .na then .both else rule.useForNumberFormat
  let format := if n.useForNumberFormat = .na then default else n.useForNumberFormat
  (if format = .original ∨ format = .both then [called.number] else []) ++
    (if format = .normalized ∨ format = .both then called.numberNormalized.toList else [])

/-- The entry is for numbers of the area. -/
def RuleNumber.isFor (rule : Rule) (n : RuleNumber) (called : CalledNumber) : Bool :=
  let default := if rule.useForNumberType = .na then .both else rule.useForNumberType
  let type := if n.useForNumberType = .na then default else n.useForNumberType
  type == .both || type == if called.isLocalNumber then .localNumber else .international

/-- The entry replaces what it sets. -/
def Tariff.override (t : Tariff) (n : Tariff) : Tariff where
  price := if n.price ≠ 0 then n.price else t.price
  pricePeak := if n.pricePeak ≠ 0 then n.pricePeak else t.pricePeak
  t1 := if n.t1 ≠ 0 then n.t1 else t.t1
  t2 := if n.t2 ≠ 0 then n.t2 else t.t2
  peakDefinition := if n.peakDefinition.enable then n.peakDefinition else t.peakDefinition

/-- The tariff so far and the length of the match it was taken for, zero before the first one. -/
structure Selection where
  tariff : Tariff
  found : Bool := false
  useLength : Nat := 0

/-- An entry with a match that is longer than the one before. -/
def Selection.take (s : Selection) (n : RuleNumber) (length : Nat) : Selection :=
  if length > 0 ∧ (s.useLength = 0 ∨ length > s.useLength) then
    { tariff := s.tariff.override n.tariff, found := true, useLength := length }
  else s

/-- The first pass stops at the first entry for the whole number. -/
def Rule.passFixed (rule : Rule) (called : CalledNumber) : Selection :=
  match rule.numbers.find? (fun n => n.isFor rule called && !n.numberFixed.isEmpty &&
    (n.forms rule called).contains n.numberFixed) with
  | some n => { tariff := rule.tariff.override n.tariff, found := true }
  | none => { tariff := rule.tariff }

def Rule.passRegex (regexps : Regexps) (rule : Rule) (called : CalledNumber) : Selection :=
  rule.numbers.foldl (fun s n =>
    if n.isFor rule called && !n.numberRegex.isEmpty && regexps.isOK n.numberRegex then
      let parts := (n.forms rule called).flatMap (regexps.matchParts n.numberRegex)
      s.take n (parts.foldl (fun length part => max length part.length) 0)
    else s) { tariff := rule.tariff }

def Rule.passPrefixes (rule : Rule) (called : CalledNumber) : Selection :=
  rule.numbers.foldl (fun s n =>
    if n.isFor rule called && !n.numberPrefix.isEmpty &&
        (n.forms rule called).any (fun form => form.take n.numberPrefix.length == n.numberPrefix) then
      s.take n n.numberPrefix.length
    else s) { tariff := rule.tariff }

/-- The three passes of `billing`; a pass without a match leaves the default tariff. -/
def Rule.tariffFor (regexps : Regexps) (rule : Rule) (called : CalledNumber) : Tariff :=
  let s := rule.passFixed called
  if s.found then s.tariff
  else
    let s := rule.passRegex regexps called
    if s.found then s.tariff else (rule.passPrefixes called).tariff

/-! ## The charging loop -/

/-- The conversion of a difference of times to an unsigned number. Out of range it is undefined. -/
def toUnsigned (n : Int) : Option Nat := if 0 ≤ n ∧ n < 2 ^ 32 then some n.toNat else none

/-- The variables of the loop; `billed` are the seconds charged so far. -/
structure Charge where
  durationRest : Int
  timeIter : Tm
  countIter : Nat := 0
  rsltPrice : ℚ := 0
  billed : Nat := 0

section Loop
variable (t : Tariff) (offset : Int) (holidays : Option (List Holiday))

/-- `max_duration_iter`, which there is with peak hours only. -/
def maxDurationIter (s : Charge) : Option Nat :=
  if t.peakDefinition.enable then
    let check := t.peakDefinition.peakCheck offset s.timeIter holidays
    toUnsigned (diffTime offset check.2 s.timeIter)
  else some (2 ^ 32 - 1)

def chargeUpTo (s : Charge) (maxDurationIter : Nat) : Charge :=
  let durationIter := if s.countIter = 0 ∧ t.t1 ≠ t.t2 then t.t1 else s.durationRest.toNat
  let check := t.peakDefinition.peakCheck offset s.timeIter holidays
  let peak := t.peakDefinition.enable && check.1
  let durationIter := if t.peakDefinition.enable ∧ maxDurationIter < durationIter ∧
    s.countIter > 0 then maxDurationIter else durationIter
  let unit := if s.countIter = 0 then t.t1 else t.t2
  let count := durationIter / unit + if durationIter % unit ≠ 0 then 1 else 0
  let durationIter := count * unit % 2 ^ 32
  let priceIter := (durationIter / unit : Nat) * (if peak then t.pricePeak else t.price) * unit / 60
  { durationRest := Int.bmod (s.durationRest - durationIter) (2 ^ 32)
    timeIter := dateTimeAdd offset s.timeIter durationIter
    countIter := s.countIter + 1
    rsltPrice := s.rsltPrice + priceIter
    billed := s.billed + durationIter }

/-- One round of the loop. -/
def chargeIter (s : Charge) : Option Charge :=
  (maxDurationIter t offset holidays s).map (chargeUpTo t offset holidays s)

/-- The loop; the number bounds its rounds. -/
def chargeLoop : Nat → Charge → Option Charge
  | fuel, s =>
    if s.durationRest > 0 then
      match fuel with
      | 0 => none
      | fuel + 1 => (chargeIter t offset holidays s).bind (chargeLoop fuel)
    else some s

end Loop

/-- The variables before the loop. The start is converted in the zone of the rule, with the offset
`startOffset`, if the rule has one. -/
def chargeStart (time startOffset : Int) (duration : Nat) : Charge :=
  { durationRest := duration, timeIter := localtime startOffset time }

/-- `billing`. A round charges at least one second. -/
def Rule.billing (regexps : Regexps) (rule : Rule) (called : CalledNumber) (time : Int)
    (duration : Nat) (startOffset offset : Int) (holidays : Option (List Holiday)) : Option ℚ :=
  let duration := if duration = 0 then 1 else duration
  let t := rule.tariffFor regexps called
  if t.t1 = 0 ∨ t.t2 = 0 ∨ t.price = 0 ∨ (t.peakDefinition.enable ∧ t.pricePeak = 0) then some 0
  else
    (chargeLoop t offset holidays duration (chargeStart time startOffset duration)).map
      Charge.rsltPrice

end VoipMonitor.Billing

/-!
# Assignments of billing rules (`cBillingAssignments`, `billing.cpp`)

An operator or a customer is assigned to a rule by its addresses, by its numbers and, for
customers, by the user name of the digest. Each of them has a weight, and the assignment of the
greatest sum is looked for in the order of the ids. The sorting of the lists by their first search
and the lock are left out.
-/

namespace VoipMonitor.BillingAssignments
open VoipMonitor.Library VoipMonitor.CallsHash VoipMonitor.AddressLists Std

/-- The parts of the lists that are not modelled here: the orders of equal elements, the regular
expressions, and `CheckString::check` for the text of an entry. -/
structure Lists where
  sortIP : List IP → List IP
  sortNumber : List PhoneNumber → List PhoneNumber
  regexps : Regexps
  checkString : Bytes → Bytes → Bool

/-- `cBillingAssignment`. The number in its normal form is that of `checkInternational`. -/
structure Assignment where
  billingRuleId : Nat
  numberNormalized : Bytes → VmIP → Bytes
  listIP : ListIP := {}
  listNumber : ListPhoneNumber := {}
  listDigestUsername : List Bytes := []

def listIPIsEmpty (l : ListIP) : Bool := l.listIP.items.isEmpty && l.listNet.items.isEmpty

def listNumberIsEmpty (l : ListPhoneNumber) : Bool :=
  l.listPhoneNumber.items.isEmpty && l.listPrefixes.items.isEmpty && l.listRegExp.isEmpty

namespace Assignment

def checkIP (lists : Lists) (a : Assignment) (ip : VmIP) : Bool :=
  (a.listIP.checkIP lists.sortIP ip).2

def checkNumber (lists : Lists) (a : Assignment) (number : Bytes) : Bool :=
  (a.listNumber.checkNumber lists.regexps lists.sortNumber number).2

def checkDigestUsername (lists : Lists) (a : Assignment) (digestUsername : Bytes) : Bool :=
  a.listDigestUsername.any (fun text => lists.checkString text digestUsername)

end Assignment

/-- `eBilingTypeAssignment`. -/
inductive BillingTypeAssignment where
  | operator | customer
deriving DecidableEq, Repr

/-- `eTypeAssign`, a number of bits. -/
def typeAssignNa : Nat := 0
def typeAssignIp : Nat := 1
def typeAssignNumber : Nat := 2
def typeAssignDigestUsernameUnset : Nat := 4
def typeAssignDigestUsernameSet : Nat := 8

def okWeightIp : Nat := 30
def okWeightNumber : Nat := 20
def okWeightDigestUsernameUnset : Nat := 1
def okWeightDigestUsernameSet : Nat := 100

/-- The arguments of a search. -/
structure Query where
  ip : VmIP
  number : Bytes
  digestUsername : Option Bytes
  typeAssignment : BillingTypeAssignment
  countryPrefixes : Bool

structure Assignments where
  operators : TreeMap Nat Assignment := {}
  customers : TreeMap Nat Assignment := {}
  customersRuleDigestUsernameExists : Bool := false

def Assignments.checkDigestUsername (s : Assignments) (q : Query) : Bool :=
  q.typeAssignment == .customer && q.digestUsername.isSome && s.customersRuleDigestUsernameExists

section Search
variable (lists : Lists) (q : Query) (checkDigestUsername : Bool)

def okWeightIpNumber (a : Assignment) : Nat × Nat :=
  let numberCheck := if q.countryPrefixes && !listNumberIsEmpty a.listNumber then
    a.numberNormalized q.number q.ip else q.number
  let ok := (0, typeAssignNa)
  let ok := if !listIPIsEmpty a.listIP && a.checkIP lists q.ip then
    (ok.1 + okWeightIp, ok.2 ||| typeAssignIp) else ok
  if !listNumberIsEmpty a.listNumber && a.checkNumber lists numberCheck then
    (ok.1 + okWeightNumber, ok.2 ||| typeAssignNumber) else ok

def okWeight (a : Assignment) : Nat × Nat :=
  let ok := okWeightIpNumber lists q a
  if checkDigestUsername then
    let digestUsername := q.digestUsername.getD []
    let okOrUnset := ok.1 > 0 || (listIPIsEmpty a.listIP && listNumberIsEmpty a.listNumber)
    if !a.listDigestUsername.isEmpty then
      if okOrUnset && !digestUsername.isEmpty && a.checkDigestUsername lists digestUsername then
        (ok.1 + okWeightDigestUsernameSet, ok.2 ||| typeAssignDigestUsernameSet)
      else (0, ok.2)
    else if okOrUnset && digestUsername.isEmpty then
      (ok.1 + okWeightDigestUsernameUnset, ok.2 ||| typeAssignDigestUsernameUnset)
    else ok
  else ok

/-- The variables of the loop. -/
structure Choice where
  billingRuleId : Nat := 0
  assignmentId : Nat := 0
  okWeight : Nat := 0
  typeAssign : Nat := typeAssignNa

def chooseLoop : List (Nat × Assignment) → Choice → Choice
  | [], rslt => rslt
  | (id, a) :: rest, rslt =>
    let ok := okWeight lists q checkDigestUsername a
    if ok.1 > rslt.okWeight then
      let rslt : Choice :=
        { billingRuleId := a.billingRuleId, assignmentId := id, okWeight := ok.1,
          typeAssign := ok.2 }
      if ok.1 = okWeightIp + okWeightNumber +
          (if checkDigestUsername then okWeightDigestUsernameSet else 0) then rslt
      else chooseLoop rest rslt
    else chooseLoop rest rslt

end Search

def Assignments.findBillingRuleId (lists : Lists) (s : Assignments) (q : Query) :
    Nat × Option (Nat × Nat) :=
  let assignments := if q.typeAssignment = .operator then s.operators else s.customers
  let rslt := chooseLoop lists q (s.checkDigestUsername q) assignments.toList {}
  (rslt.billingRuleId,
    if rslt.billingRuleId ≠ 0 then some (rslt.assignmentId, rslt.typeAssign) else none)

end VoipMonitor.BillingAssignments
