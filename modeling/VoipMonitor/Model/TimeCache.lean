import VoipMonitor.Library.Calendar
import VoipMonitor.Library.Runs

/-!
# The cache of time conversions (`sLocalTimeHourCacheItems`, `tools.h`)

A conversion between a timestamp and its broken-down time is kept for a quarter of an hour. An
entry is found by the quarter of the timestamp in one direction and by the fields in the other;
both keys stay below 64 bits and are not reduced here. The offsets of the zones are constant.
-/

namespace VoipMonitor.TimeCache
open VoipMonitor.Library

def localtimeMincacheLength : Nat := 6

structure Zones where
  localOffset : Int
  offsetOf : String → Int

/-- `localtime_r`, or `gmtime_r` with the offset zero. -/
def localtime (offset timestamp : Int) : Tm := Calendar.ofSeconds (timestamp + offset)

/-- `mktime` returns the timestamp and brings the fields into their ranges. -/
def mktime (offset : Int) (time : Tm) : Int × Tm :=
  let timestamp := Calendar.toSeconds time - offset
  (timestamp, localtime offset timestamp)

def toU16 (n : Int) : Int := n % 2 ^ 16

def toU64 (n : Int) : Int := n % 2 ^ 64

def toInt32 (n : Int) : Int := Int.bmod n (2 ^ 32)

/-- `sLocalTimeHourCacheItem`. -/
structure CacheItem where
  timestampYmdhm15 : Int := 0
  ymdhm15 : Int := 0
  year : Int := 0
  month : Int := 0
  day : Int := 0
  wday : Int := 0
  yday : Int := 0
  hour : Int := 0
  min15 : Int := 0
  isdst : Bool := false

/-- The number of a quarter, as `getTime` looks for it. -/
def quarterOf (timestamp : Int) : Int := timestamp.tdiv (15 * 60)

/-- The fields as one number, as `getTimestamp` looks for it. -/
def fieldsKey (time : Tm) : Int :=
  time.year * 10000000 + time.mon * 100000 + time.mday * 1000 + time.hour * 10 + time.min.tdiv 15

namespace CacheItem

def getTime (i : CacheItem) (timestamp : Int) : Tm :=
  let min15sec := toU64 (timestamp.tmod (15 * 60))
  { year := i.year
    mon := i.month
    mday := i.day
    wday := i.wday
    yday := i.yday
    hour := i.hour
    min := toInt32 (i.min15 * 15 + min15sec / 60)
    sec := min15sec % 60
    isdst := if i.isdst then 1 else 0 }

def getTimestamp (i : CacheItem) (time : Tm) : Int :=
  i.timestampYmdhm15 * (15 * 60) + (time.min - i.min15 * 15) * 60 + time.sec

def setTime (timestamp : Int) (time : Tm) : CacheItem where
  timestampYmdhm15 := quarterOf timestamp
  ymdhm15 := fieldsKey time
  year := toU16 time.year
  month := toU16 time.mon
  day := toU16 time.mday
  wday := toU16 time.wday
  yday := toU16 time.yday
  hour := toU16 time.hour
  min15 := toU16 (time.min.tdiv 15)
  isdst := decide (time.isdst ≠ 0)

end CacheItem

/-- `sLocalTimeHourCacheItems`; the empty name is the zone of the process. -/
structure CacheItems where
  cacheItems : List CacheItem := List.replicate localtimeMincacheLength {}
  cacheInsertIndex : Nat := 0
  gmt : Bool
  timezone : String

namespace CacheItems

def create (gmt : Bool) (timezone : String) : CacheItems := { gmt := gmt, timezone := timezone }

def addToCache (c : CacheItems) (timestamp : Int) (time : Tm) : CacheItems :=
  let index := c.cacheInsertIndex + 1
  { c with
    cacheItems := c.cacheItems.set c.cacheInsertIndex (CacheItem.setTime timestamp time)
    cacheInsertIndex := if index ≥ localtimeMincacheLength then 0 else index }

/-- The zone that `TZ` has during a call. -/
def tzOffset (zones : Zones) (c : CacheItems) : Int :=
  if c.timezone = "" then zones.localOffset else zones.offsetOf c.timezone

def getTime (zones : Zones) (c : CacheItems) (timestamp : Int) : Tm × CacheItems :=
  match c.cacheItems.find? (fun i => quarterOf timestamp == i.timestampYmdhm15) with
  | some i => (i.getTime timestamp, c)
  | none =>
    let time := if c.gmt then localtime 0 timestamp else localtime (c.tzOffset zones) timestamp
    (time, c.addToCache timestamp time)

/-- The flag for GMT is not read here. -/
def getTimestamp (zones : Zones) (c : CacheItems) (time : Tm) : Int × CacheItems :=
  match c.cacheItems.find? (fun i => fieldsKey time == i.ymdhm15) with
  | some i => (i.getTimestamp time, c)
  | none =>
    let r := mktime (c.tzOffset zones) time
    (r.1, c.addToCache r.1 r.2)

def zoneOffset (zones : Zones) (c : CacheItems) : Int := if c.gmt then 0 else c.tzOffset zones

end CacheItems

abbrev Timestamp := { t : Int // 900 ≤ t }

/-- `getTimestamp` is called with the fields of a timestamp. -/
inductive Op where
  | getTime (timestamp : Timestamp)
  | getTimestamp (timestamp : Timestamp)

def step (zones : Zones) (c : CacheItems) : Op → CacheItems
  | .getTime t => (c.getTime zones t).2
  | .getTimestamp t => (c.getTimestamp zones (localtime (c.zoneOffset zones) t)).2

end VoipMonitor.TimeCache
