import VoipMonitor.Model.CaptureFilters

/-!
# SIP messages of reassembled streams (`SipTcpData`, `sip_tcp_data.cpp`)

`processData` cuts the data of a link at the offsets that were found in it and passes the messages
on. A cache with the digest of a message and a time holds back a message that comes again. The
digest is a parameter. Times are milliseconds.
-/

namespace VoipMonitor.SipTcp
open VoipMonitor.Library VoipMonitor.CallsHash
open VoipMonitor.SipHeaderFilter (stringLt)

structure CacheId where
  ipSrc : VmIP
  ipDst : VmIP
  portSrc : VmPort
  portDst : VmPort
  ack : UInt32
  seq : UInt32
deriving DecidableEq, Repr

/-- `operator <`. -/
def CacheId.lt (a b : CacheId) : Bool :=
  a.ipSrc.lt b.ipSrc || (a.ipSrc = b.ipSrc &&
    (a.ipDst.lt b.ipDst || (a.ipDst = b.ipDst &&
      (a.portSrc < b.portSrc || (a.portSrc = b.portSrc &&
        (a.portDst < b.portDst || (a.portDst = b.portDst &&
          (a.ack < b.ack || (a.ack = b.ack && a.seq < b.seq)))))))))

/-- `TcpReassemblyDataItem`. -/
structure DataItem where
  data : Option Bytes
  toDest : Bool
  time : Nat
  ack : UInt32
  seq : UInt32
deriving DecidableEq, Repr

/-- The arguments of `processData` and the offsets of the link, with the lengths. -/
structure Call where
  ipSrc : VmIP
  ipDst : VmIP
  portSrc : VmPort
  portDst : VmPort
  data : List DataItem
  sipOffsets : List (Nat × Nat)
deriving DecidableEq, Repr

structure Message where
  id : CacheId
  content : Bytes
  toDest : Bool
  time : Nat
deriving DecidableEq, Repr

/-- `Cache_data`: digests with times. -/
abbrev CacheData := List (Bytes × Nat)

structure SipTcpData where
  cache : List (CacheId × CacheData)
  lastCacheTimeCleanup : Nat
  passed : List Message

def SipTcpData.new : SipTcpData := ⟨[], 0, []⟩

def Call.cacheId (c : Call) (item : DataItem) : CacheId :=
  ⟨c.ipSrc, c.ipDst, c.portSrc, c.portDst, item.ack, item.seq⟩

def Call.itemMessages (c : Call) (item : DataItem) : List Message :=
  match item.data with
  | none => []
  | some data =>
    (c.sipOffsets.takeWhile (fun o => add32 o.1 o.2 ≤ data.length)).map (fun o =>
      { id := c.cacheId item, content := slice data o.1 o.2, toDest := item.toDest
        time := item.time })

def Call.messages (c : Call) : List Message := c.data.flatMap c.itemMessages

def Call.cacheTime (c : Call) : Nat := (c.messages.getLast?.map Message.time).getD 0

def Message.data (m : Message) : Bytes := m.content.dropWhile (fun c => c = 13 || c = 10)

section Digest
variable (md5 : Bytes → Bytes)

namespace SipTcpData

def setCache (d : SipTcpData) (id : CacheId) (data : CacheData) : SipTcpData :=
  { d with cache := SortedMap.set CacheId.lt id data d.cache }

def checkCache (d : SipTcpData) (m : Message) : SipTcpData × Bool :=
  match SortedMap.get m.id d.cache with
  | some cacheData =>
    match SortedMap.get (md5 m.content) cacheData with
    | some time =>
      if time + 100 > m.time then
        (d.setCache m.id (SortedMap.set stringLt (md5 m.content) m.time cacheData), false)
      else (d, true)
    | none => (d.setCache m.id (SortedMap.set stringLt (md5 m.content) m.time cacheData), true)
  | none => (d.setCache m.id [(md5 m.content, m.time)], true)

/-- One round of the inner loop. -/
def processMessage (d : SipTcpData) (m : Message) : SipTcpData :=
  let (d, goesOn) := d.checkCache md5 m
  if goesOn ∧ m.data ≠ [] then { d with passed := d.passed ++ [m] } else d

/-- The entries of the cache that are not older than 5 seconds. -/
def recent (cacheTime : Nat) (cache : List (CacheId × CacheData)) : List (CacheId × CacheData) :=
  (cache.map (fun e => (e.1, e.2.filter (fun x => cacheTime - 5000 ≤ x.2)))).filter
    (fun e => e.2 ≠ [])

def cleanupCache (d : SipTcpData) (cacheTime : Nat) : SipTcpData :=
  if d.lastCacheTimeCleanup = 0 then { d with lastCacheTimeCleanup := cacheTime }
  else if cacheTime > d.lastCacheTimeCleanup + 10000 then
    { d with cache := recent cacheTime d.cache, lastCacheTimeCleanup := cacheTime }
  else d

def processData (d : SipTcpData) (c : Call) : SipTcpData :=
  (c.messages.foldl (processMessage md5) d).cleanupCache c.cacheTime

end SipTcpData

end Digest

end VoipMonitor.SipTcp
