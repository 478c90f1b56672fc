import VoipMonitor.Library.Bytes
import VoipMonitor.Library.SortedSearch
import VoipMonitor.Model.CallsHash

/-!
# Lists of addresses and of phone numbers (`ListIP`, `ListPhoneNumber`)

Both are sorted by the first search and searched with `std::lower_bound`. Networks that contain
an address are looked for from there back, until one has no bit in common with the address; of
the prefixes of a number only the one before it is looked at.
-/

namespace VoipMonitor.AddressLists
open VoipMonitor.Library VoipMonitor.CallsHash

structure IP where
  ip : VmIP
  maskLength : Nat

/-- `IP(vmIP ip, int mask_length = -1)`; the member is a `u_int16_t`. -/
def IP.ofIp (ip : VmIP) (maskLength : Int) : IP where
  ip := if 0 < maskLength ∧ maskLength < ip.bits then ip.network maskLength.toNat else ip
  maskLength := if maskLength = -1 then 0 else (maskLength % 2 ^ 16).toNat

/-- `IP(const char *ip)` for a text with the address `ip` and the number after the slash. Without
a slash the length is guessed from the bytes at the end that are 0. -/
def IP.ofText (ip : VmIP) : Option Int → IP
  | some n =>
    let maskLength := (n % 2 ^ 16).toNat
    { ip := if 0 < maskLength ∧ maskLength < ip.bits then ip.network maskLength else ip
      maskLength := maskLength }
  | none =>
    { ip := ip
      maskLength := (((List.range (ip.bits / 8)).tail.map (8 * ·)).find?
        (fun i => ip = ip.network i)).getD 0 }

def IP.checkIP (e : IP) (checkIp : VmIP) : Bool :=
  if e.maskLength = 0 ∨ e.maskLength = e.ip.bits then checkIp = e.ip
  else e.ip = checkIp.network e.maskLength

def IP.isNet (e : IP) : Bool := e.ip.isNetMask e.maskLength

def IP.sortKey (e : IP) : ℕ ⊕ₗ List ℕ := e.ip.sortKey

structure ListIP where
  listIP : LazySorted IP := {}
  listNet : LazySorted IP := {}

def ListIP.add (s : ListIP) (e : IP) : ListIP :=
  if e.isNet then { s with listNet := s.listNet.push e } else { s with listIP := s.listIP.push e }

def ListIP.clear (s : ListIP) : ListIP where
  listIP := s.listIP.clear
  listNet := s.listNet.clear

def searchIP (l : List IP) (checkIp : VmIP) : Bool :=
  (l[lowerBound (fun e => e.ip.lt checkIp) l]?).any (fun e => e.checkIP checkIp)

/-- The walk ends at this network, if it has not the address 0, when it has no bit in common with
the address. -/
def IP.stops (e : IP) (checkIp : VmIP) : Bool :=
  !(!e.ip.isSet && e.maskLength ≠ 0) && !(e.ip.mask checkIp).isSet

def walkBack (checkIp : VmIP) : List IP → Bool
  | [] => false
  | e :: rest =>
    if e.stops checkIp then false
    else if e.checkIP checkIp then true
    else walkBack checkIp rest

def searchNet (l : List IP) (checkIp : VmIP) : Bool :=
  let i := lowerBound (fun e => e.ip.lt checkIp) l
  if (l[i]?).any (fun e => e.checkIP checkIp) then true
  else walkBack checkIp (l.take i).reverse

/-- The new state and the answer. -/
def ListIP.checkIP (sort : List IP → List IP) (s : ListIP) (checkIp : VmIP) : ListIP × Bool :=
  let listIP := s.listIP.prepare sort
  if searchIP listIP.items checkIp then ({ s with listIP := listIP }, true)
  else
    let listNet := s.listNet.prepare sort
    ({ listIP := listIP, listNet := listNet }, searchNet listNet.items checkIp)

structure PhoneNumber where
  number : Bytes
  isPrefix : Bool
  lengthPrefix : Nat

def withoutPercent (number : Bytes) : Bytes := (number.reverse.dropWhile (· = 0x25)).reverse

def PhoneNumber.ofNumber (number : Bytes) (isPrefix : Bool) : PhoneNumber :=
  let isPrefix := isPrefix || number.getLast? = some 0x25
  let number := withoutPercent number
  { number := number, isPrefix := isPrefix, lengthPrefix := if isPrefix then number.length else 0 }

/-- Numbers are C strings, given without the null byte at their end. -/
def PhoneNumber.checkNumber (p : PhoneNumber) (checkNumber : Bytes) : Bool :=
  if p.isPrefix then (p.number.take p.lengthPrefix).isPrefixOf checkNumber
  else checkNumber = p.number

/-- The order of `std::string` is that of the bytes. -/
def PhoneNumber.sortKey (p : PhoneNumber) : List ℕ := p.number.map UInt8.toNat

structure Regexps where
  checkRegexp : Bytes → Bool
  isMatch : Bytes → Bytes → Bool

/-- The regular expression for a number with wildcards. -/
def number2Regex (number : Bytes) : Bytes :=
  let reg := if number.head? = some 0x5b then number.drop 1 else number
  let reg := if reg.getLast? = some 0x5d then reg.dropLast else reg
  let addEnd := reg.head? = some 0x25
  let reg := if addEnd then reg.drop 1 else reg
  let addStart := reg.getLast? = some 0x25
  let reg := if addStart then reg.dropLast else reg
  let any := 0x5f ∈ reg
  let reg := if any then reg.map (fun c => if c = 0x5f then 0x2e else c) else reg
  (if addStart ∨ any then [0x5e] else []) ++ reg ++ (if addEnd ∨ any then [0x24] else [])

structure ListPhoneNumber where
  listPhoneNumber : LazySorted PhoneNumber := {}
  listPrefixes : LazySorted PhoneNumber := {}
  listRegExp : List Bytes := []

/-- `R(...)`. -/
def isRegexpText (number : Bytes) : Bool :=
  number[0]? = some 0x52 && number[1]? = some 0x28 && number.getLast? = some 0x29

/-- The number has one of `%_[`. -/
def hasWildcard (number : Bytes) : Bool := number.any (fun c => c = 0x25 || c = 0x5f || c = 0x5b)

def ListPhoneNumber.add (r : Regexps) (s : ListPhoneNumber) (number : Bytes) (isPrefix : Bool) :
    ListPhoneNumber :=
  if isRegexpText number then
    if r.checkRegexp number then
      { s with listRegExp := s.listRegExp ++ [(number.drop 2).dropLast] }
    else s
  else if hasWildcard number then
    if r.checkRegexp (number2Regex number) then
      { s with listRegExp := s.listRegExp ++ [number2Regex number] }
    else s
  else if !isPrefix then
    { s with listPhoneNumber := s.listPhoneNumber.push (PhoneNumber.ofNumber number false) }
  else { s with listPrefixes := s.listPrefixes.push (PhoneNumber.ofNumber number true) }

def ListPhoneNumber.clear (s : ListPhoneNumber) : ListPhoneNumber where
  listPhoneNumber := s.listPhoneNumber.clear
  listPrefixes := s.listPrefixes.clear
  listRegExp := []

def numberBound (l : List PhoneNumber) (checkNumber : Bytes) : Nat :=
  lowerBound (fun p => p.sortKey < (PhoneNumber.ofNumber checkNumber false).sortKey) l

def searchNumber (l : List PhoneNumber) (checkNumber : Bytes) : Bool :=
  (l[numberBound l checkNumber]?).any (fun p => p.checkNumber checkNumber)

/-- The found place and the one before it are looked at. -/
def searchPrefix (l : List PhoneNumber) (checkNumber : Bytes) : Bool :=
  let i := numberBound l checkNumber
  if (l[i]?).any (fun p => p.checkNumber checkNumber) then true
  else if i ≠ 0 then (l[i - 1]?).any (fun p => p.checkNumber checkNumber)
  else false

def ListPhoneNumber.checkNumber (r : Regexps) (sort : List PhoneNumber → List PhoneNumber)
    (s : ListPhoneNumber) (checkNumber : Bytes) : ListPhoneNumber × Bool :=
  let listPhoneNumber := s.listPhoneNumber.prepare sort
  if searchNumber listPhoneNumber.items checkNumber then
    ({ s with listPhoneNumber := listPhoneNumber }, true)
  else
    let listPrefixes := s.listPrefixes.prepare sort
    let s := { s with listPhoneNumber := listPhoneNumber, listPrefixes := listPrefixes }
    if searchPrefix listPrefixes.items checkNumber then (s, true)
    else (s, s.listRegExp.any (fun pattern => r.isMatch pattern checkNumber))

inductive ListIPOp where
  | add (e : IP)
  | clear
  | check (checkIp : VmIP)

def ListIP.step (sort : List IP → List IP) (s : ListIP) : ListIPOp → ListIP × Option Bool
  | .add e => (s.add e, none)
  | .clear => (s.clear, none)
  | .check checkIp => ((s.checkIP sort checkIp).1, some (s.checkIP sort checkIp).2)

inductive ListPhoneNumberOp where
  | add (number : Bytes) (isPrefix : Bool)
  | clear
  | check (checkNumber : Bytes)

def ListPhoneNumber.step (r : Regexps) (sort : List PhoneNumber → List PhoneNumber)
    (s : ListPhoneNumber) : ListPhoneNumberOp → ListPhoneNumber × Option Bool
  | .add number isPrefix => (s.add r number isPrefix, none)
  | .clear => (s.clear, none)
  | .check n => ((s.checkNumber r sort n).1, some (s.checkNumber r sort n).2)

/-- The answers of a sequence of operations, some of which are marked as extra: their answers are
left out. -/
def answers {σ ω : Type} (step : σ → ω → σ × Option Bool) : σ → List (Bool × ω) → List Bool
  | _, [] => []
  | s, (extra, op) :: ops =>
    let r := step s op
    (if extra then [] else r.2.toList) ++ answers step r.1 ops

end VoipMonitor.AddressLists
