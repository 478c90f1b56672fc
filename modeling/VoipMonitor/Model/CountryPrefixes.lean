import VoipMonitor.Library.FirstBest
import VoipMonitor.Library.Loops
import VoipMonitor.Library.PrefixOrder
import VoipMonitor.Library.SortedSearch
import VoipMonitor.Model.CallsHash

/-!
# Prefixes of numbers (`CheckInternational::skipPrefixes`, `country_detect.cpp`)

`skipPrefixes` takes prefixes off a number. In a round each prefix of the list is taken once at
most, the longest one first, and a new round may follow. A number is a text of C without its end.
-/

namespace VoipMonitor.Country
open VoipMonitor.Library

/-- The members of `CheckInternational` that `skipPrefixes` reads. -/
structure CheckInternational where
  internationalMinLength : Int
  internationalMinLengthPrefixesStrict : Bool

inductive PrefixPattern where
  | string (s : Bytes)
  | regexp (firstMatch : Bytes → Option Bytes)

structure SPrefixPointer where
  pattern : PrefixPattern
  use : Bool

def PrefixPattern.matchText (rest : Bytes) : PrefixPattern → Option Bytes
  | .string s => if s <+: rest then some s else none
  | .regexp firstMatch => firstMatch rest

/-- The arguments of `skipPrefixes` besides the number and the prefixes. -/
structure SkipOptions where
  check : CheckInternational
  prefixesAll : Bool
  prefixesRecurse : Bool
  isInternationalPrefixes : Bool

/-- Something is left behind a prefix, and it is long enough behind an international one. The sum
of `internationalMinLength` and a length has 64 bits. -/
def SkipOptions.lengthOk (o : SkipOptions) (left length : Nat) : Bool :=
  left > length && (!o.isInternationalPrefixes || !o.check.internationalMinLengthPrefixesStrict ||
    o.check.internationalMinLength = 0 ||
    (left : Int) ≥ (o.check.internationalMinLength + length) % 2 ^ 64)

def numberLength (number : Bytes) : Nat := number.length % 2 ^ 32

structure SkipState where
  skipPrefixLength : Nat
  skipPrefixes : List Bytes
  prefixes : List SPrefixPointer
  use : Bool

variable (o : SkipOptions) (number : Bytes)

/-- The prefixes that may be taken, by their places, with what they match. -/
def candidates (s : SkipState) : List (Nat × Bytes) :=
  s.prefixes.zipIdx.filterMap (fun (p, i) =>
    if p.use then none
    else ((p.pattern.matchText (number.drop s.skipPrefixLength)).filter (fun text =>
      o.lengthOk (numberLength number - s.skipPrefixLength) text.length)).map (fun text => (i, text)))

/-- The inner loop: the first one of the longest candidates is taken. -/
def takeRound (s : SkipState) : Outcome SkipState SkipState :=
  match firstBest (fun c => c.2.length) (candidates o number s) none with
  | none => .done s
  | some (i, text) =>
    let s : SkipState := {
      skipPrefixLength := s.skipPrefixLength + text.length
      skipPrefixes := s.skipPrefixes ++ [text]
      prefixes := s.prefixes.modify i (fun p => { p with use := true })
      use := true }
    if o.prefixesAll then .next s else .done s

/-- The outer loop: all prefixes may be taken again. -/
def skipRound (fuel : Nat) (s : SkipState) : Outcome SkipState SkipState :=
  match runLoop (takeRound o number) fuel { s with
    prefixes := s.prefixes.map (fun p => { p with use := false })
    use := false } with
  | none => .broken
  | some s => if s.use = true ∧ o.prefixesRecurse = true then .next s else .done s

/-- What `skipPrefixes` returns, with its output arguments. -/
structure Skipped where
  rslt : Bool
  numberWithoutPrefix : Bytes
  skipPrefix : Bytes
  skipPrefixLength : Nat
  skipPrefixes : List Bytes

/-- `skipPrefixes`. `fuel` bounds the rounds of each loop, and none says that it was not enough. -/
def skipPrefixes (fuel : Nat) (prefixes : List PrefixPattern) : Option Skipped :=
  (runLoop (skipRound o number fuel) fuel ⟨0, [], prefixes.map (fun p => ⟨p, false⟩), false⟩).map
    (fun s =>
      { rslt := s.skipPrefixLength ≠ 0
        numberWithoutPrefix := number.drop s.skipPrefixLength
        skipPrefix := number.take s.skipPrefixLength
        skipPrefixLength := s.skipPrefixLength
        skipPrefixes := s.skipPrefixes })

end VoipMonitor.Country

/-!
## The country of a number (`CountryPrefixes`, `country_detect.cpp`)

The records of a table are sorted by their prefix. `_getCountry` searches the number, and from there
it goes back or searches a shorter number, until it stands at a prefix of the number.
-/

namespace VoipMonitor.Country
open VoipMonitor.Library

variable {IP : Type}

/-- `CountryPrefix_rec`. An empty `ipFilter` is `none`, another one gives the answers of
`checkIP`. -/
structure CountryPrefixRec (IP : Type) where
  number : Bytes
  countryCode : Bytes
  ipFilter : Option (IP → Bool)

structure CountryPrefixes (IP : Type) where
  customerDataSimple : List (CountryPrefixRec IP)
  data : List (CountryPrefixRec IP)

/-- What `_getCountry` returns, with `countries` and `country_prefix`. -/
structure Lookup where
  country : Bytes
  countries : List Bytes
  countryPrefix : Bytes

def CountryPrefixRec.key (r : CountryPrefixRec IP) : List Nat := codes r.number

def load (sort : Sorter (fun r : CountryPrefixRec IP => r.key))
    (customerDataSimple data : List (CountryPrefixRec IP)) : CountryPrefixes IP :=
  ⟨sort.sort customerDataSimple, sort.sort data⟩

/-- `strncmp` finds no difference. -/
def strncmpEq (a b : Bytes) (n : Nat) : Bool := a.take n == b.take n

/-- A `char` is signed. -/
def charLt (c d : UInt8) : Bool := c.toInt8 < d.toInt8

/-- `std::lower_bound`; the end becomes the last record. -/
def landing (data : List (CountryPrefixRec IP)) (number : Bytes) : Nat :=
  let i := lowerBound (fun r => r.key < codes number) data
  if i = data.length then i - 1 else i

def less (number : Bytes) (r : CountryPrefixRec IP) : Bool :=
  atol r.number < atol (number.take (min number.length r.number.length))

/-- The loop of `_getCountry` from a record on, with `_redukSizeFindNumber`: the record that was
found, if there is one. The first argument bounds the rounds. -/
def findLoop (data : List (CountryPrefixRec IP)) (number : Bytes) :
    Nat → Nat → Nat → Option (Option Nat)
  | 0, _, _ => none
  | fuel + 1, it, reduk =>
    (data[it]?).bind (fun r =>
      if strncmpEq r.number number r.number.length then some (some it)
      else if charLt (r.number.headD 0) (number.headD 0) then some none
      else if (reduk = 0 ∨ reduk > 1) ∧ less number r = true then
        let reduk := if reduk ≠ 0 then reduk - 1 else r.number.length - 1
        findLoop data number fuel (landing data (number.take reduk)) reduk
      else if it = 0 then some none
      else findLoop data number fuel (it - 1) reduk)

/-- The record is used for the address. -/
def CountryPrefixRec.accepts (r : CountryPrefixRec IP) (ip : Option IP) : Bool :=
  match r.ipFilter with
  | none => true
  | some check => ip.any check

/-- The other countries with the prefix, over the records in front of the one that was found, the
last one first. -/
def otherCountries (number : Bytes) (ip : Option IP) : List (CountryPrefixRec IP) → List Bytes
  | [] => []
  | r :: before =>
    if r.number = number ∧ r.accepts ip = true then
      r.countryCode :: otherCountries number ip before
    else []

/-- One pass of `_getCountry`, over one table. -/
def getCountryIn (fuel : Nat) (data : List (CountryPrefixRec IP)) (number : Bytes)
    (ip : Option IP) : Option (Option Lookup) :=
  if data = [] then some none
  else
    (findLoop data number fuel (landing data number) 0).map (fun found =>
      (found.bind (fun it => (data[it]?).map (fun r => (it, r)))).bind (fun (it, r) =>
        let rslt := if r.accepts ip then r.countryCode else []
        if rslt = [] then none
        else some ⟨rslt, rslt :: otherCountries r.number ip (data.take it).reverse, r.number⟩))

/-- A customer's record that has only a filter. -/
def countryByIp (data : List (CountryPrefixRec IP)) (ip : Option IP) : Option Lookup :=
  (data.find? (fun r => r.number = [] && r.ipFilter.isSome && ip.isSome && r.accepts ip)).map
    (fun r => ⟨r.countryCode, [r.countryCode], []⟩)

/-- `_getCountry`. The first argument bounds the rounds of each search; none is a search that does
not end within them. -/
def getCountry (fuel : Nat) (c : CountryPrefixes IP) (number : Bytes) (ip : Option IP) :
    Option Lookup :=
  (getCountryIn fuel c.customerDataSimple number ip).bind (fun found =>
    match found with
    | some l => some l
    | none =>
      match countryByIp c.customerDataSimple ip with
      | some l => some l
      | none => (getCountryIn fuel c.data number ip).map (fun found => found.getD ⟨[], [], []⟩))

end VoipMonitor.Country

/-!
## The last address of a network, and the order with equality (`struct vmIP`)
-/

namespace VoipMonitor.CallsHash.VmIP

/-- `_or`. As in `mask`, an IPv4 address overlays the last word, and no caller has a mask of the
other version. -/
def or : VmIP → VmIP → VmIP
  | .v4 a, .v4 m => .v4 (a ||| m)
  | .v4 a, .v6 _ _ _ m3 => .v4 (a ||| m3)
  | .v6 a0 a1 a2 a3, .v6 m0 m1 m2 m3 => .v6 (a0 ||| m0) (a1 ||| m1) (a2 ||| m2) (a3 ||| m3)
  | .v6 a0 a1 a2 a3, .v4 m => .v6 a0 a1 a2 (a3 ||| m)

/-- A word of an IPv6 wildcard mask that has `n` zero bits from its first one on. -/
def wildcardWord (n : Int) : UInt32 :=
  if n ≤ 0 then 0xFFFFFFFF else if n ≥ 32 then 0 else UInt32.ofNat (2 ^ (32 - n).toNat - 1)

def wildcardMask (a : VmIP) (mask : Nat) : VmIP :=
  match a with
  | .v4 _ =>
    let mask := if mask = 0 then 32 else mask
    .v4 (UInt32.ofNat (2 ^ (32 - mask) - 1))
  | .v6 .. =>
    let mask : Int := if mask = 0 then 128 else mask
    .v6 (wildcardWord mask) (wildcardWord (mask - 32)) (wildcardWord (mask - 64))
      (wildcardWord (mask - 96))

def broadcast (a : VmIP) (mask : Nat) : VmIP := a.or (a.wildcardMask mask)

/-- `operator <=`. -/
def le (a b : VmIP) : Bool := a.lt b || decide (a = b)

/-- `operator >`. -/
def gt (a b : VmIP) : Bool := !a.le b

/-- `operator >=`. -/
def ge (a b : VmIP) : Bool := a.gt b || decide (a = b)

def isV6 : VmIP → Bool
  | .v4 _ => false
  | .v6 .. => true

end VoipMonitor.CallsHash.VmIP

/-!
# The country of an address (`GeoIP_country`, `country_detect.h`)

The networks of the customers come before the base table, and there is a base table for each
version of addresses. Every table is sorted by the first address of its ranges.
-/

namespace VoipMonitor.GeoIp
open VoipMonitor.Library VoipMonitor.CallsHash

structure GeoIPCountryRec where
  ipFrom : VmIP
  ipTo : VmIP
  countryCode : Bytes

namespace GeoIPCountryRec

def ofNetwork (ip : VmIP) (mask : Nat) (countryCode : Bytes) : GeoIPCountryRec :=
  ⟨ip.network mask, ip.broadcast mask, countryCode⟩

/-- `operator <` is the order of this key. -/
def sortKey (r : GeoIPCountryRec) : ℕ ⊕ₗ List ℕ := r.ipFrom.sortKey

/-- The test of `getCountry`. -/
def holds (ip : VmIP) (r : GeoIPCountryRec) : Bool := r.ipFrom.le ip && r.ipTo.ge ip

end GeoIPCountryRec

structure GeoIPCountry where
  data : List GeoIPCountryRec
  dataV6 : List GeoIPCountryRec
  customerData : List GeoIPCountryRec

structure CustomerRow where
  ip : VmIP
  mask : Nat
  country : Bytes

/-- `load` with the rows of its queries. `sort` is `std::sort`, and the table of the IPv6 ranges is
read only with `useIPv6`. -/
def load (sort : List GeoIPCountryRec → List GeoIPCountryRec) (useIPv6 : Bool)
    (rows rowsV6 : List GeoIPCountryRec) (customers : List CustomerRow) : GeoIPCountry where
  data := sort rows
  dataV6 := if useIPv6 then sort rowsV6 else []
  customerData := sort (customers.map fun c => .ofNetwork c.ip c.mask c.country)

/-- The loop of `getCountry` over `n` records from the `i`-th one back. -/
def walk (ip : VmIP) (data : List GeoIPCountryRec) : Nat → Nat → Option GeoIPCountryRec
  | 0, _ => none
  | n + 1, i =>
    if (data[i]?).any (·.holds ip) then data[i]?
    else if i = 0 then none
    else walk ip data n (i - 1)

/-- A pass of `getCountry`. -/
def findRec (ip : VmIP) (data : List GeoIPCountryRec) : Option GeoIPCountryRec :=
  if data.isEmpty then none
  else
    let i := lowerBound (·.ipFrom.lt ip) data
    walk ip data 2 (if i = data.length then i - 1 else i)

namespace GeoIPCountry

def table (useIPv6 : Bool) (s : GeoIPCountry) (ip : VmIP) : List GeoIPCountryRec :=
  if useIPv6 && ip.isV6 then s.dataV6 else s.data

def getCountry (useIPv6 : Bool) (s : GeoIPCountry) (ip : VmIP) : Bytes :=
  ((findRec ip s.customerData).or (findRec ip (s.table useIPv6 ip))).elim [] (·.countryCode)

end GeoIPCountry

end VoipMonitor.GeoIp
