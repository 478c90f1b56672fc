import VoipMonitor.Library.PrefixOrder
import VoipMonitor.Library.SortedMap
import VoipMonitor.Model.IpFilter

/-!
# Capture rules by SIP header (`SIP_HEADERfilter`, `filter_mysql.cpp`)

The rules are kept by header. The contents of one header that are compared are in a map in the
order of strings, where the lower bound of a value and the entry in front of it are examined; the
regular expressions are tried one after the other.
-/

namespace VoipMonitor.SipHeaderFilter
open VoipMonitor.Library VoipMonitor.IpFilter

/-- The texts of `content_type`; every other text is `strict`. -/
inductive ContentType where
  | strict
  | pfx
  | regexp
deriving DecidableEq, Repr

/-- `db_row`. A content is a text without null characters. -/
structure Row where
  header : Bytes
  content : Bytes
  contentType : ContentType := .strict
  flags : FilterFlags := 0
  natAliases : Option NatAliases := none
  content_text : ∀ c ∈ content, c ≠ 0

structure ItemData where
  pfx : Bool := false
  regexp : Bool := false
  flags : FilterFlags := 0
  natAliases : Option NatAliases := none

/-- `header_data`: the two maps from contents to items. -/
structure HeaderData where
  strictPrefix : List (Bytes × ItemData) := []
  regexp : List (Bytes × ItemData) := []

def stringLt (a b : Bytes) : Bool := decide (codes a < codes b)

structure Filter where
  data : List (Bytes × HeaderData) := []
  count : Nat := 0

def Row.item (row : Row) : ItemData where
  pfx := row.contentType = .pfx
  regexp := row.contentType = .regexp
  flags := row.flags
  natAliases := row.natAliases

def HeaderData.add (d : HeaderData) (row : Row) : HeaderData :=
  if row.item.regexp then
    { d with regexp := SortedMap.set stringLt row.content row.item d.regexp }
  else { d with strictPrefix := SortedMap.set stringLt row.content row.item d.strictPrefix }

/-- A row of `load`; it is counted when it is read and when it is added. -/
def addRow (filter : Filter) (row : Row) : Filter where
  data := SortedMap.set stringLt row.header
    (((SortedMap.get row.header filter.data).getD {}).add row) filter.data
  count := filter.count + 2

def load (rows : List Row) : Filter := rows.foldl addRow {}

abbrev Message := Bytes → Option Bytes

def getContentString (message : Message) (nodeName : Bytes) : Bytes := (message nodeName).getD []

/-- `!strncmp` over the length of a text `a` without null characters. -/
def strncmpEq (a b : Bytes) : Bool := a == b.take a.length

/-- The map of strict contents and prefixes: the lower bound if it is equal, else the entry in front
of it, or the first entry when there is none in front. -/
def examine (content : Bytes) (m : List (Bytes × ItemData)) : Option ItemData :=
  let bound := SortedMap.lowerBound stringLt content m
  match bound.2.head? with
  | some e =>
    if e.1 = content then some e.2
    else ((bound.1.getLast?).or (some e)).bind
      (fun e => if e.2.pfx && strncmpEq e.1 content then some e.2 else none)
  | none =>
    (bound.1.getLast?).bind
      (fun e => if e.2.pfx && strncmpEq e.1 content then some e.2 else none)

/-- One round of the loop over the headers. `regMatch` is the regular expression library. -/
def matchHeader (regMatch : Bytes → Bytes → Bool) (content : Bytes) (d : HeaderData) :
    Option ItemData :=
  if content = [] then none
  else
    (examine content d.strictPrefix).or
      ((d.regexp.find? (fun e => regMatch content e.1)).map Prod.snd)

def findItem (regMatch : Bytes → Bytes → Bool) (message : Message) (filter : Filter) :
    Option ItemData :=
  filter.data.findSome?
    (fun h => matchHeader regMatch (getContentString message (h.1 ++ [58])) h.2)

def addCallFlags (regMatch : Bytes → Bytes → Bool) (filter : Filter) (message : Message)
    (flags : CallFlags) (natAliases : Option NatAliases) (reconfigure : Bool) : FilterResult :=
  if filter.count = 0 then { found := false, flags, natAliases }
  else
    match findItem regMatch message filter with
    | some item =>
      { found := true
        flags := setCallFlagsFromFilterFlags flags item.flags reconfigure
        natAliases := combNatAliases item.natAliases natAliases }
    | none => { found := false, flags, natAliases }

end VoipMonitor.SipHeaderFilter

/-!
## The four capture filters of a call (`filter_mysql.cpp`, `setCallFlags` of `sniff.cpp`)

The rules for domains are a list of which the first one that is for the call is applied. Each of
the four classes has an active filter, and a static `add_call_flags` that applies it to the flags
of a call.
-/

namespace VoipMonitor.DomainFilter
open VoipMonitor.Library VoipMonitor.IpFilter

/-- `t_node`, and the row of the table of which it is made. -/
structure Node where
  domain : Bytes
  direction : Int := 0
  flags : FilterFlags := 0
  natAliases : Option NatAliases := none

/-- `DOMAINfilter`. -/
structure Filter where
  firstNode : List Node := []
  count : Nat := 0
  count_eq : count = firstNode.length := by rfl

/-- A row of `load`. The node is added to the first position. -/
def addNode (filter : Filter) (node : Node) : Filter where
  firstNode := node :: filter.firstNode
  count := filter.count + 1
  count_eq := by rw [filter.count_eq, List.length_cons]

def load (rows : List Node) : Filter := rows.foldl addNode {}

/-- The rule is for these domains. -/
def Node.isFor (node : Node) (domainSrc domainDst : Bytes) : Bool :=
  ((node.direction = 0 || node.direction = 2) && domainDst = node.domain) ||
    ((node.direction = 0 || node.direction = 1) && domainSrc = node.domain)

def Filter.findNode (filter : Filter) (domainSrc domainDst : Bytes) : Option Node :=
  filter.firstNode.find? (Node.isFor · domainSrc domainDst)

def addCallFlags (filter : Filter) (flags : CallFlags) (natAliases : Option NatAliases)
    (domainSrc domainDst : Bytes) (reconfigure : Bool) : FilterResult :=
  if filter.count = 0 then { found := false, flags, natAliases }
  else
    match filter.findNode domainSrc domainDst with
    | some node =>
      { found := true
        flags := setCallFlagsFromFilterFlags flags node.flags reconfigure
        natAliases := combNatAliases node.natAliases natAliases }
    | none => { found := false, flags, natAliases }

end VoipMonitor.DomainFilter

namespace VoipMonitor.CaptureFilters
open VoipMonitor.Library VoipMonitor.CallsHash VoipMonitor.IpFilter

/-- The `filter_active` of each class. -/
structure Active where
  ip : Option (List IpFilter.Node) := none
  telnum : Option TelnumFilter.Filter := none
  domain : Option DomainFilter.Filter := none
  sipHeader : Option SipHeaderFilter.Filter := none

structure CallData where
  saddr : VmIP
  daddr : VmIP
  caller : Bytes
  called : Bytes
  callerDomain : Bytes
  calledDomain : Bytes
  message : SipHeaderFilter.Message

structure Options where
  flags : CallFlags
  natAliases : Option NatAliases := none

inductive Kind where
  | ip
  | telnum
  | domain
  | sipHeader
deriving DecidableEq, Repr

section Apply
variable (regMatch : Bytes → Bytes → Bool) (active : Active) (data : CallData)

/-- The static `add_call_flags` of a class; without an active filter it does nothing. The one for
domains does not pass `reconfigure` on. -/
def addCallFlags (kind : Kind) (o : Options) (reconfigure : Bool) : FilterResult :=
  let nothing : FilterResult := { found := false, flags := o.flags, natAliases := o.natAliases }
  match kind with
  | .ip => active.ip.elim nothing
      (IpFilter.addCallFlags · o.flags o.natAliases data.saddr data.daddr reconfigure)
  | .telnum => active.telnum.elim nothing
      (TelnumFilter.addCallFlags · o.flags o.natAliases data.caller data.called reconfigure)
  | .domain => active.domain.elim nothing
      (DomainFilter.addCallFlags · o.flags o.natAliases data.callerDomain data.calledDomain false)
  | .sipHeader => active.sipHeader.elim nothing
      (SipHeaderFilter.addCallFlags regMatch · data.message o.flags o.natAliases reconfigure)

def apply (reconfigure : Bool) (o : Options) (kind : Kind) : Options :=
  let result := addCallFlags regMatch active data kind o reconfigure
  { flags := result.flags, natAliases := result.natAliases }

def applyAll (reconfigure : Bool) (order : List Kind) (o : Options) : Options :=
  order.foldl (apply regMatch active data reconfigure) o

/-- The order of `setCallFlags`, which returns 32 bits. -/
def setCallFlags (o : Options) (reconfigure : Bool) : Options :=
  let result := applyAll regMatch active data reconfigure [.ip, .telnum, .domain, .sipHeader] o
  { result with flags := (result.flags.setWidth 32).setWidth 64 }

end Apply

end VoipMonitor.CaptureFilters
