import VoipMonitor.Library.Bytes
import VoipMonitor.Library.Trie
import VoipMonitor.Model.CallsHash

/-!
# Capture rules by address (`IPfilter`, `filter_mysql.cpp`)

A rule has a network, a direction and options. Each option sets or clears flags of a call. The
scan over the rules applies a matching rule unless one with a longer prefix was applied before.
-/

namespace VoipMonitor.IpFilter
open VoipMonitor.CallsHash

/-- `eCallBitFlag`. -/
inductive CallBit where
  | savesip | savertp | savertpheader | savertpVideo | savertpVideoHeader | processingRtpVideo
  | savemrcp | savertcp | saveregisterdb | saveregisterpcap | saveaudio | formataudioWav
  | formataudioOgg | formataudioMp3 | audiotranscribe | savegraph | saveaudiograph | skipcdr
  | runscript | runamoslqo | runbmoslqo | hidemessage | useSpool2 | savedtmfdb | savedtmfpcap
  | saveoptionsdb | saveoptionspcap | savenotifydb | savenotifypcap | savesubscribedb
  | savesubscribepcap

/-- `eCaptBitFlag`. -/
inductive CaptBit where
  | rtpAll | rtpHeader | nortp | rtpVideoAll | rtpVideoHeader | rtpVideoCdrOnly | nortpVideo
  | mrcp | nomrcp | rtcp | nortcp | sip | nosip | registerDb | noregisterDb | registerPcap
  | noregisterPcap | graph | nograph | audio | audioWav | audioOgg | audioMp3 | nowav
  | audioTranscribe | noAudioTranscribe | audiograph | noAudiograph | skip | noskip | script
  | noscript | amoslqo | bmoslqo | abmoslqo | nomoslqo | hidemsg | showmsg | spool2Set
  | spool2Unset | dtmfDb | nodtmfDb | dtmfPcap | nodtmfPcap | optionsDb | nooptionsDb
  | optionsPcap | nooptionsPcap | notifyDb | nonotifyDb | notifyPcap | nonotifyPcap | subscribeDb
  | nosubscribeDb | subscribePcap | nosubscribePcap
deriving DecidableEq, Repr

abbrev CallFlags := BitVec 64

abbrev FilterFlags := BitVec 64

def callFlag (b : CallBit) : CallFlags := 1#64 <<< b.ctorIdx

def captFlag (b : CaptBit) : FilterFlags := 1#64 <<< b.ctorIdx

def callFlagsOf (bits : List CallBit) : CallFlags :=
  bits.foldl (fun flags b => flags ||| callFlag b) 0

/-- An option, the flags it clears and then the flags it sets. Where the code sets first, the two
have no flag in common. -/
structure FlagRow where
  bit : CaptBit
  clears : List CallBit
  sets : List CallBit

/-- The lines of `setCallFlagsFromFilterFlags` in their order. -/
def flagRows : List FlagRow :=
  [⟨.sip, [], [.savesip]⟩, ⟨.nosip, [.savesip], []⟩, ⟨.rtpAll, [.savertpheader], [.savertp]⟩,
    ⟨.rtpHeader, [.savertp], [.savertpheader]⟩, ⟨.nortp, [.savertp, .savertpheader], []⟩,
    ⟨.rtpVideoAll, [.savertpVideoHeader], [.savertpVideo, .processingRtpVideo]⟩,
    ⟨.rtpVideoHeader, [.savertpVideo], [.savertpVideoHeader, .processingRtpVideo]⟩,
    ⟨.rtpVideoCdrOnly, [.savertpVideo, .savertpVideoHeader], [.processingRtpVideo]⟩,
    ⟨.nortpVideo, [.savertpVideo, .savertpVideoHeader, .processingRtpVideo], []⟩,
    ⟨.mrcp, [], [.savemrcp]⟩, ⟨.nomrcp, [.savemrcp], []⟩, ⟨.rtcp, [], [.savertcp]⟩,
    ⟨.nortcp, [.savertcp], []⟩, ⟨.registerDb, [], [.saveregisterdb]⟩,
    ⟨.noregisterDb, [.saveregisterdb], []⟩, ⟨.registerPcap, [], [.saveregisterpcap]⟩,
    ⟨.noregisterPcap, [.saveregisterpcap], []⟩, ⟨.dtmfDb, [], [.savedtmfdb]⟩,
    ⟨.nodtmfDb, [.savedtmfdb], []⟩, ⟨.dtmfPcap, [], [.savedtmfpcap]⟩,
    ⟨.nodtmfPcap, [.savedtmfpcap], []⟩, ⟨.audio, [], [.saveaudio]⟩,
    ⟨.audioWav, [.formataudioOgg, .saveaudio, .formataudioMp3], [.saveaudio, .formataudioWav]⟩,
    ⟨.audioOgg, [.formataudioWav, .saveaudio, .formataudioMp3], [.saveaudio, .formataudioOgg]⟩,
    ⟨.audioMp3, [.formataudioWav, .saveaudio, .formataudioOgg], [.saveaudio, .formataudioMp3]⟩,
    ⟨.nowav, [.saveaudio], []⟩, ⟨.audioTranscribe, [], [.audiotranscribe]⟩,
    ⟨.noAudioTranscribe, [.audiotranscribe], []⟩, ⟨.audiograph, [], [.saveaudiograph]⟩,
    ⟨.noAudiograph, [.saveaudiograph], []⟩, ⟨.graph, [], [.savegraph]⟩,
    ⟨.nograph, [.savegraph], []⟩, ⟨.skip, [], [.skipcdr]⟩, ⟨.noskip, [.skipcdr], []⟩,
    ⟨.script, [], [.runscript]⟩, ⟨.noscript, [.runscript], []⟩,
    ⟨.amoslqo, [.runbmoslqo], [.runamoslqo]⟩, ⟨.bmoslqo, [.runamoslqo], [.runbmoslqo]⟩,
    ⟨.abmoslqo, [], [.runamoslqo, .runbmoslqo]⟩, ⟨.nomoslqo, [.runamoslqo, .runbmoslqo], []⟩,
    ⟨.hidemsg, [], [.hidemessage]⟩, ⟨.showmsg, [.hidemessage], []⟩,
    ⟨.spool2Set, [], [.useSpool2]⟩, ⟨.spool2Unset, [.useSpool2], []⟩,
    ⟨.optionsDb, [], [.saveoptionsdb]⟩, ⟨.nooptionsDb, [.saveoptionsdb], []⟩,
    ⟨.optionsPcap, [], [.saveoptionspcap]⟩, ⟨.nooptionsPcap, [.saveoptionspcap], []⟩,
    ⟨.notifyDb, [], [.savenotifydb]⟩, ⟨.nonotifyDb, [.savenotifydb], []⟩,
    ⟨.notifyPcap, [], [.savenotifypcap]⟩, ⟨.nonotifyPcap, [.savenotifypcap], []⟩,
    ⟨.subscribeDb, [], [.savesubscribedb]⟩, ⟨.nosubscribeDb, [.savesubscribedb], []⟩,
    ⟨.subscribePcap, [], [.savesubscribepcap]⟩, ⟨.nosubscribePcap, [.savesubscribepcap], []⟩]

/-- The second spool is not changed by `reconfigure`. -/
def FlagRow.applies (row : FlagRow) (filterFlags : FilterFlags) (reconfigure : Bool) : Bool :=
  filterFlags &&& captFlag row.bit ≠ 0 &&
    !(reconfigure && (row.bit = .spool2Set || row.bit = .spool2Unset))

def FlagRow.change (row : FlagRow) (callFlags : CallFlags) : CallFlags :=
  (callFlags &&& ~~~callFlagsOf row.clears) ||| callFlagsOf row.sets

def setCallFlagsFromFilterFlags (callFlags : CallFlags) (filterFlags : FilterFlags)
    (reconfigure : Bool) : CallFlags :=
  flagRows.foldl (fun flags row =>
    if row.applies filterFlags reconfigure then row.change flags else flags) callFlags

abbrev NatAliases := VmIP → Option VmIP

structure Node where
  network : VmIP
  mask : Nat := 0
  direction : Int := 0
  flags : FilterFlags := 0
  natAliases : Option NatAliases := none
  natAliasesInheritance : Bool := false

/-- The node that `load` makes of a row of the table. -/
def Node.ofRow (ip : VmIP) (mask : Nat) (direction : Int) (flags : FilterFlags) : Node where
  network := ip.network mask
  mask := mask
  direction := direction
  flags := flags

/-- `db_row`, with the flags that `getFlagsFromBaseData` makes of its options. -/
structure DbRow where
  ip : VmIP
  mask : Nat := 0
  direction : Int := 0
  flags : FilterFlags := 0
  natAliases : Option NatAliases := none
  natAliasesInheritance : Bool := false

/-- The address as the database compares it: a number, or the text of its bytes with the number of
these. -/
def DbRow.ipKey (row : DbRow) : List Nat :=
  match row.ip with
  | .v4 n => [n.toNat, 4]
  | .v6 w0 w1 w2 w3 => [w0.toNat, 16, w1.toNat, w2.toNat, w3.toNat]

/-- `ORDER BY ip desc, mask desc`. -/
def DbRow.notBefore (a b : DbRow) : Prop := b.ipKey ++ [b.mask] ≤ a.ipKey ++ [a.mask]

instance (a b : DbRow) : Decidable (a.notBefore b) :=
  inferInstanceAs (Decidable (_ ≤ _))

/-- `load`: the rows in the order of the query, each node put first. -/
def load (rows : List DbRow) : List Node :=
  (rows.insertionSort DbRow.notBefore).foldl (fun firstNode row =>
    { Node.ofRow row.ip row.mask row.direction row.flags with
      natAliases := row.natAliases
      natAliasesInheritance := row.natAliasesInheritance } :: firstNode) []

/-- The rule is for these addresses. -/
def Node.isFor (node : Node) (saddr daddr : VmIP) : Bool :=
  (!node.network.isSet && node.mask = 0) ||
    ((node.direction = 0 || node.direction = 2) && daddr.network node.mask = node.network) ||
    ((node.direction = 0 || node.direction = 1) && saddr.network node.mask = node.network)

def Node.prefixLength (node : Node) : Nat :=
  if node.network.isSet && node.mask = 0 then node.network.bits else node.mask

/-- `nat_aliases_node_mask[mask] = node`, with the longest mask first. -/
def setNodeMask (mask : Nat) (node : Node) : List (Nat × Node) → List (Nat × Node)
  | [] => [(mask, node)]
  | (m, n) :: rest =>
    if mask = m then (mask, node) :: rest
    else if m < mask then (mask, node) :: (m, n) :: rest
    else (m, n) :: setNodeMask mask node rest

structure Scan where
  lastMask : Nat := 0
  found : Bool := false
  flags : CallFlags
  natAliasesNodeMask : List (Nat × Node) := []

/-- A round of the loop over the rules. A rule that is passed over keeps its aliases under its own
mask. -/
def Scan.visit (saddr daddr : VmIP) (reconfigure : Bool) (s : Scan) (node : Node) : Scan :=
  if node.isFor saddr daddr then
    let mask := node.prefixLength
    if mask < s.lastMask then
      if node.natAliases.isSome then
        { s with natAliasesNodeMask := setNodeMask node.mask node s.natAliasesNodeMask }
      else s
    else
      { lastMask := mask
        found := true
        flags := setCallFlagsFromFilterFlags s.flags node.flags reconfigure
        natAliasesNodeMask :=
          if node.natAliases.isSome then setNodeMask mask node s.natAliasesNodeMask
          else s.natAliasesNodeMask }
  else s

def combNatAliases (src : Option NatAliases) (dst : Option NatAliases) : Option NatAliases :=
  match src with
  | none => dst
  | some src => some (fun ip => (src ip).or (dst.bind (· ip)))

/-- The aliases of the longest mask, and of the others that are inherited. -/
def combNodes (dst : Option NatAliases) : List (Nat × Node) → Option NatAliases
  | [] => dst
  | (_, first) :: rest =>
    rest.foldl (fun dst p => if p.2.natAliasesInheritance then combNatAliases p.2.natAliases dst
      else dst) (combNatAliases first.natAliases dst)

structure FilterResult where
  found : Bool
  flags : CallFlags
  natAliases : Option NatAliases

/-- `_add_call_flags`. Without rules the loop does nothing, as the test of `count` has it. -/
def addCallFlags (nodes : List Node) (flags : CallFlags) (natAliases : Option NatAliases)
    (saddr daddr : VmIP) (reconfigure : Bool) : FilterResult :=
  let s := nodes.foldl (Scan.visit saddr daddr reconfigure) { flags := flags }
  { found := s.found, flags := s.flags, natAliases := combNodes natAliases s.natAliasesNodeMask }

end VoipMonitor.IpFilter

/-!
# Capture rules by telephone number (`TELNUMfilter`, `filter_mysql.cpp`)

The rules are kept in a tree over the characters of their prefixes, with at most one rule at a
node. The numbers of the caller and of the called are followed through the tree one after the
other.
-/

namespace VoipMonitor.TelnumFilter
open VoipMonitor.Library VoipMonitor.IpFilter

/-- `t_payload`. The prefix is a text of 1 to 63 ASCII characters. -/
structure Payload where
  pfx : Bytes
  direction : Int := 0
  flags : FilterFlags := 0
  natAliases : Option NatAliases := none
  pfx_ne : pfx ≠ []
  pfx_length : pfx.length ≤ 63
  pfx_ascii : ∀ c ∈ pfx, c ≠ 0 ∧ c.toNat < 128

abbrev NodeTel := Trie UInt8 Payload

/-- `TELNUMfilter`. -/
structure Filter where
  firstNode : NodeTel := .empty
  count : Nat := 0

def addPayload (t : NodeTel) (x : Payload) : NodeTel := t.insert x x.pfx

/-- `load`: every row counts and is added. -/
def load (rules : List Payload) : Filter where
  firstNode := rules.foldl addPayload .empty
  count := rules.length

/-- The characters of a number as the loop reads them, with the value of `i + 1` at each. An escape
`%23` is read as `#`. -/
def numberChars (i : Nat) : Bytes → List (UInt8 × Nat)
  | 37 :: 50 :: 51 :: rest => (35, i + 3) :: numberChars (i + 3) rest
  | c :: rest => (c, i + 1) :: numberChars (i + 1) rest
  | [] => []

/-- `found_length` with the payload of `found_flags` and `found_nat_aliases`. -/
structure Found where
  length : Nat := 0
  payload : Option Payload := none

/-- The test at a node that was reached. -/
def Found.visit (srcDst : Int) (pos : Nat) (payload : Option Payload) (f : Found) : Found :=
  match payload with
  | some p =>
    if (p.direction = 0 ∨ p.direction = srcDst) ∧ pos > f.length then ⟨pos, some p⟩ else f
  | none => f

/-- The loop over the characters of one number. -/
def follow (srcDst : Int) : List (UInt8 × Nat) → NodeTel → Found → Found
  | [], _, f => f
  | (checkChar, pos) :: rest, t, f =>
    match t.children checkChar with
    | none => f
    | some next => follow srcDst rest next (f.visit srcDst pos next.value)

/-- The loop over `src_dst`. -/
def find (t : NodeTel) (telnumSrc telnumDst : Bytes) : Found :=
  follow 2 (numberChars 0 telnumDst) t (follow 1 (numberChars 0 telnumSrc) t {})

def addCallFlags (filter : Filter) (flags : CallFlags) (natAliases : Option NatAliases)
    (telnumSrc telnumDst : Bytes) (reconfigure : Bool) : FilterResult :=
  if filter.count = 0 then { found := false, flags, natAliases }
  else
    match (find filter.firstNode telnumSrc telnumDst).payload with
    | some p =>
      { found := true
        flags := setCallFlagsFromFilterFlags flags p.flags reconfigure
        natAliases := combNatAliases p.natAliases natAliases }
    | none => { found := false, flags, natAliases }

end VoipMonitor.TelnumFilter
