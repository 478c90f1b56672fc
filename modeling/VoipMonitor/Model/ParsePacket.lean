import VoipMonitor.Library.Loops
import VoipMonitor.Library.Text

/-!
# The dictionary of SIP headers (`ParsePacket`, `tools.cpp`)

The names of the headers that are parsed are kept in lists and in a tree of characters. A reload
of the configuration adds the standard names once more, prepares the custom names and then
replaces the old custom names by the prepared ones. A slot of a name that was removed stays in
the list, and it is used again.
-/

namespace VoipMonitor.ParsePacket
open VoipMonitor.Library

/-- `eTypeNode`, without the type of the other tree. -/
inductive TypeNode where
  | std | custom
deriving DecidableEq, Repr

/-- What a leaf says about its name. -/
structure Leaf where
  typeNode : TypeNode
  nodeIndex : Nat
  isContentLength : Bool

/-- `ppNode`; `leaf` is set at the end of a name. -/
inductive PpNode where
  | mk (leaf : Option Leaf) (nodes : UInt8 → Option PpNode)

namespace PpNode

def leaf : PpNode → Option Leaf
  | mk leaf _ => leaf

def nodes : PpNode → UInt8 → Option PpNode
  | mk _ nodes => nodes

def initNode : PpNode := mk none (fun _ => none)

def setNode (n : PpNode) (c : UInt8) (m : PpNode) : PpNode :=
  mk n.leaf (fun d => if d = c then some m else n.nodes d)

/-- Line feeds in the name are passed over. -/
def addNode : Bytes → Leaf → PpNode → PpNode
  | [], l, n => mk (some l) n.nodes
  | c :: name, l, n =>
    if c = 10 then addNode name l n
    else n.setNode (toLower c) (addNode name l ((n.nodes (toLower c)).getD initNode))

def removeNode : Bytes → PpNode → PpNode
  | [], _ => initNode
  | c :: name, n =>
    if c = 10 then removeNode name n
    else
      match n.nodes (toLower c) with
      | none => n
      | some m => n.setNode (toLower c) (removeNode name m)

/-- `getContent` without contents: the leaf and the length of the name. -/
def getContent : Bytes → Nat → Nat → PpNode → Option (Leaf × Nat)
  | data, namelength, limit, n =>
    match n.leaf with
    | some l => some (l, namelength)
    | none =>
      match data with
      | [] => none
      | c :: data =>
        if c = 0 then none
        else
          match n.nodes (toLower c) with
          | none => none
          | some m =>
            if namelength + 1 > limit then none else getContent data (namelength + 1) limit m

end PpNode

/-- `ParsePacket_std_max` and `ParsePacket_custom_max`. -/
def stdMax : Nat := 100

def customMax : Nat := 100

/-- The lists of names are in upper case, the tree is in lower case. -/
structure Dictionary where
  root : PpNode
  nodesStd : List Bytes
  nodesCustom : List Bytes
  nodesCustomPrepare : List Bytes

def empty : Dictionary := ⟨.initNode, [], [], []⟩

def listName (nodeName : Bytes) : Bytes :=
  upper (if nodeName.head? = some 10 then nodeName.tail else nodeName)

def addNode (nodeName : Bytes) (isContentLength : Bool) (p : Dictionary) : Dictionary :=
  let name := listName nodeName
  if name ∉ p.nodesStd ∧ name ∉ p.nodesCustom ∧ p.nodesStd.length < stdMax then
    { p with
      nodesStd := p.nodesStd ++ [name]
      root := p.root.addNode nodeName ⟨.std, p.nodesStd.length, isContentLength⟩ }
  else p

def addCustomNode (nodeName : Bytes) (p : Dictionary) : Dictionary :=
  let name := listName nodeName
  if name ∉ p.nodesStd ∧ name ∉ p.nodesCustom ∧
      p.nodesCustom.countP (fun n => n ≠ []) < customMax then
    match p.nodesCustom.findIdx? (fun n => n = []) with
    | some i =>
      { p with
        nodesCustom := p.nodesCustom.set i name
        root := p.root.addNode nodeName ⟨.custom, i, false⟩ }
    | none =>
      { p with
        nodesCustom := p.nodesCustom ++ [name]
        root := p.root.addNode nodeName ⟨.custom, p.nodesCustom.length, false⟩ }
  else p

def prepareCustomNode (nodeName : Bytes) (p : Dictionary) : Dictionary :=
  let name := listName nodeName
  if name ∉ p.nodesCustomPrepare then
    { p with nodesCustomPrepare := p.nodesCustomPrepare ++ [name] }
  else p

def removeCustomNode (nodeName : Bytes) (p : Dictionary) : Dictionary :=
  let name := listName nodeName
  match p.nodesCustom.findIdx? (fun n => n = name) with
  | none => p
  | some i =>
    { p with root := p.root.removeNode name, nodesCustom := p.nodesCustom.set i [] }

/-- The entries of `nodesCustom` that are not prepared, empty slots among them. -/
def removeNodes (p : Dictionary) : List Bytes :=
  p.nodesCustom.filter (fun n => n ∉ p.nodesCustomPrepare)

def applyCustomNodes (p : Dictionary) : Dictionary :=
  let p := (removeNodes p).foldl (fun p n => removeCustomNode n p) p
  let p := p.nodesCustomPrepare.foldl
    (fun p n => if n ∉ p.nodesCustom then addCustomNode n p else p) p
  { p with nodesCustomPrepare := [] }

def getNode (data : Bytes) (datalength : Nat) (p : Dictionary) : Option (Leaf × Nat) :=
  p.root.getContent data 0 datalength

/-! ## The standard names -/

/-- The options that `setStdParse` reads. -/
structure Options where
  passertedidentity : Bool
  ppreferredidentity : Bool
  cdrReason : Bool
  callIdAlternative : List Bytes
  fbasenameHeader : Bytes
  matchHeader : Bytes
  callidmergeHeader : Bytes
  energylevelheader : Bytes
  silenceheader : Bytes
  kamailio : Bool
  ribbonsbc : Bool
  conferenceProcessing : Bool

def findHeader (option : Bytes) : List Bytes :=
  if option = [] then []
  else if option.getLast? = some 58 then [option] else [option ++ [58]]

def when (b : Bool) (names : List String) : List Bytes := if b then names.map ascii else []

/-- The names that are added before the custom headers are prepared, without the two of the
content length. -/
def stdNames (o : Options) : List Bytes :=
  ["INVITE ", "MESSAGE ", "call-id:", "i:", "from:", "f:", "to:", "t:", "contact:", "m:",
    "remote-party-id:"].map ascii ++
  when o.passertedidentity ["P-Asserted-Identity:"] ++
  when o.ppreferredidentity ["P-Preferred-Identity:"] ++
  ["geoposition:", "user-agent:", "authorization:", "proxy-authorization:", "expires:",
    "x-voipmonitor-norecord:", "signal:", "signal=", "x-voipmonitor-custom1:", "content-type:",
    "c:", "cseq:", "supported:", "proxy-authenticate:", "via:", "v:"].map ascii ++
  when o.cdrReason ["reason:"] ++
  ["m=audio ", "a=rtpmap:", "o=", "c=IN IP4 ", "expires=", "username=\"", "realm=\"",
    "CallID:", "LocalAddr:", "RemoteAddr:", "QualityEst:", "PacketLoss:"].map ascii ++
  o.callIdAlternative ++ findHeader o.fbasenameHeader ++ findHeader o.matchHeader ++
  findHeader o.callidmergeHeader ++ findHeader o.energylevelheader ++ findHeader o.silenceheader

def addNodes (names : List Bytes) (p : Dictionary) : Dictionary :=
  names.foldl (fun p n => addNode n false p) p

def prepareCustomNodes (names : List Bytes) (p : Dictionary) : Dictionary :=
  names.foldl (fun p n => prepareCustomNode n p) p

/-- `setStdParse` with the names of the custom headers and of the header filter. -/
def setStdParse (o : Options) (customHeaders headerFilter : List Bytes) (p : Dictionary) :
    Dictionary :=
  let p := addNode (ascii "content-length:") true p
  let p := addNode (ascii "l:") true p
  let p := addNodes (stdNames o) p
  let p := prepareCustomNodes customHeaders p
  let p := addNodes (when o.kamailio
    ["X-Siptrace-Fromip:", "X-Siptrace-Toip:", "X-Siptrace-Time:"]) p
  let p := addNodes (when o.ribbonsbc ["srcIP:", "dstIP:"]) p
  let p := prepareCustomNodes headerFilter p
  let p := addNodes (when o.conferenceProcessing
    ["event:", "subscription-state:", "referred-by:"]) p
  applyCustomNodes p

/-!
## The headers of a packet (`ParsePacket::parseData`, `tools.cpp`, `tools.h`)

One pass over a packet finds the names of the dictionary at the begins of lines, their values, the
double line end behind the header and the end of the message. An index goes over the packet; the
end of the packet is moved to the end of the message when the double line end is found.
-/

/-- `ppContentItemX`. -/
structure PpContentItem where
  offset : Nat
  length : Nat

namespace PpContentItem

/-- The first loop of `trim`: the length without the spaces at the end. -/
def trimEnd (data : Bytes) (offset : Nat) : Nat → Nat
  | 0 => 0
  | length + 1 => if byteAt data (offset + length) = 32 then trimEnd data offset length else length + 1

/-- The second loop of `trim`. -/
def trimBegin (data : Bytes) : Nat → Nat → PpContentItem
  | offset, 0 => ⟨offset, 0⟩
  | offset, length + 1 =>
    if byteAt data offset = 32 then trimBegin data (offset + 1) length else ⟨offset, length + 1⟩

def trim (data : Bytes) (item : PpContentItem) : PpContentItem :=
  trimBegin data item.offset (trimEnd data item.offset item.length)

end PpContentItem

/-- `ppContentsX`; `doubleEndLine` is a position in the data. -/
structure PpContents where
  std : Nat → PpContentItem
  custom : Nat → PpContentItem
  doubleEndLine : Option Nat
  doubleEndLineSize : Nat
  contentLength : Int
  parseDataPtr : Bytes
  sip : Bool

namespace PpContents

def clean : PpContents :=
  { std := fun _ => ⟨0, 0⟩
    custom := fun _ => ⟨0, 0⟩
    doubleEndLine := none
    doubleEndLineSize := 0
    contentLength := -1
    parseDataPtr := []
    sip := false }

/-- `getPointerToItem`. -/
def item (contents : PpContents) (node : Leaf) : PpContentItem :=
  match node.typeNode with
  | .std => contents.std node.nodeIndex
  | .custom => contents.custom node.nodeIndex

def setItem (contents : PpContents) (node : Leaf) (item : PpContentItem) : PpContents :=
  match node.typeNode with
  | .std => { contents with std := Function.update contents.std node.nodeIndex item }
  | .custom => { contents with custom := Function.update contents.custom node.nodeIndex item }

def isSetNode (contents : PpContents) (node : Leaf) : Bool := (contents.item node).length ≠ 0

/-- `getContentData`: the value of a name. -/
def getContentData (p : Dictionary) (contents : PpContents) (nodeName : Bytes) : Option Bytes :=
  let nodeName := nodeName.dropWhile (fun c => c = 10)
  match getNode nodeName nodeName.length p with
  | some (node, _) =>
    let item := contents.item node
    if item.length ≠ 0 then some (slice contents.parseDataPtr item.offset item.length) else none
  | none => none

end PpContents

/-! ## SIP contents -/

def nodesCheckSip : List Bytes :=
  ["SIP/2.0", "INVITE", "ACK", "BYE", "CANCEL", "OPTIONS", "REGISTER", "PRACK", "SUBSCRIBE",
    "NOTIFY", "PUBLISH", "INFO", "REFER", "MESSAGE", "UPDATE"].map ascii

/-- `rootCheckSip`. Nothing is read from its leaves. -/
def rootCheckSip : PpNode :=
  nodesCheckSip.foldl (fun root name => root.addNode name ⟨.std, 0, false⟩) .initNode

def isSipContent (data : Bytes) (datalength : Nat) : Bool :=
  (rootCheckSip.getContent data 0 datalength).isSome

/-! ## The pass -/

/-- `atoi`, which is `strtol` cut to 32 bits. -/
def atoi (b : Bytes) : Int := (atol b).bmod (2 ^ 32)

/-- The variables of the pass. -/
structure ParseState where
  i : Nat
  datalen : Nat
  rsltDataLen : Nat
  contents : PpContents

/-- The test for a double line end at `i`. -/
def isDoubleEnd (data : Bytes) (datalen i : Nat) : Bool :=
  3 < datalen &&
    ((byteAt data i = 13 && i < datalen - 3 && byteAt data (i + 1) = 10 &&
        byteAt data (i + 2) = 13 && byteAt data (i + 3) = 10) ||
      (byteAt data i = 10 && i < datalen - 1 && byteAt data (i + 1) = 10))

def isLineBegin (data : Bytes) (i : Nat) : Bool :=
  i = 0 || byteAt data (i - 1) = 10 || (byteAt data (i - 1) = 13 && byteAt data i ≠ 10)

/-- The inner loop: the first line end from `i` on, or the end of the data. -/
def lineStop (data : Bytes) (datalen i : Nat) : Nat :=
  i + ((slice data i (datalen - i)).takeWhile (fun c => c ≠ 13 && c ≠ 10)).length

def readLength (data : Bytes) (datalen : Nat) (item : PpContentItem) : Int :=
  if add32 item.offset item.length = datalen then
    atoi (slice data item.offset (min 9 item.length))
  else atoi (data.drop item.offset)

/-- A double line end was found at `s.i`: the pass goes on in the body when there is a length. -/
def endHeader (data : Bytes) (s : ParseState) : Outcome ParseState (Nat × PpContents) :=
  let size := if byteAt data s.i = 13 then 4 else 2
  let contents := { s.contents with doubleEndLine := some s.i, doubleEndLineSize := size }
  if contents.contentLength > -1 then
    let modifyDatalen := s.i + size + contents.contentLength.toNat
    if modifyDatalen < s.datalen then .next ⟨s.i + 3, modifyDatalen, modifyDatalen, contents⟩
    else .next ⟨s.i + 3, s.datalen, s.rsltDataLen, contents⟩
  else .done (s.i + size, contents)

/-- A name was found at `s.i`: its value is read up to the line end. -/
def readHeader (data : Bytes) (s : ParseState) (node : Leaf) (namelength : Nat) : ParseState :=
  let offset := (s.i + namelength) % 2 ^ 32
  let i := lineStop data s.datalen (s.i + namelength)
  let next := if i < s.datalen then i else i + 1
  if i ≤ s.datalen then
    let item := PpContentItem.trim data ⟨offset, sub32 i offset⟩
    let contents := s.contents.setItem node item
    let contents :=
      if node.isContentLength ∧ item.length ≠ 0 then
        { contents with contentLength := readLength data s.datalen item }
      else contents
    { s with i := next, contents := contents }
  else
    { s with
      i := next
      contents := s.contents.setItem node ⟨offset, (s.contents.item node).length⟩ }

def parseRound (p : Dictionary) (data : Bytes) (s : ParseState) :
    Outcome ParseState (Nat × PpContents) :=
  if s.i < s.datalen then
    if s.contents.doubleEndLine = none ∧ isDoubleEnd data s.datalen s.i then endHeader data s
    else if isLineBegin data s.i then
      match getNode (data.drop s.i) ((s.datalen - s.i - 1) % 2 ^ 32) p with
      | some (node, namelength) =>
        if s.contents.isSetNode node then .next { s with i := s.i + 1 }
        else .next (readHeader data s node namelength)
      | none => .next { s with i := s.i + 1 }
    else .next { s with i := s.i + 1 }
  else .done (s.rsltDataLen, s.contents)

/-- `parseData`: the length of the message and the contents. -/
def parseData (p : Dictionary) (fuel : Nat) (data : Bytes) (contents : PpContents) :
    Option (Nat × PpContents) :=
  let contents :=
    { contents with sip := if data.length ≠ 0 then isSipContent data (data.length - 1) else false }
  (runLoop (parseRound p data) fuel ⟨0, data.length, data.length, contents⟩).map
    (fun r => (r.1 % 2 ^ 32, { r.2 with parseDataPtr := data }))

end VoipMonitor.ParsePacket
