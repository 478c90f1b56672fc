import VoipMonitor.Library.Text
import VoipMonitor.Model.BlockStore

/-!
# SIP messages in a TCP stream (`TcpReassemblySip`, `sniff_proc_class.h`)

`_checkSip` cuts a buffer into SIP messages. Each message must begin as one (`check_sip20`), and
its length is that of the header and of the body announced there.
-/

namespace VoipMonitor.Sip
open VoipMonitor.Library

def crChar : UInt8 := 13

def lfChar : UInt8 := 10

/-- `eCheckDataSizeType`. -/
inductive CheckDataSize where
  | na | strict | geLimit | geUnlimited

def isMask (header : Bytes) : Bool := byteAt header 1 / 128 = 1

def payloadLen (header : Bytes) : Nat := byteAt header 1 % 128

def extendedLengthSize (header : Bytes) : Nat :=
  if payloadLen header = 126 then 2 else if payloadLen header = 127 then 8 else 0

/-- Of a length in eight bytes the first four are taken. -/
def getDataLength (header : Bytes) : Nat :=
  if payloadLen header = 126 then be16 header 2
  else if payloadLen header = 127 then be32 header 2
  else payloadLen header

def getHeaderLength (header : Bytes) : Nat :=
  2 + extendedLengthSize header + if isMask header then 4 else 0

def isDataSizeOk (header : Bytes) : CheckDataSize → Bool
  | .na => true
  | .strict => header.length = getHeaderLength header + getDataLength header
  | .geLimit => header.length ≥ getHeaderLength header + getDataLength header &&
      header.length ≤ getHeaderLength header + getDataLength header + 1
  | .geUnlimited => header.length ≥ getHeaderLength header + getDataLength header

def checkWebsocket (data : Bytes) (type : CheckDataSize) : Bool :=
  data.head? = some 0x81 && data.length ≥ 2 && data.length ≥ getHeaderLength data &&
    isDataSizeOk data type

def xorData (data key : Bytes) : Bytes :=
  data.mapIdx (fun i c => c ^^^ key.getD (i % key.length) 0)

/-- `decodeData`; a length of 0 stands for that of the header. -/
def decodeData (data : Bytes) (dataLength : Nat) : Option Bytes :=
  let headerLength := getHeaderLength data
  if isMask data then
    if dataLength ≠ 0 ∧ dataLength ≤ headerLength then none
    else
      let n := if dataLength ≠ 0 then min (dataLength - headerLength) (getDataLength data)
        else getDataLength data
      if 0 < n ∧ n ≤ 0xFFFF then
        some (xorData (slice data headerLength n) (slice data (headerLength - 4) 4))
      else none
  else some (data.drop headerLength)

/-- The methods with their numbers. -/
def sipMethods : List (String × Nat) :=
  [("INVITE", 1), ("INFO", 6), ("MESSAGE", 5), ("REGISTER", 4), ("REFER", 13), ("BYE", 2),
    ("CANCEL", 3), ("OPTIONS", 8), ("SUBSCRIBE", 7), ("NOTIFY", 9), ("ACK", 10), ("PRACK", 11),
    ("PUBLISH", 12), ("UPDATE", 14)]

def isMethod (data : Bytes) (checkEndSpace : Bool) (name : String) : Bool :=
  (ascii name ++ if checkEndSpace then [32] else []).isPrefixOf data

def parseSipResponse (data : Bytes) : Nat :=
  if data.length ≥ 9 ∧ (ascii "SIP/2.0 ").isPrefixOf data then
    match (data.getD 8 0).toNat with
    | 49 =>
      if data.length ≥ 10 then
        if data.getD 9 0 = 48 then 100
        else if data.getD 9 0 = 56 then
          if data.length ≥ 11 ∧ data.getD 10 0 = 50 then 182 else 180
        else 100
      else 100
    | 50 => if (ascii "SIP/2.0 200 Auth failed").isPrefixOf data then 400 else 200
    | 51 => if data.length ≥ 11 ∧ data.getD 9 0 = 48 ∧ data.getD 10 0 = 48 then 300 else 399
    | 52 =>
      if data.length ≥ 11 ∧ data.getD 9 0 = 48 then
        match (data.getD 10 0).toNat with
        | 49 => 401
        | 51 => 403
        | 52 => 404
        | _ => 400
      else 400
    | 53 => 500
    | 54 => 600
    | _ => 0
  else 0

def parseSipMethod (data : Bytes) (checkEndSpace : Bool) : Nat :=
  match sipMethods.find? (fun m => isMethod data checkEndSpace m.1) with
  | some m => m.2
  | none => parseSipResponse data

/-- The line ends before a message are passed over as long as a message may follow. -/
def skipLineEnds : Bytes → Bytes
  | c :: d :: rest =>
    if rest.length + 2 ≥ 13 then
      if c = crChar ∧ d = lfChar then skipLineEnds rest
      else if c = lfChar then skipLineEnds (d :: rest)
      else c :: d :: rest
    else c :: d :: rest
  | data => data

/-- `check_sip20` without parsed contents. A websocket frame is checked by its data; the first
argument bounds the frames in one another. -/
def checkSip20Frames : Nat → Bool → Bytes → Bool
  | 0, _, _ => false
  | fuel + 1, isTcp, data =>
    if checkWebsocket data (if isTcp then .na else .geLimit) then
      if data.length > getHeaderLength data then
        match decodeData data data.length with
        | none => false
        | some wsData =>
          checkSip20Frames fuel isTcp (wsData.take
            (if isTcp then min (data.length - getHeaderLength data) (getDataLength data)
              else getDataLength data))
      else false
    else
      let data := if isTcp then skipLineEnds data else data
      if data.length < 11 then false else parseSipMethod data true > 0

def checkSip20 (data : Bytes) (isTcp : Bool) : Bool :=
  checkSip20Frames (data.length + 1) isTcp data

/-- `eCheckSipStrictMode`. -/
structure StrictMode where
  strict : Bool := false
  ext : Bool := false
  contentLength : Bool := false

def findHeaderEnd (data : Bytes) : Option (Nat × Nat) :=
  match memmem (data.take 5000) [crChar, lfChar, crChar, lfChar] with
  | some pos => some (pos, 4)
  | none => (memmem (data.take 5000) [lfChar, lfChar]).map (fun pos => (pos, 2))

def lengthBehind (header name : Bytes) : Option Nat :=
  (strcasestr header name).map (fun pos =>
    (atol (((cString header).drop (pos + name.length)).dropWhile (fun c => c = 32)) %
      2 ^ 32).toNat)

def findContentLength (header : Bytes) : Option Nat :=
  match lengthBehind header (lfChar :: ascii "Content-Length:") with
  | some n => some n
  | none => lengthBehind header (lfChar :: ascii "l:")

/-- `strncasestr`, which does not end at a null byte of the text. -/
def strncasestr (hay needle : Bytes) : Option Nat := memmem (lower hay) (lower needle)

/-- `_checkSipExt`: there is at most one call id. -/
def checkSipExt (data : Bytes) : Bool :=
  match strncasestr data (lfChar :: ascii "Call-ID:") with
  | none => true
  | some pos => (strncasestr (data.drop (pos + 1)) (lfChar :: ascii "Call-ID:")).isNone

/-- What `_checkSip` returns: the number of messages, their offsets and lengths, and
`data_len_used`. -/
structure SipCheck where
  count : Nat
  offsets : List (Nat × Nat)
  dataLenUsed : Nat
deriving DecidableEq, Repr

def endsWith (data : Bytes) (sipDataLen : Nat) : Bool :=
  (data.drop sipDataLen).all (fun c => c = lfChar || c = crChar)

/-- The loop of `_checkSip` over the rest `data` of the buffer; the first argument bounds the
rounds. -/
def checkSipLoop (mode : StrictMode) (dataLenOrig : Nat) :
    Nat → Bytes → Nat → Nat → List (Nat × Nat) → SipCheck
  | 0, _, _, _, offsets => ⟨0, offsets, 0⟩
  | fuel + 1, data, offset, countOk, offsets =>
    let broken : SipCheck :=
      ⟨if mode.strict then 0 else countOk, offsets, if mode.strict then 0 else offset⟩
    if data = [] then broken
    else
      match findHeaderEnd data with
      | none => broken
      | some (pos, size) =>
        let contentLength := findContentLength (data.take pos)
        if mode.contentLength ∧ contentLength.isNone then ⟨0, offsets, 0⟩
        else
          let sipDataLen := BlockStore.toInt32 (pos + size + contentLength.getD 0)
          let offsets' := offsets ++ [(offset, sipDataLen.toNat)]
          if sipDataLen = data.length then
            if mode.ext ∧ ¬checkSipExt data then ⟨0, offsets, 0⟩
            else ⟨countOk + 1, offsets', dataLenOrig⟩
          else if 0 < sipDataLen ∧ sipDataLen < data.length then
            let n := sipDataLen.toNat
            if mode.strict ∧ endsWith data n ∧ (¬mode.ext ∨ checkSipExt (data.take n)) then
              ⟨countOk + 1, offsets', dataLenOrig⟩
            else if checkSip20 (data.drop n) true then
              checkSipLoop mode dataLenOrig fuel (data.drop n) (offset + n) (countOk + 1) offsets'
            else
              ⟨if mode.strict then 0 else countOk + 1, offsets',
                if mode.strict then 0 else offset + n⟩
          else broken

def checkSipData (data : Bytes) (mode : StrictMode) : SipCheck :=
  checkSipLoop mode data.length (data.length + 1) data 0 0 []

/-- `checkSip`: a websocket frame is checked by its data, and the offsets are moved behind the
header of the frame, the first one by its end only. -/
def checkSipFrames : Nat → Bytes → StrictMode → SipCheck
  | 0, _, _ => ⟨0, [], 0⟩
  | fuel + 1, data, mode =>
    if checkWebsocket data .geLimit then
      match decodeData data 0 with
      | none => ⟨0, [], 0⟩
      | some wsData =>
        let r := checkSipFrames fuel (wsData.take (getDataLength data)) mode
        let headerLength := getHeaderLength data
        ⟨r.count, if r.count ≠ 0 then
            r.offsets.mapIdx (fun i o =>
              (if i > 0 then o.1 + headerLength else o.1, o.2 + headerLength))
          else r.offsets, 0⟩
    else if data.length < 10 ∨ ¬checkSip20 data true then ⟨0, [], 0⟩
    else checkSipData data mode

def checkSip (data : Bytes) (mode : StrictMode) : SipCheck :=
  checkSipFrames (data.length + 1) data mode

end VoipMonitor.Sip
