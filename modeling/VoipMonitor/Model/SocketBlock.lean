import VoipMonitor.Library.Text

/-!
# Blocks on a socket (`cSocketBlock`, `cloud_router/cloud_router_base.cpp`)

A block is a header of 40 bytes (a text, the length of the encoded data and the sum of the plain
data) and the data, which may be encoded by a xor key, by rsa or by aes. The reader asks `recv`
for the rest of the header and then for the rest of the data, in reads of at most 10 KiB. The
ciphers are OpenSSL's and are parameters here.
-/

namespace VoipMonitor.SocketBlock
open VoipMonitor.Library

inductive TypeEncode where
  | na
  | xor
  | rsa
  | aes
deriving DecidableEq, Repr

/-! ### The ciphers -/

/-- One direction of an EVP cipher under one key. What a context answers is determined by the
data that it was given before. -/
structure Evp where
  /-- `EVP_EncryptInit` or `EVP_DecryptInit` -/
  init : Bool
  /-- `EVP_EncryptUpdate` or `EVP_DecryptUpdate` with the data given before and the new data -/
  update : Bytes → Bytes → Option Bytes
  /-- `EVP_EncryptFinal` or `EVP_DecryptFinal` -/
  final : Bytes → Option Bytes

/-- The sum of the two lengths as the `int` that the code adds. One past `INT_MAX` is a length
for which the caller cannot allocate a buffer. -/
def joinParts (part1 part2 : Bytes) : Option Bytes :=
  if part1.length + part2.length < 2 ^ 31 then some (part1 ++ part2) else none

/-- The functions `cAes::encrypt` and `cAes::decrypt`, which differ in the EVP functions only.
`ctx` is the data given to the context, if there is one. -/
def Evp.crypt (evp : Evp) (ctx : Option Bytes) (data : Bytes) (final : Bool) :
    Option Bytes × Option Bytes :=
  if ctx = none ∧ evp.init = false then (none, none)
  else
    let before := ctx.getD []
    match if data = [] then some [] else evp.update before data with
    | none => (none, none)
    | some part1 =>
      if final then
        match evp.final (before ++ data) with
        | none => (none, none)
        | some part2 => (joinParts part1 part2, none)
      else
        (joinParts part1 [], some (before ++ data))

/-- The result of `RSA_public_encrypt` or `RSA_private_decrypt` (`none` for -1) as `cRsa` takes
it: the length is an `int`, and one that is not positive is a failure. -/
def rsaResult : Option Bytes → Option Bytes
  | none => none
  | some data => if 0 < data.length ∧ data.length < 2 ^ 31 then some data else none

/-- The function `xorData` with `initPos` 0. -/
def xorData (key data : Bytes) : Bytes :=
  data.mapIdx fun i c => c ^^^ key.getD (i % key.length) 0

/-! ### The two ends -/

/-- The writing socket. The padding of rsa is random, `ρ` is what it is drawn from; `pubKey` is
`none` where `isSetPubKey` is false. -/
structure Writer (ρ : Type) where
  blockHeaderString : Option Bytes := none
  pubKey : Option (ρ → Bytes → Option Bytes) := none
  aes : Evp

/-- The reading socket. `privKey` is `none` where `isSetPrivKey` is false. -/
structure Reader where
  blockHeaderString : Option Bytes := none
  privKey : Option (Bytes → Option Bytes) := none
  aes : Evp

/-! ### The header -/

def headerSize : Nat := 40

def getHeaderString (headerString : Option Bytes) : Bytes :=
  headerString.getD (ascii "vm_cloud_router_block_header")

/-- `strncpy` into the 30 bytes of `header`. -/
def headerText (headerString : Option Bytes) : Bytes :=
  let text := (getHeaderString headerString).take 30
  text ++ List.replicate (30 - text.length) 0

/-- An `sBlockHeader` in memory: the text, two bytes of padding, `length` and `sum`. -/
def sBlockHeader (headerString : Option Bytes) (length sum : Nat) : Bytes :=
  headerText headerString ++ [0, 0] ++ (encodeLe 4 length ++ encodeLe 4 sum)

/-- The function `okBlockHeader`. -/
def okBlockHeader (headerString : Option Bytes) (buffer : Bytes) : Bool :=
  let n := min 30 (getHeaderString headerString).length
  decide (headerSize ≤ buffer.length) && slice buffer 0 n == (getHeaderString headerString).take n

/-- The function `lengthBlockHeader`, which is a `u_int32_t`. -/
def lengthBlockHeader (buffer : Bytes) (addHeaderSize : Bool) : Nat :=
  if headerSize ≤ buffer.length then
    (leNat (slice buffer 32 4) + if addHeaderSize then headerSize else 0) % 2 ^ 32
  else 0

/-- The function `sumBlockHeader`. -/
def sumBlockHeader (buffer : Bytes) : Nat :=
  if headerSize ≤ buffer.length then leNat (slice buffer 36 4) else 0

def dataSum (data : Bytes) : Nat := data.foldl (fun sum c => (sum + c.toNat) % 2 ^ 32) 0

/-! ### Writing -/

/-- One call of `writeBlock`: the data, the encoding and what the padding is drawn from. -/
structure Block (ρ : Type) where
  data : Bytes
  typeEncode : TypeEncode
  xorKey : Bytes
  seed : ρ

variable {ρ : Type}

def Block.encoding (b : Block ρ) : TypeEncode × Bytes := (b.typeEncode, b.xorKey)

def encodeData (w : Writer ρ) (ctx : Option Bytes) (b : Block ρ) : Option Bytes × Option Bytes :=
  match b.typeEncode with
  | .na => (some b.data, ctx)
  | .xor => (some (if b.xorKey = [] then b.data else xorData b.xorKey b.data), ctx)
  | .rsa =>
    match w.pubKey with
    | none => (some b.data, ctx)
    | some encrypt => (rsaResult (encrypt b.seed b.data), ctx)
  | .aes => w.aes.crypt ctx b.data true

/-- The function `writeBlock`: the bytes given to `write`, which sends all of them; nothing where
a cipher fails. -/
def writeBlock (w : Writer ρ) (ctx : Option Bytes) (b : Block ρ) : Option Bytes × Option Bytes :=
  match encodeData w ctx b with
  | (none, ctx') => (none, ctx')
  | (some data, ctx') =>
    (some (sBlockHeader w.blockHeaderString data.length (dataSum b.data) ++ data), ctx')

/-- The blocks as they are sent, where every call of `writeBlock` succeeds. -/
def writeBlocks (w : Writer ρ) : Option Bytes → List (Block ρ) → Option (List Bytes)
  | _, [] => some []
  | ctx, b :: blocks =>
    match writeBlock w ctx b with
    | (none, _) => none
    | (some sent, ctx') => (writeBlocks w ctx' blocks).map (sent :: ·)

/-! ### Reading -/

/-- A connection as the reader sees it: the bytes that are still to come, how many bytes each of
the following reads finds (none where `poll` times out), and the context of `aes`. -/
structure Conn where
  stream : Bytes
  deliveries : List Nat
  ctx : Option Bytes := none
deriving DecidableEq, Repr

structure ReadState where
  buffer : Bytes := []
  blockHeaderOK : Bool := false
  readLength : Nat := headerSize

def maxReadLength : Nat := 10 * 1024

def nextReadLength (blockHeaderOK : Bool) (buffer : Bytes) : Nat :=
  if blockHeaderOK then min maxReadLength (lengthBlockHeader buffer true - buffer.length)
  else min maxReadLength (headerSize - buffer.length)

def replaceData (buffer data : Bytes) : Bytes :=
  overwrite (buffer.take headerSize) 32 (encodeLe 4 data.length) ++ data

def blockData (buffer : Bytes) : Bytes := slice buffer headerSize (lengthBlockHeader buffer false)

/-- What `readBlock` does with the whole block before the sum is checked. -/
def decodeBuffer (r : Reader) (typeEncode : TypeEncode) (xorKey : Bytes) (ctx : Option Bytes)
    (buffer : Bytes) : Option Bytes × Option Bytes :=
  match typeEncode with
  | .na => (some buffer, ctx)
  | .xor =>
    (some (if xorKey = [] then buffer
      else overwrite buffer headerSize (xorData xorKey (blockData buffer))), ctx)
  | .rsa =>
    match r.privKey with
    | none => (some buffer, ctx)
    | some decrypt => ((rsaResult (decrypt (blockData buffer))).map (replaceData buffer), ctx)
  | .aes =>
    let (data, ctx') := r.aes.crypt ctx (blockData buffer) true
    (data.map (replaceData buffer), ctx')

def checkSumReadBuffer (buffer : Bytes) : Bool :=
  sumBlockHeader buffer == dataSum (buffer.drop headerSize)

/-- What `readBlock` returns for the whole block, `none` for `NULL`. -/
def finishBlock (r : Reader) (typeEncode : TypeEncode) (xorKey : Bytes) (ctx : Option Bytes)
    (buffer : Bytes) : Option Bytes × Option Bytes :=
  match decodeBuffer r typeEncode xorKey ctx buffer with
  | (none, ctx') => (none, ctx')
  | (some buffer', ctx') =>
    (if checkSumReadBuffer buffer' then some (blockData buffer') else none, ctx')

/-- The loop of `readBlock` without its time-out, one read a turn. It is still waiting (`none`)
when the deliveries are used up. -/
def readLoop (r : Reader) (typeEncode : TypeEncode) (xorKey : Bytes) (ctx : Option Bytes) :
    List Nat → Bytes → ReadState → Option (Option Bytes × Conn)
  | [], _, _ => none
  | d :: deliveries, stream, s =>
    let n := min d s.readLength
    let received := stream.take n
    let rest := stream.drop n
    if received = [] then
      readLoop r typeEncode xorKey ctx deliveries rest
        { s with readLength := nextReadLength s.blockHeaderOK s.buffer }
    else
      let buffer := s.buffer ++ received
      if s.blockHeaderOK = false ∧ headerSize ≤ buffer.length ∧
          okBlockHeader r.blockHeaderString buffer = false then
        some (none, { stream := rest, deliveries := deliveries, ctx := ctx })
      else
        let ok := s.blockHeaderOK || decide (headerSize ≤ buffer.length)
        if ok = true ∧ lengthBlockHeader buffer true ≤ buffer.length then
          let (data, ctx') := finishBlock r typeEncode xorKey ctx buffer
          some (data, { stream := rest, deliveries := deliveries, ctx := ctx' })
        else
          readLoop r typeEncode xorKey ctx deliveries rest
            { buffer := buffer
              blockHeaderOK := ok
              readLength := nextReadLength ok buffer }

def readBlock (r : Reader) (typeEncode : TypeEncode) (xorKey : Bytes) (c : Conn) :
    Option (Option Bytes × Conn) :=
  readLoop r typeEncode xorKey c.ctx c.deliveries c.stream {}

/-- Successive calls of `readBlock`, each with its encoding and xor key. -/
def readBlocks (r : Reader) :
    List (TypeEncode × Bytes) → Conn → Option (List (Option Bytes) × Conn)
  | [], c => some ([], c)
  | (typeEncode, xorKey) :: calls, c =>
    match readBlock r typeEncode xorKey c with
    | none => none
    | some (data, c') => (readBlocks r calls c').map fun (rest, c'') => (data :: rest, c'')

/-! ### The buffer that `readBlock` leaves

The pointer that `readBlock` returns goes into the read buffer, behind the header. What a cipher is
given begins there too and is as long as the header says, with the memory behind the buffer if the
buffer is shorter. -/

/-- The loop of `readBlock` up to the decoding: the buffer, and whether its header is good. -/
def receiveLoop (headerString : Option Bytes) :
    List Nat → Bytes → ReadState → Option (Bytes × Bool)
  | [], _, _ => none
  | d :: deliveries, stream, s =>
    let n := min d s.readLength
    let received := stream.take n
    let rest := stream.drop n
    if received = [] then
      receiveLoop headerString deliveries rest
        { s with readLength := nextReadLength s.blockHeaderOK s.buffer }
    else
      let buffer := s.buffer ++ received
      if s.blockHeaderOK = false ∧ headerSize ≤ buffer.length ∧
          okBlockHeader headerString buffer = false then
        some (buffer, false)
      else
        let ok := s.blockHeaderOK || decide (headerSize ≤ buffer.length)
        if ok = true ∧ lengthBlockHeader buffer true ≤ buffer.length then some (buffer, true)
        else
          receiveLoop headerString deliveries rest
            { buffer := buffer
              blockHeaderOK := ok
              readLength := nextReadLength ok buffer }

/-- The read buffer after the decoding; `behind` is the memory behind the buffer. -/
def decodeMemory (r : Reader) (typeEncode : TypeEncode) (xorKey : Bytes) (ctx : Option Bytes)
    (buffer behind : Bytes) : Option Bytes :=
  let data := slice (buffer ++ behind) headerSize (lengthBlockHeader buffer false)
  match typeEncode with
  | .na => some buffer
  | .xor =>
    some (if xorKey = [] then buffer
      else (overwrite (buffer ++ behind) headerSize (xorData xorKey data)).take buffer.length)
  | .rsa =>
    match r.privKey with
    | none => some buffer
    | some decrypt => (rsaResult (decrypt data)).map (replaceData buffer)
  | .aes => (r.aes.crypt ctx data true).1.map (replaceData buffer)

/-- What is there when `readBlock` returns. -/
structure Returned where
  /-- the bytes that `read` has put into the buffer -/
  received : Bytes
  /-- the read buffer, which rsa and aes replace by a new one -/
  buffer : Bytes
  /-- `*dataLen`, if the pointer is not `NULL` -/
  dataLen : Option Nat
  /-- the end of the bytes that `xorData` goes over -/
  xorEnd : Nat
deriving DecidableEq, Repr

def xorEnd (typeEncode : TypeEncode) (xorKey buffer : Bytes) : Nat :=
  if typeEncode = .xor ∧ xorKey ≠ [] then headerSize + lengthBlockHeader buffer false else 0

/-- The end of `readBlock` for a whole block. -/
def finishMemory (r : Reader) (typeEncode : TypeEncode) (xorKey : Bytes) (ctx : Option Bytes)
    (behind buffer : Bytes) : Returned :=
  let touched := xorEnd typeEncode xorKey buffer
  match decodeMemory r typeEncode xorKey ctx buffer behind with
  | none => ⟨buffer, buffer, none, touched⟩
  | some buffer' =>
    ⟨buffer, buffer',
      if checkSumReadBuffer buffer' then some (lengthBlockHeader buffer' false) else none, touched⟩

/-- The function `readBlock` with the buffer that it leaves. -/
def readBlockMemory (r : Reader) (typeEncode : TypeEncode) (xorKey behind : Bytes) (c : Conn) :
    Option Returned :=
  (receiveLoop r.blockHeaderString c.deliveries c.stream {}).map fun (buffer, ok) =>
    if ok then finishMemory r typeEncode xorKey c.ctx behind buffer else ⟨buffer, buffer, none, 0⟩

/-! ### Lines -/

/-- `'\r'` or `'\n'`. -/
def isEndLine (c : UInt8) : Bool := c = 13 || c = 10

/-- The variable `endLinePos` after its loop, 0 where the read has no end of a line. -/
def endLinePos (buffer : Bytes) : Nat := (buffer.findIdx? isEndLine).getD 0

/-- The line, what `*remainder` is set to, and the reads that are still to come. -/
structure Line where
  line : Bytes
  remainder : Option Bytes
  unread : List (Option Bytes)
deriving DecidableEq, Repr

/-- The loop of `readLine`: a read finds some bytes, possibly none, or it fails. It is still waiting
when the reads are used up. -/
def readLineLoop : List (Option Bytes) → Bytes → Option Line
  | [], _ => none
  | none :: reads, line => some { line := line, remainder := none, unread := reads }
  | some buffer :: reads, line =>
    let pos := endLinePos buffer
    if pos ≠ 0 then
      let left := (buffer.drop pos).dropWhile isEndLine
      some {
        line := line ++ buffer.take pos
        remainder := if left = [] then none else some left
        unread := reads }
    else readLineLoop reads (line ++ buffer)

def readLine (reads : List (Option Bytes)) : Option Line := readLineLoop reads []

end VoipMonitor.SocketBlock

/-!
# Writing to the mirror connection (`PcapQueue_readFromFifo::socketWrite`, `pcap_queue.cpp`)

`socketWrite` calls `_socketWrite` until all bytes are counted as written. When a call fails, the
connection is closed and opened again, and the loop goes on. The program is not terminating.
-/

namespace VoipMonitor.SocketWrite
open VoipMonitor.Library

/-- The settings that `_socketWrite` looks at, and the argument `disableAutoConnect`. -/
structure Config where
  mirrorNonblockMode : Bool := false
  disableAutoConnect : Bool := false

/-- The results of the system calls in one call of `_socketWrite`: `poll` or `select` with the
state of the socket, and `send`. -/
structure Round where
  poll : Int := 1
  ready : Bool := true
  send : Int := 0

/-- `send`: at most the bytes that it is given. -/
def sendData (r : Round) (data : Bytes) : Option (Nat × Bytes) :=
  if r.send ≤ 0 then none
  else
    let writeLen := min r.send.toNat data.length
    some (writeLen, data.take writeLen)

/-- `_socketWrite`: the value left in `*dataLen` and the bytes that were sent, or none when it
returns false. -/
def _socketWrite (cfg : Config) (r : Round) (data : Bytes) : Option (Nat × Bytes) :=
  if cfg.mirrorNonblockMode then
    if r.poll < 0 then none
    else if r.poll > 0 ∧ r.ready then sendData r data
    -- after a time-out `*dataLen` is as the caller has set it
    else some (data.length, [])
  else sendData r data

/-- The variables of `socketWrite`. `sent` are the bytes that this call has sent on the connection
that is open, and `returned` is the result. -/
structure WriteState where
  dataLenWrited : Nat := 0
  sent : Bytes := []
  returned : Option Bool := none

def loopCondition (data : Bytes) (s : WriteState) : WriteState :=
  if s.dataLenWrited < data.length then s else { s with returned := some true }

/-- One turn of the loop. A new connection has seen its handshake only. -/
def writeStep (cfg : Config) (data : Bytes) (s : WriteState) (r : Round) : WriteState :=
  if s.returned ≠ none then s
  else
    match _socketWrite cfg r (data.drop s.dataLenWrited) with
    | none =>
      if cfg.disableAutoConnect then { s with returned := some false } else { s with sent := [] }
    | some (dataLen, bytes) =>
      loopCondition data
        { s with dataLenWrited := s.dataLenWrited + dataLen, sent := s.sent ++ bytes }

/-- `socketWrite` on an open connection or the one it has opened first. -/
def socketWrite (cfg : Config) (data : Bytes) (rounds : List Round) : WriteState :=
  rounds.foldl (writeStep cfg data) (loopCondition data {})

end VoipMonitor.SocketWrite
