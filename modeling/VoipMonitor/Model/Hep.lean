import VoipMonitor.Library.Bytes
import VoipMonitor.Library.Frames
import VoipMonitor.Library.Loops

/-!
# HEP messages on a connection (`hep.cpp`)

`processData` gets what was read from the connection and keeps a message that has not arrived as a
whole in `hep_buffer`. The bytes are elements of a type `α` with a value, so that two bytes of the
stream with one value can be told apart. Lengths are below the word size.
-/

namespace VoipMonitor.Hep
open VoipMonitor.Library

variable {α : Type} (byte : α → UInt8)

/-- The text `HEP3`. -/
def magic : Bytes := [0x48, 0x45, 0x50, 0x33]

def isBeginHep (data : List α) : Bool := data.length ≥ 4 && (data.take 4).map byte = magic

def hepLength (data : List α) : Nat := if data.length ≥ 6 then be16 (data.map byte) 4 else 0

def isCompleteHep (data : List α) : Bool := isBeginHep byte data && hepLength byte data ≤ data.length

/-- The condition of the loop of `processHeps`, `processed < dataLen - 6` with an unsigned
difference: for less than 6 bytes it wraps, and the condition holds. -/
def Again (dataLen processed : Nat) : Prop := dataLen < 6 ∨ processed < dataLen - 6

instance (dataLen processed : Nat) : Decidable (Again dataLen processed) :=
  inferInstanceAs (Decidable (_ ∨ _))

/-- The loop of `processHeps`: the bytes of each call of `processHep`, and `processed` at the end.
`none` stands for a loop that does not end: with the length 0 it stays where it is. -/
def processHepsFrom (data : List α) (processed : Nat) : Option (List (List α) × Nat) :=
  if Again data.length processed then
    let rest := data.drop processed
    if ¬isBeginHep byte rest then some ([], processed)
    else if hepLength byte rest > data.length - processed then some ([], processed)
    else if hepLength byte rest = 0 then none
    else
      (processHepsFrom data (processed + hepLength byte rest)).map
        (fun (heps, processed') => (rest.take (hepLength byte rest) :: heps, processed'))
  else some ([], processed)
termination_by data.length - processed
decreasing_by all_goals simp only [rest] at *; omega

def processHeps (data : List α) : Option (List (List α) × Nat) := processHepsFrom byte data 0

def limitBuffer (buffer : List α) : List α := if buffer.length > 1024 * 1024 then [] else buffer

/-- The calls of `processHep` for what was read, and `hep_buffer` behind it. -/
def processData (hepBuffer data : List α) : Option (List (List α) × List α) :=
  if isBeginHep byte data then
    if isCompleteHep byte data then
      (processHeps byte data).map (fun (heps, processed) =>
        (heps, if processed < data.length then data.drop processed else []))
    else some ([], data)
  else if hepBuffer ≠ [] then
    let hepBuffer := hepBuffer ++ data
    if isCompleteHep byte hepBuffer then
      (processHeps byte hepBuffer).map (fun (heps, processed) =>
        (heps, limitBuffer
          (if processed = hepBuffer.length then []
          else if processed < data.length then hepBuffer.drop processed
          else hepBuffer)))
    else some ([], limitBuffer hepBuffer)
  else some ([], hepBuffer)

/-- The calls of `processHep` over a series of reads; `none` when one of them does not return. -/
def processReads : List α → List (List α) → Option (List (List α))
  | _, [] => some []
  | hepBuffer, data :: reads =>
    (processData byte hepBuffer data).bind (fun (heps, hepBuffer') =>
      (processReads hepBuffer' reads).map (heps ++ ·))

end VoipMonitor.Hep

/-!
## Chunks of HEP messages (`hep.cpp`)

A message is read in a memory from its first byte on, and nothing says that it is all there. A read
that passes the end of the memory is `none`. What `processHep` makes of the data is left out.
-/

namespace VoipMonitor.Hep
open VoipMonitor.Library

/-- What the decompression of `cGzip` reads of bytes, with `avail_in`, and what it returns. -/
structure Inflate where
  reads : Bytes → Nat → Nat
  decompress : Bytes → Nat → Option Bytes
  reads_le : ∀ bytes avail, reads bytes avail ≤ avail

/-- The branches of `processChunk`: a number that must have its size, the bytes for a buffer, and
bytes that may be compressed. -/
inductive ChunkKind where
  | number (size : Nat)
  | buffer
  | compressed

/-- The branch of a chunk type, in the order of `eHEP_ChunkType`. -/
def chunkKind : Nat → Option ChunkKind
  | 0x01 => some (.number 1)   -- ip_protocol_family
  | 0x02 => some (.number 1)   -- ip_protocol_id
  | 0x03 => some (.number 4)   -- ip_source_address_v4
  | 0x04 => some (.number 4)   -- ip_destination_address_v4
  | 0x05 => some (.number 16)  -- ip_source_address_v6
  | 0x06 => some (.number 16)  -- ip_destination_address_v6
  | 0x07 => some (.number 2)   -- protocol_source_port
  | 0x08 => some (.number 2)   -- protocol_destination_port
  | 0x09 => some (.number 4)   -- timestamp_seconds
  | 0x0a => some (.number 4)   -- timestamp_microseconds
  | 0x0b => some (.number 1)   -- protocol_type
  | 0x0c => some (.number 4)   -- capture_agent_id
  | 0x0d => some (.number 2)   -- keep_alive_timer
  | 0x0e => some .buffer       -- authenticate_key
  | 0x0f => some .buffer       -- captured_packet_payload
  | 0x10 => some .compressed   -- captured_packet_payload_compressed
  | 0x11 => some .buffer       -- internal_correlation_id
  | 0x12 => some (.number 2)   -- vlan_id
  | 0x13 => some .buffer       -- group_id
  | 0x14 => some (.number 8)   -- source_mac
  | 0x15 => some (.number 8)   -- destination_mac
  | 0x16 => some (.number 2)   -- ethernet_type
  | 0x17 => some (.number 1)   -- tcp_flag
  | 0x18 => some (.number 1)   -- ip_tos
  | 0x20 => some (.number 2)   -- mos_value
  | 0x21 => some (.number 2)   -- r_factor
  | 0x22 => some .buffer       -- geo_location
  | 0x23 => some (.number 4)   -- jitter
  | 0x24 => some .buffer       -- transaction_type
  | 0x25 => some .buffer       -- payload_json_keys
  | 0x26 => some .buffer       -- tags_values
  | 0x27 => some (.number 2)   -- tag_type
  | _ => none

/-- `sHEP_Data`, its fields by their chunk types. A number that was not set has no value. -/
structure SHepData where
  setFlags : Nat
  number : Nat → Option Nat
  buffer : Nat → Bytes

def SHepData.empty : SHepData where
  setFlags := 0
  number := fun _ => none
  buffer := fun _ => []

/-- A number in network order. `opt_hep_kamailio_protocol_id_fix` takes the protocol IDP for UDP. -/
def SHepData.setNumber (kamailioFix : Bool) (h : SHepData) (type : Nat) (bytes : Bytes) :
    SHepData where
  setFlags := h.setFlags ||| 1 <<< type
  number := Function.update h.number type
    (if type = 0x02 ∧ leNat bytes.reverse = 22 ∧ kamailioFix = true then some 17
    else some (leNat bytes.reverse))
  buffer := h.buffer

def SHepData.add (h : SHepData) (type : Nat) (bytes : Bytes) : SHepData :=
  { h with buffer := Function.update h.buffer type (h.buffer type ++ bytes) }

/-- A `size_t` difference. -/
def minus6 (n : Nat) : Nat := (n + (2 ^ 64 - 6)) % 2 ^ 64

def readTo {α : Type} (memory : Bytes) (stop : Nat) (x : α) : Option α :=
  if stop ≤ memory.length then some x else none

variable (z : Inflate) (kamailioFix : Bool) (memory : Bytes)

/-- `chunkType` reads 32 bits. -/
def chunkType (pos dataLen : Nat) : Option Nat :=
  if dataLen ≥ 4 then readTo memory (pos + 6) (be16 memory (pos + 2)) else some 0

/-- `chunkLength` and `hepLength` read 32 bits. -/
def chunkLength (pos dataLen : Nat) : Option Nat :=
  if dataLen ≥ 6 then readTo memory (pos + 8) (be16 memory (pos + 4)) else some 0

/-- `isCompress`, with the decompression of what is compressed. -/
def decompressChunk (payload payloadLen : Nat) (h : SHepData) : Option SHepData :=
  if payloadLen ≤ 2 then some h
  else if payload + 1 > memory.length then none
  else if byteAt memory payload ≠ 0x1f then some h
  else if payload + 2 > memory.length then none
  else if byteAt memory (payload + 1) ≠ 0x8b then some h
  else readTo memory (payload + z.reads (memory.drop payload) payloadLen)
    ((z.decompress (memory.drop payload) payloadLen).elim h (h.add 0x0f))

/-- `processChunk`. `payloadLen` has 32 bits. -/
def processChunk (pos dataLen : Nat) (h : SHepData) : Option SHepData :=
  (chunkType memory pos dataLen).bind (fun type =>
    let payloadLen := sub32 dataLen 6
    match chunkKind type with
    | none => some h
    | some (.number size) =>
      if payloadLen = size then
        readTo memory (pos + 6 + size) (h.setNumber kamailioFix type (slice memory (pos + 6) size))
      else some h
    | some .buffer =>
      readTo memory (pos + 6 + payloadLen)
        { h.add type (slice memory (pos + 6) payloadLen) with
          setFlags := h.setFlags ||| 1 <<< type }
    | some .compressed => decompressChunk z memory (pos + 6) payloadLen h)

structure ChunkState where
  offset : Nat
  hepData : SHepData

/-- A round of `processChunks` on the data at `base`. `offset` has 32 bits. -/
def chunkRound (base dataLen : Nat) (s : ChunkState) : Outcome ChunkState SHepData :=
  if s.offset < minus6 dataLen then
    match chunkLength memory (base + s.offset) (dataLen - s.offset) with
    | none => .broken
    | some length =>
      if length = 0 ∨ length > dataLen - s.offset then .done s.hepData
      else
        match processChunk z kamailioFix memory (base + s.offset) length s.hepData with
        | none => .broken
        | some h => .next ⟨add32 s.offset length, h⟩
  else .done s.hepData

/-- `processChunks`. Each round takes a byte or more, so these rounds are enough. -/
def processChunks (base dataLen : Nat) (h : SHepData) : Option SHepData :=
  runLoop (chunkRound z kamailioFix memory base dataLen) (memory.length + 2 ^ 16 + 1) ⟨0, h⟩

def processHep (pos dataLen : Nat) : Option SHepData :=
  processChunks z kamailioFix memory (pos + 6) (minus6 dataLen) .empty

/-- A round of `processHeps` on the first `dataLen` bytes of the memory. `processed` has 32 bits. -/
def hepRound (dataLen processed : Nat) : Outcome Nat Nat :=
  if Again dataLen processed then
    if ¬isBeginHep id (slice memory processed (dataLen - processed)) then .done processed
    else
      match chunkLength memory processed (dataLen - processed) with
      | none => .broken
      | some length =>
        if length > dataLen - processed then .done processed
        else
          match processHep z kamailioFix memory processed length with
          | none => .broken
          | some _ => .next (add32 processed length)
  else .done processed

/-- `processHeps` on a buffer in the memory; none is a call that does not return in these rounds. -/
def processHepsIn (dataLen fuel : Nat) : Option Nat :=
  runLoop (hepRound z kamailioFix memory dataLen) fuel 0

end VoipMonitor.Hep
