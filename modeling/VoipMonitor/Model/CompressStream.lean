import VoipMonitor.Library.Text

/-!
# Streams of compressed blocks (`CompressStream`, `tools_dynamic_buffer.cpp`)

`compress` cuts what it is given into blocks and writes each block behind a record with its sizes.
`decompress` collects the bytes that come and decompresses every block that is complete.
-/

namespace VoipMonitor.Compress
open VoipMonitor.Library

inductive BlockType
  | snappy
  | lzo
  | lz4
deriving DecidableEq, Repr

/-- The types that `decompress` can find out from the first bytes. -/
inductive TypeCompress
  | na
  | zstd
  | block (type : BlockType)
  | auto
deriving DecidableEq, Repr

/-- What a codec reports. -/
inductive Status
  | invalidInput
  | bufferTooSmall
  | other

/-- The libraries. `zstdDecompress` gives what comes out for the next bytes, after those that were
read before. -/
structure Codec where
  compress : BlockType → Bytes → Except Status Bytes
  decompress : BlockType → Bytes → Nat → Except Status Bytes
  zstdDecompress : Bytes → Bytes → Except String Bytes

def compressError : BlockType → Status → String
  | .snappy, .invalidInput => "snappy compress failed - invalid input"
  | .snappy, .bufferTooSmall => "snappy compress failed - buffer is too small"
  | .snappy, .other => "snappy compress failed -  unknown error"
  | .lzo, _ => "lzo compress failed"
  | .lz4, _ => "lz4 compress failed"

def decompressError : BlockType → Status → String
  | .snappy, .invalidInput => "snappy decompress failed - invalid input"
  | .snappy, .bufferTooSmall => "snappy decompress failed - buffer is too small"
  | .snappy, .other => "snappy decompress failed - unknown error"
  | .lzo, _ => "lzo decompress failed"
  | .lz4, _ => "lz4 decompress failed"

def filePrefix : BlockType → Bytes
  | .snappy => ascii "SNA"
  | .lzo => ascii "LZO"
  | .lz4 => ascii "LZ4"

/-- `sChunkSizeInfo`. -/
def sizeInfo (size compressSize : Nat) : Bytes := encodeLe 4 size ++ encodeLe 4 compressSize

def sizeOf (b : Bytes) : Nat := leNat (slice b 0 4)

def compressSizeOf (b : Bytes) : Nat := leNat (slice b 4 4)

structure CompressEv where
  data : Bytes
  decompressLen : Nat
  formatData : Bool

/-- The fields that `compress` uses. -/
structure CompressStream where
  typeCompress : BlockType
  compressBufferLength : Nat
  maxDataLength : Nat
  autoPrefixFile : Bool
  forceStream : Bool
  processedLen : Nat
  errorString : String

/-- `createCompressBuffer`: the length of the blocks. -/
def CompressStream.createCompressBuffer (s : CompressStream) : CompressStream :=
  let length := max s.compressBufferLength s.maxDataLength
  { s with compressBufferLength := if length = 0 then 8 * 1024 else length }

/-- The loop of `compress` over the rest of the data, which has `len` bytes in all. The first
argument bounds the rounds. -/
def compressLoop (codec : Codec) (len : Nat) :
    Nat → Bytes → CompressStream → CompressStream × List CompressEv
  | 0, _, s => (s, [])
  | fuel + 1, rest, s =>
    if rest = [] then (s, [])
    else
      match codec.compress s.typeCompress (rest.take s.compressBufferLength) with
      | .error status => ({ s with errorString := compressError s.typeCompress status }, [])
      | .ok block =>
        let next := compressLoop codec len fuel (rest.drop s.compressBufferLength)
          { s with processedLen := add32 s.processedLen len }
        (next.1,
          (if s.processedLen = 0 ∧ s.autoPrefixFile = true then
            [⟨filePrefix s.typeCompress, 0, true⟩] else []) ++
          (if s.forceStream = true then [⟨sizeInfo len block.length, 0, true⟩] else []) ++
          ⟨block, len, false⟩ :: next.2)

/-- `compress` of the types that compress blocks. It fails when it leaves an error. -/
def compress (codec : Codec) (s : CompressStream) (data : Bytes) :
    CompressStream × List CompressEv :=
  if s.errorString ≠ "" ∨ data = [] then (s, [])
  else compressLoop codec data.length data.length data s.createCompressBuffer

/-- The calls of `compress` one after another, and the bytes that come out. -/
def compressAll (codec : Codec) : CompressStream → List Bytes → CompressStream × Bytes
  | s, [] => (s, [])
  | s, data :: writes =>
    let r := compress codec s data
    let rest := compressAll codec r.1 writes
    (rest.1, (r.2.map CompressEv.data).flatten ++ rest.2)

/-- The fields that `decompress` uses; `decompressData` is the buffer of the type. -/
structure DecompressStream where
  typeCompress : TypeCompress
  autoPrefixFile : Bool
  forceStream : Bool
  decompressData : Bytes
  zstdRead : Bytes
  errorString : String
deriving DecidableEq, Repr

def autoType (data : Bytes) : TypeCompress × Bytes :=
  if [0x28, 0xb5, 0x2f, 0xfd].isPrefixOf data then (.zstd, data)
  else if (filePrefix .snappy).isPrefixOf data then (.block .snappy, data.drop 3)
  else if (filePrefix .lzo).isPrefixOf data then (.block .lzo, data.drop 3)
  else if (filePrefix .lz4).isPrefixOf data then (.block .lz4, data.drop 3)
  else (.na, data)

def decompressBlock (codec : Codec) (type : BlockType) (block : Bytes) (size : Nat) :
    Except String Bytes :=
  match codec.decompress type block size with
  | .error status => .error (decompressError type status)
  | .ok data => if data.length = size then .ok data else .error (decompressError type .other)

/-- What the loop of `decompress` leaves. -/
structure Decoded where
  out : Bytes
  rest : Bytes
  error : String
deriving DecidableEq, Repr

def Ready (b : Bytes) : Prop := 8 < b.length ∧ 8 + compressSizeOf b ≤ b.length

instance (b : Bytes) : Decidable (Ready b) :=
  inferInstanceAs (Decidable (8 < b.length ∧ 8 + compressSizeOf b ≤ b.length))

/-- The loop of `decompress` over the buffer. The first argument bounds the rounds. -/
def decompressLoop (codec : Codec) (type : BlockType) : Nat → Bytes → Decoded
  | 0, b => ⟨[], b, ""⟩
  | fuel + 1, b =>
    if Ready b then
      match decompressBlock codec type (slice b 8 (compressSizeOf b)) (sizeOf b) with
      | .error error => ⟨[], b, error⟩
      | .ok data =>
        let next := decompressLoop codec type fuel (b.drop (8 + compressSizeOf b))
        ⟨data ++ next.out, next.rest, next.error⟩
    else ⟨[], b, ""⟩

/-- `decompress`, and the data that it passes on. It fails when it leaves an error. -/
def decompress (codec : Codec) (s : DecompressStream) (data : Bytes) (decompressLen : Nat) :
    DecompressStream × Bytes :=
  if s.errorString ≠ "" ∨ data = [] then (s, [])
  else
    let found := if s.typeCompress = .auto ∧ s.autoPrefixFile = true then autoType data
      else (s.typeCompress, data)
    let s := { s with typeCompress := found.1 }
    let data := found.2
    match s.typeCompress with
    | .na => (s, data)
    | .zstd =>
      match codec.zstdDecompress s.zstdRead data with
      | .error error => ({ s with errorString := error }, [])
      | .ok out => ({ s with zstdRead := s.zstdRead ++ data }, out)
    | .block type =>
      if s.forceStream = true then
        let data := if s.decompressData = [] ∧ (filePrefix type).isPrefixOf data = true then
          data.drop 3 else data
        let b := s.decompressData ++ data
        let r := decompressLoop codec type b.length b
        ({ s with decompressData := r.rest, errorString := r.error }, r.out)
      else
        match decompressBlock codec type data decompressLen with
        | .error error => ({ s with errorString := error }, [])
        | .ok out => (s, out)
    | .auto => (s, [])

def decompressAll (codec : Codec) : DecompressStream → List Bytes → DecompressStream × Bytes
  | s, [] => (s, [])
  | s, segment :: segments =>
    let r := decompress codec s segment 0
    let rest := decompressAll codec r.1 segments
    (rest.1, r.2 ++ rest.2)

end VoipMonitor.Compress
