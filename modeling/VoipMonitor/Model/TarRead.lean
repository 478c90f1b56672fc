import Mathlib
import VoipMonitor.Library.PrefixOrder
import VoipMonitor.Model.CompressStream
import VoipMonitor.Model.TarWorker

/-!
# Writing and reading a tar (`Tar`, `tar.cpp`)

A part of a file is a header block, the data and zeros up to the next block. `tar_read` goes through
the blocks, from the begin or from the positions of the parts, and passes on the data of the parts
whose name, without the number behind it, is the name that is asked for.
-/

namespace VoipMonitor.Tar
open VoipMonitor.Library VoipMonitor.Compress

def blockSize : Nat := 512

/-- `TAR_FILENAME_LENGTH - 1`: a name has its end in the field. -/
def nameLength : Nat := 99

def reserveLimit : Nat := 92

/-- `opt_pcap_dump_tar_use_hash_instead_of_long_callid` and `get_hashcomb_long_filename`. -/
structure Names where
  useHash : Bool
  hash : Bytes → Bytes

/-- A part as `processData` writes it. -/
structure FilePart where
  filename : Bytes
  partSuffix : Bool
  data : Bytes
  time : Int

def suffixText (partCounter : Nat) : Bytes := (35 :: decimalText partCounter).take 19

/-- `th_set_path` with the counter of the parts: a name that is too long with its number is cut. -/
def thSetPath (names : Names) (pathname : Bytes) (partSuffix : Bool) (partCounter : Nat) : Bytes :=
  let name := if names.useHash = true ∧ reserveLimit < pathname.length then names.hash pathname
    else pathname.take nameLength
  if partSuffix then
    let suffix := suffixText partCounter
    (if name.length + suffix.length > nameLength then name.take (nameLength - suffix.length)
      else name) ++ suffix
  else name

def field (length : Nat) (text : Bytes) : Bytes := text ++ List.replicate (length - text.length) 0

/-- `int_to_oct`: the number at the right of the field with a blank and the end behind it. -/
def intToOct (num octlen : Nat) : Bytes :=
  (List.replicate (octlen - 2 - (octal num).length) 32 ++ octal num ++ [32]).take (octlen - 1)

/-- The header block that `processData` sets. -/
def thBuf (name size mtime chksum : Bytes) : Bytes :=
  field 100 name ++ field 8 (intToOct 0o444 8) ++ field 8 (intToOct 0 8) ++ field 8 (intToOct 0 8) ++
    size ++ mtime ++ field 8 chksum ++ field 101 [] ++ field 6 (ascii "ustar") ++ ascii "  " ++
    field 247 []

/-- `th_finish`: the sum is of signed characters, with blanks for its own field. -/
def thFinish (name size mtime : Bytes) : Bytes :=
  let sum := ((thBuf name size mtime []).map (fun c => (c.toNat : Int).bmod 256)).sum + 8 * 32
  thBuf name size mtime (intToOct (sum % 2 ^ 64).toNat 8)

/-- The file and `partCounter`. `tarLength` is the length of the file. -/
structure TarFile where
  content : Bytes
  partCounter : Nat

def header (names : Names) (t : TarFile) (p : FilePart) : Bytes :=
  thFinish (thSetPath names p.filename p.partSuffix (t.partCounter + 1)) (thSetSize p.data.length)
    (intToOctNonull p.time 12)

/-- `processData`: header, data and padding. -/
def appendPart (names : Names) (t : TarFile) (p : FilePart) : TarFile where
  content := t.content ++ (header names t p ++ p.data ++ List.replicate (padding p.data.length) 0)
  partCounter := t.partCounter + 1

def appendAll (names : Names) : TarFile → List FilePart → TarFile
  | t, [] => t
  | t, p :: parts => appendAll names (appendPart names t p) parts

/-- What `addTarPosInCall` records for the parts of a file. -/
def positions (names : Names) (filename : Bytes) : TarFile → List FilePart → List Nat
  | _, [] => []
  | t, p :: parts =>
    (if p.filename = filename then [t.content.length] else []) ++
      positions names filename (appendPart names t p) parts

def tarClose (t : TarFile) : Bytes := t.content ++ List.replicate (2 * blockSize) 0

/-- `octal_decimal`: the decimal digits of a number of 32 bits as octal ones. -/
def octalDecimalLoop : Nat → Nat → Nat → Nat → Nat
  | 0, _, _, decimal => decimal
  | fuel + 1, n, i, decimal =>
    if n = 0 then decimal
    else octalDecimalLoop fuel (n / 10) (i + 1) ((decimal + n % 10 * 8 ^ i) % 2 ^ 32)

def octalDecimal (n : Nat) : Nat := octalDecimalLoop 10 n 0 0

def getSize (header : Bytes) : Nat :=
  octalDecimal (atol ((header.drop 124).dropWhile (fun c => c = 32)) % 2 ^ 32).toNat

/-- `reg_match` with a mark and digits at the end, not more than `most` of them. -/
def endsInNumber (mark : UInt8) (most : Option Nat) (name : Bytes) : Bool :=
  let digits := (name.reverse.takeWhile isDigit).length
  1 ≤ digits ∧ (∀ m ∈ most, digits ≤ m) ∧ (name.reverse.drop digits).head? = some mark

def cmpLengthNameInTar (name : Bytes) : Nat :=
  if endsInNumber 35 none name = true ∨ endsInNumber 95 (some 6) name = true then
    name.length - (name.reverse.takeWhile isDigit).length - 1
  else name.length

/-- The members of `ReadData`. The stream is none until the first data come, and `out` is what is
written or sent. -/
structure ReadData where
  oneFile : Bool
  ended : Bool
  error : Bool
  checkExists : Bool
  filename : Bytes
  hashFilename : Bytes
  position : Nat
  buffer : Bytes
  fileHeader : Bytes
  fileSize : Nat
  stream : Option DecompressStream
  out : Bytes

namespace ReadData

def sameName (r : ReadData) (name : Bytes) : Bool :=
  let length := cmpLengthNameInTar name
  ((reserveLimit < r.filename.length ∨ length = r.filename.length) ∧
      name.take length = r.filename.take length) ∨
    r.hashFilename ≠ [] ∧ length = r.hashFilename.length ∧
      name.take length = r.hashFilename.take length

def wholeName (r : ReadData) (name : Bytes) : Bool :=
  (if nameLength < r.filename.length then name.take nameLength = r.filename.take nameLength
    else name = r.filename) ∨ r.hashFilename ≠ [] ∧ name = r.hashFilename

/-- The stream of `tar_read_file_ev` when it is made. -/
def newStream : DecompressStream := ⟨.auto, true, true, [], [], ""⟩

def deliver (codec : Codec) (r : ReadData) (data : Bytes) : ReadData :=
  let stream := r.stream.getD newStream
  if stream.errorString ≠ "" then { r with stream := some stream, error := true }
  else
    let next := decompress codec stream data 0
    { r with stream := some next.1, out := r.out ++ next.2 }

def fileEv (codec : Codec) (r : ReadData) (header data : Bytes) : ReadData :=
  let name := cString header
  if r.sameName name then
    if data ≠ [] then r.deliver codec data
    else if name ≠ [] ∧ (r.checkExists = true ∨ r.wholeName name = true) then
      { r with ended := true }
    else r
  else r

def blockEv (codec : Codec) (r : ReadData) (block : Bytes) : ReadData :=
  if r.ended then r
  else if r.position ≠ 0 ∧ r.fileSize < getSize r.fileHeader then
    let size := getSize r.fileHeader
    let len := if r.fileSize + blockSize > size then size % blockSize else blockSize
    let r := r.fileEv codec r.fileHeader (block.take len)
    let r := { r with fileSize := r.fileSize + len }
    if r.oneFile = true ∧ r.fileSize ≥ size then { r with ended := true } else r
  else
    let r := if r.position ≠ 0 then r.fileEv codec r.fileHeader [] else r
    { r with fileHeader := block, fileSize := 0 }

/-- The blocks of the buffer in `decompress_ev`; `len` is what came last. -/
def blocksEv (codec : Codec) (len : Nat) : Nat → ReadData → Bytes → ReadData
  | 0, r, _ => r
  | count + 1, r, buffer =>
    let r := r.blockEv codec (buffer.take blockSize)
    blocksEv codec len count { r with position := r.position + len } (buffer.drop blockSize)

def decompressEv (codec : Codec) (r : ReadData) (data : Bytes) : ReadData :=
  if data.length ≠ blockSize ∨ r.buffer ≠ [] then
    let buffer := r.buffer ++ data
    if buffer.length ≥ blockSize then
      let count := buffer.length / blockSize
      { blocksEv codec data.length count r buffer with buffer := buffer.drop (count * blockSize) }
    else { r with buffer := buffer }
  else
    let r := r.blockEv codec data
    { r with position := r.position + blockSize }

def readLoop (codec : Codec) : Nat → ReadData → Bytes → ReadData
  | 0, r, _ => r
  | fuel + 1, r, rest =>
    if r.ended = true ∨ r.error = true ∨ rest = [] then r
    else readLoop codec fuel (r.decompressEv codec (rest.take blockSize)) (rest.drop blockSize)

def readPositions (codec : Codec) (content : Bytes) : ReadData → List Nat → ReadData
  | r, [] => r
  | r, pos :: tarPos =>
    let rest := content.drop pos
    let r := readLoop codec rest.length { r with oneFile := true, ended := false, buffer := [] } rest
    if r.error then r else readPositions codec content r tarPos

end ReadData

def ReadData.start (names : Names) (filename : Bytes) : ReadData where
  oneFile := false
  ended := false
  error := false
  checkExists := false
  filename := filename
  hashFilename := if names.useHash = true ∧ reserveLimit < filename.length then names.hash filename
    else []
  position := 0
  buffer := []
  fileHeader := List.replicate blockSize 0
  fileSize := 0
  stream := none
  out := []

/-- `tar_read` of a tar that is not compressed. -/
def tarRead (names : Names) (codec : Codec) (content filename : Bytes) (tarPos : List Nat) :
    ReadData :=
  let r := ReadData.start names filename
  if tarPos ≠ [] then r.readPositions codec content tarPos
  else
    let r := r.readLoop codec content.length content
    if r.ended = false ∧ r.wholeName (cString r.fileHeader) = true then
      r.fileEv codec r.fileHeader []
    else r

end VoipMonitor.Tar
