import Mathlib
import VoipMonitor.Library.PrefixOrder
import VoipMonitor.Library.Records
import VoipMonitor.Library.Replace
import VoipMonitor.Library.Runs
import VoipMonitor.Library.SortedMap

/-!
# Files of queries (`MySqlStore::query_to_file`, `loadFromQFile`, `sql_db.cpp`)

The queries for the database are written line by line into files, a file for some seconds. Threads
of their own take the files that are old enough, oldest first, hand their queries over and remove
them. What is written and read is the text in front of the compression, and a line that is written
is in the file. The oldest file is searched in the directory, as without inotify.
-/

namespace VoipMonitor.QueryFiles
open VoipMonitor.Library

def endl : Bytes := [95, 95, 69, 78, 68, 76, 95, 95]

def endlLower : Bytes := [95, 95, 101, 110, 100, 108, 95, 95]

structure Query where
  text : Bytes
  text_noNull : 0 ∉ text

def Query.encode (q : Query) : Bytes := replaceAll [10] endl (replaceAll endl endlLower q.text)

/-- `%i`. -/
def intText (n : Int) : Bytes :=
  if n < 0 then 45 :: decimalText n.natAbs else decimalText n.natAbs

def buffIdLength (idMain : Int) (queryLength : Nat) : Bytes :=
  intText idMain ++ 47 :: decimalText (queryLength % 2 ^ 32) ++ [58]

/-- What `query_to_file` writes, without the end of the line. -/
def queryLine (idMain : Int) (q : Query) : Bytes := buffIdLength idMain q.encode.length ++ q.encode

/-- A query that is stored, with its `id_main`, an `int`. The length of its text is below that of an
`unsigned int`. -/
structure Entry where
  idMain : Int
  query : Query
  le_idMain : -2 ^ 31 ≤ idMain
  idMain_lt : idMain < 2 ^ 31
  length_lt : query.encode.length < 2 ^ 32

def Entry.line (e : Entry) : Bytes := queryLine e.idMain e.query

def digitValue (c : UInt8) : Option Nat :=
  if isDigit c then some (c.toNat - 48)
  else if 97 ≤ c.toNat ∧ c.toNat ≤ 102 then some (c.toNat - 87)
  else if 65 ≤ c.toNat ∧ c.toNat ≤ 70 then some (c.toNat - 55)
  else none

/-- The digits of a number, and what is behind them. -/
def scanDigits (base : Nat) (b : Bytes) : Option (Nat × Bytes) :=
  let ofBase := fun c => (digitValue c).any (fun d => d < base)
  let digits := b.takeWhile ofBase
  if digits = [] then none
  else some (digits.foldl (fun n c => base * n + (digitValue c).getD 0) 0, b.dropWhile ofBase)

/-- Whether there is a minus, and what is behind the sign. -/
def scanSign : Bytes → Bool × Bytes
  | [] => (false, [])
  | c :: b => if c = 45 then (true, b) else (false, if c = 43 then b else c :: b)

/-- `%i`: the begin of the number tells its base. A number out of the range of a `long` is the last
one in it, and its low bits are the `int`. -/
def scanInt (b : Bytes) : Option (Int × Bytes) :=
  let e := scanSign (b.dropWhile isWhite)
  let number :=
    if [48, 120] <+: lower e.2 then scanDigits 16 (e.2.drop 2)
    else if [48] <+: e.2 then scanDigits 8 e.2
    else scanDigits 10 e.2
  number.map (fun f =>
    (Int.bmod (if e.1 then -min (f.1 : Int) (2 ^ 63) else min (f.1 : Int) (2 ^ 63 - 1)) (2 ^ 32), f.2))

/-- `%u`. -/
def scanUnsigned (b : Bytes) : Option (Nat × Bytes) :=
  let e := scanSign (b.dropWhile isWhite)
  (scanDigits 10 e.2).map (fun f =>
    ((if f.1 ≥ 2 ^ 64 then 2 ^ 64 - 1 else if e.1 then 2 ^ 64 - f.1 else f.1) % 2 ^ 32, f.2))

/-- Both numbers of `"%i/%u:"`. -/
def scanIdLength (b : Bytes) : Option (Int × Nat) :=
  (scanInt b).bind (fun e =>
    if e.2.head? = some 47 then (scanUnsigned e.2.tail).map (fun f => (e.1, f.1)) else none)

/-- What `loadFromQFile` hands over of a line that is not empty, or none when the line is bad. -/
def loadLine (line : Bytes) : Option Bytes :=
  let buffLineQuery := cString (if line.getLast? = some 10 then line.dropLast else line)
  match buffLineQuery.dropWhile (fun c => c ≠ 58) with
  | [] => none
  | _ :: query =>
    (scanIdLength buffLineQuery).bind (fun e =>
      if e.1 = 0 ∨ e.2 = 0 then none
      else if e.2 ≠ query.length then none
      else some (replaceAll endl [10] query))

/-- The members of `FileZipHandler` for reading. -/
structure FileZipHandler where
  readBuffer : List Bytes := []
  readBufferBeginPos : Nat := 0
  eof : Bool := false
deriving DecidableEq, Repr

namespace FileZipHandler

/-- `endLinePosIndex` and the position of the end of a line in this item. -/
def findEndLine : Nat → List Bytes → Option (Nat × Nat)
  | _, [] => none
  | beginPos, buff :: items =>
    match (buff.drop beginPos).idxOf? 10 with
    | some pos => some (0, beginPos + pos)
    | none => (findEndLine 0 items).map (fun e => (e.1 + 1, e.2))

/-- `tempBuffer`: the items up to the one with the end of the line. -/
def lineUpTo : Nat → Nat → Nat → List Bytes → Bytes
  | _, _, _, [] => []
  | beginPos, 0, endPos, buff :: _ => (buff.take (endPos + 1)).drop beginPos
  | beginPos, index + 1, endPos, buff :: items => buff.drop beginPos ++ lineUpTo 0 index endPos items

def getLineFromReadBuffer (f : FileZipHandler) : Option Bytes × FileZipHandler :=
  match findEndLine f.readBufferBeginPos f.readBuffer with
  | some (index, endPos) =>
    (some (lineUpTo f.readBufferBeginPos index endPos f.readBuffer),
      { f with readBuffer := f.readBuffer.drop index, readBufferBeginPos := endPos + 1 })
  | none =>
    if f.eof ∧ f.readBuffer ≠ [] then
      let line := f.readBuffer.flatten.drop f.readBufferBeginPos
      (if line = [] then none else some line, { f with readBuffer := [], readBufferBeginPos := 0 })
    else (none, f)

/-- The inner loop of `loadFromQFile`: the lines that are in the buffer. -/
def getLines : Nat → FileZipHandler → List Bytes × FileZipHandler
  | 0, f => ([], f)
  | fuel + 1, f =>
    match getLineFromReadBuffer f with
    | (none, f) => ([], f)
    | (some line, f) => (line :: (getLines fuel f).1, (getLines fuel f).2)

/-- What one `read` gets: the parts that the decompression makes of the bytes, whether it is still
ok, the end of the file, or an error. -/
inductive Read where
  | data (items : List Bytes) (isOk : Bool)
  | eof (items : List Bytes) (isOk : Bool)
  | error

/-- What is not read yet behind a read that may get these bytes. -/
def Read.behind (rest : Bytes) : Read → Option Bytes
  | .data items isOk =>
    if isOk → items.flatten <+: rest then some (rest.drop items.flatten.length) else none
  | .eof items isOk => if isOk → items.flatten = rest then some [] else none
  | .error => some rest

/-- One turn of the loop of `loadFromQFile`: its lines, and the handler when the loop goes on. -/
def readTurn (f : FileZipHandler) : Read → List Bytes × Option FileZipHandler
  | .data items isOk =>
    if isOk then
      let f := { f with readBuffer := f.readBuffer ++ items }
      let e := getLines (f.readBuffer.flatten.length + 1) f
      (e.1, some e.2)
    else ([], none)
  | .eof items isOk =>
    if isOk then
      let f := { f with readBuffer := f.readBuffer ++ items, eof := true }
      ((getLines (f.readBuffer.flatten.length + 1) f).1, none)
    else ([], none)
  | .error => ([], none)

def readLines : FileZipHandler → List Read → List Bytes
  | _, [] => []
  | f, read :: reads =>
    (f.readTurn read).1 ++ ((f.readTurn read).2.elim [] (fun f => readLines f reads))

end FileZipHandler

/-- `loadFromQFile`: the queries that it hands over. -/
def loadFromQFile (reads : List FileZipHandler.Read) : List Bytes :=
  (FileZipHandler.readLines {} reads).filterMap loadLine

/-- `isCloud`, and the periods of `qfileConfig` and `loadFromQFileConfig`. -/
structure Config where
  isCloud : Bool
  period : Nat
  loadPeriod : Nat

def Config.idc (cfg : Config) (idMain : Int) : Int := if cfg.isCloud then 1 else idMain

/-- `getQFilename`. -/
structure QFilename where
  idc : Int
  time : Nat
deriving DecidableEq, Repr

/-- A file that is being loaded, and what is not read yet of its text. -/
structure Loading where
  time : Nat
  handler : FileZipHandler
  rest : Bytes
deriving DecidableEq, Repr

/-- The files in their directory, and what the process has of them: `qfiles` with the times of
those that are open, the file that the thread of an id has chosen and how far it has loaded it, and
the queries that these threads have handed over. `clock` is a time that has passed. -/
structure Store where
  disk : List (QFilename × Bytes)
  qfiles : List (Int × Nat)
  terminate : Bool
  chosen : List (Int × Nat)
  loading : List (Int × Loading)
  handed : List (Int × Bytes)
  clock : Nat

inductive StoreAct where
  | query (e : Entry) (now actTime : Nat)
  | checkPeriod (now : Nat)
  | queryToFilesTerminate
  | restart (now : Nat)
  | choose (idMain : Int) (now : Nat)
  | load (idMain : Int)
  | read (idMain : Int) (read : FileZipHandler.Read)

namespace Store

def new : Store := ⟨[], [], false, [], [], [], 1⟩

/-- `isExceedPeriod`, with numbers of 64 and of 32 bits. -/
def isExceedPeriod (cfg : Config) (createAt now : Nat) : Bool :=
  (now + 2 ^ 64 - createAt) % 2 ^ 64 > cfg.period * 1000 % 2 ^ 32

def idLt (a b : Int) : Bool := a < b

def tick (s : Store) (now : Nat) : Store := { s with clock := now }

def closeExceeded (cfg : Config) (s : Store) (now : Nat) (which : Int → Bool) : Store :=
  { s with qfiles := s.qfiles.filter (fun e => !(which e.1 && isExceedPeriod cfg e.2 now)) }

/-- `open` with `O_TRUNC`. -/
def openQFile (s : Store) (idc : Int) (actTime : Nat) : Store :=
  { s with
    qfiles := SortedMap.set idLt idc actTime s.qfiles
    disk :=
      if s.disk.any (fun f => f.1 = ⟨idc, actTime⟩) then
        SortedMap.update ⟨idc, actTime⟩ (fun _ => []) s.disk
      else s.disk ++ [(⟨idc, actTime⟩, [])] }

def write (s : Store) (idc : Int) (text : Bytes) : Store :=
  match SortedMap.get idc s.qfiles with
  | some createAt => { s with disk := SortedMap.update ⟨idc, createAt⟩ (· ++ text) s.disk }
  | none => s

def queryToFile (cfg : Config) (s : Store) (e : Entry) (now actTime : Nat) : Store :=
  let idc := cfg.idc e.idMain
  let s := s.closeExceeded cfg now (fun i => i = idc)
  let s := if (SortedMap.get idc s.qfiles).isNone then s.openQFile idc actTime else s
  s.write idc (e.line ++ [10])

/-- `getMinQFile` without inotify. -/
def getMinQFile (cfg : Config) (s : Store) (idMain : Int) (now : Nat) : Option Nat :=
  let minTime := (s.disk.filter (fun f => f.1.idc = idMain)).foldl
    (fun minTime f => if minTime = 0 ∨ f.1.time < minTime then f.1.time else minTime) 0
  if minTime ≠ 0 ∧ (now + 2 ^ 64 - minTime) % 2 ^ 64 > cfg.loadPeriod * 2 * 1000 % 2 ^ 32 then
    some minTime
  else none

/-- `loadFromQFile` begins, unless the file is still open. -/
def load (s : Store) (idMain : Int) (time : Nat) : Option Store :=
  if SortedMap.get idMain s.qfiles = some time then
    some { s with chosen := SortedMap.erase idMain s.chosen }
  else (SortedMap.get ⟨idMain, time⟩ s.disk).map (fun text =>
    { s with loading := SortedMap.set idLt idMain ⟨time, {}, text⟩ s.loading })

/-- A turn of `loadFromQFile`. The file is removed behind the last one, also when it has failed. -/
def readTurn (s : Store) (idMain : Int) (l : Loading) (read : FileZipHandler.Read) (rest : Bytes) :
    Store :=
  let s := { s with
    handed := s.handed ++
      ((l.handler.readTurn read).1.filterMap loadLine).map (fun q => (idMain, q)) }
  match (l.handler.readTurn read).2 with
  | some f => { s with loading := SortedMap.set idLt idMain ⟨l.time, f, rest⟩ s.loading }
  | none =>
    { s with
      chosen := SortedMap.erase idMain s.chosen
      loading := SortedMap.erase idMain s.loading
      disk := SortedMap.erase ⟨idMain, l.time⟩ s.disk }

/-- One step; the time never goes back, and what is read of a file is its text. A new process begins
later and finds the files that are there. The process before it may have been in a file. -/
def step (cfg : Config) (s : Store) : StoreAct → Option Store
  | .query e now actTime =>
    if s.clock ≤ now ∧ now ≤ actTime ∧ actTime < 2 ^ 64 then
      some ((if s.terminate then s else s.queryToFile cfg e now actTime).tick actTime)
    else none
  | .checkPeriod now =>
    if s.clock ≤ now ∧ now < 2 ^ 64 then
      some ((s.closeExceeded cfg now (fun _ => true)).tick now)
    else none
  | .queryToFilesTerminate => some { s with terminate := true, qfiles := [] }
  | .restart now =>
    if s.terminate ∧ s.clock < now ∧ now < 2 ^ 64 then
      some { s with terminate := false, chosen := [], loading := [], clock := now }
    else none
  | .choose idMain now =>
    if s.clock ≤ now ∧ now < 2 ^ 64 ∧ SortedMap.get idMain s.chosen = none then
      some (match s.getMinQFile cfg idMain now with
        | some time => { s with chosen := SortedMap.set idLt idMain time s.chosen, clock := now }
        | none => s.tick now)
    else none
  | .load idMain =>
    if SortedMap.get idMain s.loading = none then
      (SortedMap.get idMain s.chosen).bind (fun time => s.load idMain time)
    else none
  | .read idMain read =>
    (SortedMap.get idMain s.loading).bind (fun l =>
      (read.behind l.rest).map (fun rest => s.readTurn idMain l read rest))

end Store

end VoipMonitor.QueryFiles
