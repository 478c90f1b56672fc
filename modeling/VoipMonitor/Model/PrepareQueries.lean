import VoipMonitor.Library.PrefixOrder
import VoipMonitor.Library.Replace
import VoipMonitor.Library.SortedMap

/-!
# Preparing a batch of inserts (`__store_prepare_queries`, `sql_db_global.cpp`)

A query text holds a main insert and the inserts that belong to it, joined by a mark. The text is
cut at the mark, a placeholder for the id of the main insert is replaced in all parts, and the
inserts are collected. Inserts into the same columns of a table are put into one query with
several rows.
-/

namespace VoipMonitor.PrepareQueries
open VoipMonitor.Library

/-! ### The marks -/

def queryEnd : Bytes := ascii "_\\_'QE'_\\_;\n"

def queryEndSubst : Bytes := ascii "_\\_'Qe'_\\_;\n"

def codebookIdPrefix : Bytes := ascii "_\\_'CB_ID'_\\_:"

def codebookIdPrefixSubst : Bytes := ascii "_\\_'Cb_ID'_\\_:"

def mainInsert : Bytes := ascii ":MI:"

def mainInsertGroup : Bytes := ascii ":MIG:"

def nextInsert : Bytes := ascii ":NI:"

def nextInsertGroup : Bytes := ascii ":NIG:"

def mysqlIf : Bytes := ascii ":IF "

def mysqlEndif : Bytes := ascii ":ENDIF"

def mainInsertId : Bytes := ascii "@MI_NEW_ID"

def mainInsertIdOld : Bytes := ascii "@MI_OLD_ID"

def mainInsertId2 : Bytes := ascii "@MI_new_ID"

def mainInsertIdOld2 : Bytes := ascii "@MI_old_ID"

def valuesSep : Bytes := ascii " ) VALUES ( "

def rowSep : Bytes := ascii " ),( "

def rowEnd : Bytes := ascii " )"

/-! ### The inserts -/

/-- The functions of the database object that the preparation asks. `getAiId` gets the number of
the call too, for every call reserves an id. -/
structure DbData where
  getCbId : Bytes → Bytes → Nat
  getAiId : Nat → Bytes → Nat

/-- `tooLong` is `maxAllowedPacket && length * 1.1 > maxAllowedPacket`, computed in `double`. -/
structure Config where
  enableSetId : Bool
  enableMultipleRowsInsert : Bool
  tooLong : Nat → Bool
  tooLong_zero : tooLong 0 = false

/-- The characters of `escCharsMysql` and what stands behind the backslash for them. -/
def escapeOf (c : UInt8) : Option UInt8 :=
  if c = 39 ∨ c = 34 ∨ c = 92 then some c
  else if c = 10 then some 110
  else if c = 13 then some 114
  else if c = 0 then some 48
  else if c = 26 then some 90
  else none

def escapeChar (c : UInt8) : Bytes :=
  match escapeOf c with
  | some e => [92, e]
  | none => [c]

/-- The function `_sqlEscapeString` for MySQL. What is not valid for the converter (`check`) has
an underscore for every character that is not ASCII. -/
def sqlEscapeString (check : Bytes → Bool) (input : Bytes) : Bytes :=
  let escaped := (cString input).flatMap escapeChar
  if check escaped then escaped
  else escaped.map fun c => if 127 < c.toNat then 95 else c

def sqlEscapeStringBorder (check : Bytes → Bool) (input : Bytes) : Bytes :=
  39 :: (sqlEscapeString check input ++ [39])

def isNameChar (c : UInt8) : Bool :=
  (48 ≤ c && c ≤ 57) || (65 ≤ c && c ≤ 90) || (97 ≤ c && c ≤ 122) || c = 95 || c = 96

def isNumberChar (c : UInt8) : Bool :=
  (48 ≤ c && c ≤ 57) || c = 43 || c = 45 || c = 46 || c = 69 || c = 101

/-- A value of a row that is stored: a number, the placeholder for the id of the main insert, or
a text. -/
inductive Value where
  | number (text : Bytes) (text_ne : text ≠ []) (text_chars : ∀ c ∈ text, isNumberChar c = true)
  | mainInsertId
  | string (input : Bytes)

structure Insert where
  insertIgnore : Bool := false
  table : Bytes
  columns : List Bytes
  values : List Value
  table_name : ∀ c ∈ table, isNameChar c = true
  columns_name : ∀ column ∈ columns, ∀ c ∈ column, isNameChar c = true
  values_ne : values ≠ []

def Value.content (check : Bytes → Bool) : Value → Bytes
  | number text _ _ => text
  | mainInsertId => PrepareQueries.mainInsertId
  | string input => sqlEscapeStringBorder check input

def Insert.tableColumns (i : Insert) : Bytes :=
  ascii "INSERT " ++ (if i.insertIgnore then ascii "IGNORE " else []) ++ ascii "INTO " ++ i.table ++
    ascii " ( " ++ joinText [44] i.columns

/-- The function `insertQuery` with `implodeContent`. -/
def Insert.query (check : Bytes → Bool) (i : Insert) : Bytes :=
  i.tableColumns ++ valuesSep ++ joinText [44] (i.values.map (Value.content check)) ++ rowEnd

structure QueryText where
  main : Insert
  next : List Insert

def QueryText.parts (check : Bytes → Bool) (q : QueryText) : List Bytes :=
  (mainInsert ++ q.main.query check) :: q.next.map fun i => nextInsertGroup ++ i.query check

def QueryText.text (check : Bytes → Bool) (q : QueryText) : Bytes :=
  joinText queryEnd (q.parts check)

/-! ### Cutting -/

/-- The function `split` for several delimiters, without empty items. -/
def split (delims : List Bytes) (text : Bytes) : List Bytes :=
  delims.foldl (fun elems d => elems.flatMap fun e => (pieces d e).filter (· ≠ [])) [cString text]

def findFrom (text needle : Bytes) (start : Nat) : Option Nat :=
  (memmem (text.drop start) needle).map (start + ·)

def rfind (hay needle : Bytes) : Option Nat :=
  ((List.range (hay.length + 1)).filter fun i => decide (OccursAt needle hay i)).getLast?

def isTrimmed (c : UInt8) : Bool := c = 13 ∨ c = 10 ∨ c = 9 ∨ c = 32

def trim (text : Bytes) : Bytes :=
  ((text.dropWhile isTrimmed).reverse.dropWhile isTrimmed).reverse

/-- One round of the loop that replaces the marks of codebook values, `none` when there is no
mark. -/
def codebookRound (db : DbData) (query : Bytes) : Option Bytes :=
  match memmem query codebookIdPrefix with
  | none => none
  | some prefixPos =>
    let behind := prefixPos + codebookIdPrefix.length
    match findFrom query [58] behind with
    | none => none
    | some lengthPos =>
      match findFrom query [59] (lengthPos + 1) with
      | none => none
      | some valuePos =>
        let nameValueLength := (atol (query.drop behind) % 2 ^ 32).toNat
        let endPos := (lengthPos + nameValueLength) % 2 ^ 32
        let charAt (i : Nat) : UInt8 := query.getD i 0
        if endPos + 2 < query.length ∧ (charAt (endPos + 1) = 44 ∨ charAt (endPos + 1) = 41 ∨
            charAt (endPos + 1) = 32 ∧ charAt (endPos + 2) = 41) then
          let name := slice query (lengthPos + 1) (valuePos - lengthPos - 1)
          -- a length that ends before the value wraps around, and the value is all the rest
          let value :=
            if valuePos - lengthPos ≤ nameValueLength then
              slice query (valuePos + 1) (nameValueLength - (valuePos - lengthPos))
            else query.drop (valuePos + 1)
          let id := db.getCbId name value
          let idText := if id = 0 then ascii "NULL" else decimalText id
          some (query.take prefixPos ++ idText ++ query.drop (lengthPos + 1 + nameValueLength))
        else
          some (query.take prefixPos ++ codebookIdPrefixSubst ++ query.drop behind)

/-- The loop; every round takes one mark away. -/
def substCodebooks (db : DbData) : Nat → Bytes → Bytes
  | 0, query => query
  | fuel + 1, query =>
    match codebookRound db query with
    | none => query
    | some query' => substCodebooks db fuel query'

def tableMainRecord (queries : List Bytes) : Option Bytes :=
  queries.findSome? fun q =>
    if mainInsert <+: q ∧ memmem q mainInsertId ≠ none then
      match memmem q (ascii "INTO"), memmem q [40] with
      | some sepTable, some endSepTable =>
        if sepTable < endSepTable then
          some (trim (slice q (sepTable + 4) (endSepTable - sepTable - 4)))
        else none
      | _, _ => none
    else none

/-! ### Collecting -/

/-- The state of the loop over the query texts. -/
structure Prepared where
  ig : List Bytes := []
  queriesList : List Bytes := []
  counterQueriesWithNextInsertGroup : Nat := 0
  aiCalls : Nat := 0

/-- The inserts go to `ig` when they have one of the prefixes; the other queries stay. -/
def takeInserts (prefixes : List Bytes) (queries : List Bytes) : List Bytes × List Bytes :=
  queries.foldl
    (fun (ig, rest) q =>
      match prefixes.find? fun p => decide (p <+: q) with
      | some p => (ig ++ [q.drop p.length], rest)
      | none => (ig, rest ++ [q]))
    ([], [])

/-- An `:IF` that is followed by its `:ENDIF` is removed, and counted if it reads the old id. -/
def removeIfs : Nat → List Bytes → Nat × List Bytes
  | counter, q :: q' :: queries =>
    if mysqlIf <+: q ∧ mysqlEndif <+: q' then
      removeIfs (if 0 < counter ∧ memmem q mainInsertIdOld2 ≠ none then counter - 1 else counter)
        queries
    else
      let (counter', rest) := removeIfs counter (q' :: queries)
      (counter', q :: rest)
  | counter, queries => (counter, queries)

/-- The query without its prefix. -/
def stripPrefix (q : Bytes) : Bytes :=
  match [mainInsert, mainInsertGroup, nextInsert, nextInsertGroup].find? fun p => decide (p <+: q) with
  | some p => q.drop p.length
  | none => q

/-- The branch without an id of the main record: the placeholders become variables with a number. -/
def prepareWithVariable (s : Prepared) (queries : List Bytes) : Prepared × List Bytes :=
  let n := (s.counterQueriesWithNextInsertGroup + 1) % 2 ^ 32
  let replaced := queries.map fun q =>
    replaceAll mainInsertId (mainInsertId2 ++ ascii "_" ++ decimalText n) q
  let counterOld := (replaced.filter fun q =>
    decide (mainInsertIdOld <:+: q ∧ ¬nextInsertGroup <+: q)).length
  let replaced := replaced.map fun q =>
    replaceAll mainInsertIdOld (mainInsertIdOld2 ++ ascii "_" ++ decimalText n) q
  let (ig, rest) := takeInserts [nextInsertGroup] replaced
  let (counterOld, rest) := removeIfs counterOld rest
  let rest :=
    if counterOld = 1 then rest.eraseP fun q => decide (ascii "set " ++ mainInsertIdOld2 <+: q)
    else rest
  ({ s with ig := s.ig ++ ig, counterQueriesWithNextInsertGroup := n }, rest)

def prepareText (cfg : Config) (db : DbData) (s : Prepared) (text : Bytes) : Prepared :=
  let queries := split [queryEnd, queryEndSubst] text
  let queries :=
    if cfg.enableSetId then queries.map fun q => substCodebooks db q.length q else queries
  let table := if cfg.enableSetId then tableMainRecord queries else none
  let direct (p : Prepared × List Bytes) : Prepared :=
    { p.1 with queriesList := p.1.queriesList ++ p.2.map stripPrefix }
  match table with
  | some table =>
    let id := decimalText (db.getAiId s.aiCalls table)
    let s := { s with aiCalls := s.aiCalls + 1 }
    if cfg.enableMultipleRowsInsert then
      let (ig, rest) :=
        takeInserts [mainInsert, nextInsertGroup] (queries.map (replaceAll mainInsertId id))
      direct ({ s with ig := s.ig ++ ig }, rest)
    else direct (s, queries)
  | none =>
    if cfg.enableMultipleRowsInsert then
      if queries ≠ [] ∧ ∀ q ∈ queries, mainInsertGroup <+: q then
        { s with ig := s.ig ++ queries.map (List.drop mainInsertGroup.length) }
      else if ∃ q ∈ queries.tail, nextInsertGroup <+: q then
        direct (prepareWithVariable s queries)
      else direct (s, queries)
    else direct (s, queries)

/-! ### Grouping -/

/-- The order of the keys of a `map<string, …>`. -/
def textLt (a b : Bytes) : Bool := decide (codes a < codes b)

def cutInsert (query : Bytes) : Option (Bytes × Bytes) :=
  match memmem query valuesSep, rfind query rowEnd with
  | some sepValues, some endSep =>
    if sepValues < endSep then
      some (query.take sepValues,
        if sepValues + valuesSep.length ≤ endSep then
          slice query (sepValues + valuesSep.length) (endSep - sepValues - valuesSep.length)
        else query.drop (sepValues + valuesSep.length))
    else none
  | _, _ => none

/-- The rows by their table and columns, and the queries that are no such insert. -/
def groupInserts (ig : List Bytes) : List (Bytes × List Bytes) × List Bytes :=
  ig.foldl
    (fun (nigMap, others) query =>
      match cutInsert query with
      | some e => (SortedMap.push textLt nigMap e, others)
      | none => (nigMap, others ++ [query]))
    ([], [])

def packRows (tooLong : Nat → Bool) : Bytes → List Bytes → List Bytes
  | valuesStr, [] => [valuesStr]
  | valuesStr, values :: rest =>
    if tooLong valuesStr.length then valuesStr :: packRows tooLong values rest
    else packRows tooLong (if valuesStr = [] then values else valuesStr ++ rowSep ++ values) rest

def storePrepareQueries (cfg : Config) (db : DbData) (texts : List Bytes) : List Bytes :=
  let s := texts.foldl (prepareText cfg db) {}
  let (nigMap, others) := groupInserts s.ig
  s.queriesList ++ others ++ nigMap.flatMap fun (key, values) =>
    (packRows cfg.tooLong [] values).map fun valuesStr => key ++ valuesSep ++ valuesStr ++ rowEnd

end VoipMonitor.PrepareQueries
