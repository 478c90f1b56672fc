import VoipMonitor.Library.Text

/-!
# Rows as text (`SqlDb_row::implodeContentTypeToCsv`, `cDbStrings`)

A row for the database is written as one line. Each field is a quoted text that begins with the
code of its type, or a letter for null. The reader takes a `",` for the end of a field when what
follows looks like the begin of one.
-/

namespace VoipMonitor.Csv
open VoipMonitor.Library

/-- `eTypeCodebook`. -/
inductive TypeCodebook
  | ua
  | sipResponse
  | sipRequest
  | reasonSip
  | reasonQ850
  | contenttype

def TypeCodebook.code : TypeCodebook → Nat
  | .ua => 1
  | .sipResponse => 2
  | .sipRequest => 3
  | .reasonSip => 4
  | .reasonQ850 => 5
  | .contenttype => 6

/-- `eInternalFieldType`, with the codebook of a codebook string. -/
inductive FieldType
  | na
  | string
  | int
  | intU
  | double
  | ip
  | calldate
  | sql
  | cbOld
  | cbString (cbType : TypeCodebook)

def FieldType.code : FieldType → Nat
  | .na => 0
  | .string => 1
  | .int => 2
  | .intU => 3
  | .double => 4
  | .ip => 5
  | .calldate => 6
  | .sql => 7
  | .cbOld => 8
  | .cbString cbType => 0x10 + cbType.code

def iftNull : Nat := 0x20

/-- `SqlDb_rowField`: the members that are written. `vIp` is the text of `ifv.v_ip`, `vIntU` is
`ifv.v._int_u`. -/
structure RowField where
  null : Bool
  content : Bytes
  type : FieldType
  vIp : Bytes
  vIntU : Nat

def mysqlVarPrefix : Bytes := ascii "_\\_'SQL'_\\_:"

def mysqlCodebookIdPrefix : Bytes := ascii "_\\_'CB_ID'_\\_:"

/-- The character `'0' + code`. -/
def codeChar (code : Nat) : UInt8 := UInt8.ofNat (48 + code)

def RowField.getContentForCsv (f : RowField) : Bytes :=
  match f.type with
  | .ip => f.vIp
  | .calldate => ascii (toString f.vIntU)
  | _ => f.content

/-- The loop that puts a backslash in front of each `",` that has none. The first argument is the
character in front. -/
def escapeLoop : UInt8 → Bytes → Bytes
  | _, [] => []
  | before, c :: content =>
    if c = 34 ∧ content.head? = some 44 ∧ before ≠ 92 then 92 :: 34 :: escapeLoop 34 content
    else c :: escapeLoop c content

def hasQuoteComma : Bytes → Bool
  | [] => false
  | c :: content => (c = 34 ∧ content.head? = some 44) || hasQuoteComma content

def escape (content : Bytes) : Bytes :=
  if hasQuoteComma content then escapeLoop 0 content else content

def quoted (code : Nat) (text : Bytes) : Bytes := 34 :: codeChar code :: 58 :: text ++ [34]

/-- One field of `implodeContentTypeToCsv`. -/
def implodeField (enableSqlString : Bool) (f : RowField) : Bytes :=
  if f.null then [codeChar iftNull]
  else if enableSqlString = true ∧ f.content.take 12 = mysqlVarPrefix then
    quoted FieldType.sql.code (f.content.drop 12)
  else if f.content.take 14 = mysqlCodebookIdPrefix then quoted FieldType.cbOld.code f.content
  else
    match f.type with
    | .cbString cbType => quoted (FieldType.cbString cbType).code (escape f.content)
    | type => quoted type.code f.getContentForCsv

def implodeContentTypeToCsv (enableSqlString : Bool) : List RowField → Bytes
  | [] => []
  | [f] => implodeField enableSqlString f
  | f :: row => implodeField enableSqlString f ++ 44 :: implodeContentTypeToCsv enableSqlString row

/-- The text from a `",` on goes on like behind a field. -/
def looksLikeEnd (text : Bytes) : Prop :=
  (2 < text.length ∧ byteAt text 2 = 48 + iftNull) ∨
    (3 < text.length ∧ byteAt text 2 = 34 ∧ byteAt text 4 = 58 ∧ 48 ≤ byteAt text 3 ∧
      byteAt text 3 < 48 + iftNull)

instance (text : Bytes) : Decidable (looksLikeEnd text) :=
  inferInstanceAs (Decidable (_ ∨ _))

/-- The search for the end of a quoted field, one `",` after another: where it is, and whether one
with a backslash in front was met. The second argument is the character in front of the text. -/
def nextSep (header : Bool) : UInt8 → Bytes → Option Nat × Bool
  | _, [] => (none, false)
  | before, c :: text =>
    if c = 34 ∧ text.head? = some 44 then
      if before = 92 then
        let r := nextSep header c text
        (r.1.map (fun pos => pos + 1), true)
      else if header = true ∨ looksLikeEnd (c :: text) then (some 0, false)
      else
        let r := nextSep header c text
        (r.1.map (fun pos => pos + 1), r.2)
    else
      let r := nextSep header c text
      (r.1.map (fun pos => pos + 1), r.2)

/-- The loop of `add` that takes the backslashes away. -/
def unescape : Bytes → Bytes
  | [] => []
  | c :: text =>
    if c = 92 ∧ text.take 2 = [34, 44] then unescape text else c :: unescape text

def addString (text : Bytes) (needUnescape : Bool) : Bytes :=
  if needUnescape then unescape text else text

/-- The loop of `explodeCsv` over the rest of the text. The first argument bounds the rounds, then
comes the character in front of the rest. -/
def explodeLoop (header : Bool) : Nat → UInt8 → Bytes → List Bytes
  | 0, _, _ => []
  | _, _, [] => []
  | fuel + 1, before, c :: text =>
    if c = 34 then
      match nextSep header before (c :: text) with
      | (some pos, needUnescape) =>
        addString (text.take (pos - 1)) needUnescape ::
          explodeLoop header fuel 44 (text.drop (pos + 1))
      | (none, needUnescape) => [addString text.dropLast needUnescape]
    else
      let pos := (c :: text).findIdx (fun c => c = 44)
      (c :: text).take pos :: explodeLoop header fuel 44 ((c :: text).drop (pos + 1))

def explodeCsv (csv : Bytes) (header : Bool) : List Bytes :=
  let csv := cString csv
  let csv := (csv.reverse.dropWhile (fun c => c = 13 || c = 10)).reverse
  explodeLoop header csv.length 0 csv

/-- What `setZeroTerm` and `setNextData` make of a string: `flags`, and `str` unless it is null. -/
structure NextData where
  flags : Int
  str : Option Bytes
deriving DecidableEq, Repr

def setNextData (text : Bytes) : NextData :=
  ⟨(text.headD 0).toInt8.toInt - 48,
    if text[1]? = some 58 then some (cString (text.drop 2)) else none⟩

def readRow (csv : Bytes) : List NextData := (explodeCsv csv false).map setNextData

end VoipMonitor.Csv
