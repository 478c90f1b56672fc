import VoipMonitor.Library.PrefixOrder

/-!
# JSON export (`JsonExport`, `tools_global.cpp`)

A tree is built with `add`, `add_int`, `addArray` and `addObject`. `getJson` of a container and of
an item with content (`JsonExport_template`) each write their own name; a missing name is an empty
one.
-/

namespace VoipMonitor.JsonExport
open VoipMonitor.Library

/-- `eTypeItem`. -/
inductive TypeItem where
  | object | array | number | string | null | json
deriving DecidableEq, Repr

/-- An item by the function that added it; the plain `add` of a string has the type `string`. -/
inductive Item where
  | add (typeItem : TypeItem) (name content : Bytes)
  | addNull (name : Bytes)
  | addInt (name : Bytes) (content : Int)
  | addArray (name : Bytes) (items : List Item)
  | addObject (name : Bytes) (items : List Item)

def escapeChar (c : UInt8) : Bytes :=
  if c = 92 then [92, 92]
  else if c = 34 then [92, 34]
  else if c = 47 then [92, 47]
  else if c = 8 then [92, 98]
  else if c = 12 then [92, 102]
  else if c = 10 then [92, 110]
  else if c = 13 then [92, 114]
  else if c = 9 then [92, 116]
  else [c]

def jsonStringEscape (str : Bytes) : Bytes := (cString str).flatMap escapeChar

/-- An `int64_t` in a stream. -/
def intText (content : Int) : Bytes :=
  if content < 0 then 45 :: decimalText content.natAbs else decimalText content.natAbs

def nameText (name : Bytes) : Bytes := 34 :: (name ++ [34, 58])

/-- `JsonExport_template::getJson` with the text of the content. -/
def templateJson (parent typeItem : TypeItem) (name content : Bytes) : Bytes :=
  (if parent ≠ .array ∨ name ≠ [] then nameText name else []) ++
    if typeItem = .null then [110, 117, 108, 108]
    else if typeItem = .string then 34 :: (content ++ [34])
    else content

/-- `JsonExport::getJson` with the texts of the items in `body`. -/
def containerJson (typeItem : TypeItem) (name body : Bytes) : Bytes :=
  (if name ≠ [] then nameText name else []) ++
    ((if typeItem = .object then [123] else if typeItem = .array then [91] else []) ++
      (body ++ if typeItem = .object then [125] else if typeItem = .array then [93] else []))

mutual

def Item.getJson (parent : TypeItem) : Item → Bytes
  | .add typeItem name content => templateJson parent typeItem name (jsonStringEscape content)
  | .addNull name => templateJson parent .null name [110, 117, 108, 108]
  | .addInt name content => templateJson parent .number name (intText content)
  | .addArray name items => containerJson .array name (itemsJson .array true items)
  | .addObject name items => containerJson .object name (itemsJson .object true items)

/-- The loop over the items; `first` is `iter == items.begin()`. -/
def itemsJson (typeItem : TypeItem) (first : Bool) : List Item → Bytes
  | [] => []
  | item :: items =>
    (if first then [] else [44]) ++ (item.getJson typeItem ++ itemsJson typeItem false items)

end

/-- `getJson` of the root, which has no name; its type is `object` until it is set to `array`. -/
def rootJson (isArray : Bool) (items : List Item) : Bytes :=
  containerJson (if isArray then .array else .object) []
    (itemsJson (if isArray then .array else .object) true items)

end VoipMonitor.JsonExport
