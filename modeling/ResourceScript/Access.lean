import ResourceScript.Scope
/-!
# Structured access

Reading, putting, posting and deleting by key: entries of maps and scopes, positions of sequences,
fields of host objects. A key is a text. In a list it is `first`, `last` or a numeral that is not
negative; putting beyond the end pads with null.
-/

set_option autoImplicit false

namespace ResourceScript

open Text

/-- The position that a key designates in a sequence of a given length: `first`, `last`, or a
numeral. -/
def position? (length : Nat) (key : String) : Except Fault (Option Nat) :=
  if key = "first" then .ok (some 0)
  else if key = "last" then .ok (if length = 0 then none else some (length - 1))
  else
    let digits := Numeral.dropFinalLineFeed key.toList
    if Numeral.isWhole digits then do
      let n ← Numeral.wholeValue digits
      return if 0 ≤ n then some n.toNat else none
    else .ok none

/-- The integer that a key spells. -/
def integerKey? (key : String) : Except Fault (Option Int) :=
  let digits := Numeral.dropFinalLineFeed key.toList
  if Numeral.isWhole digits then (Numeral.wholeValue digits).map some else .ok none

namespace Store

/-- The kind of a value. -/
def kindOf (s : Store) : Value → Kind
  | .atom a => a.kindOf
  | .tuple _ => .tuple
  | .frozen _ => .frozenSet
  | .call .. => .expression
  | .resource _ => .resource
  | .scope _ => .scope
  | .cell n =>
    match s.cell n with
    | .list _ => .list
    | .map _ => .map
    | .page .. => .page
    | .set _ => .set
    | .side which _ => .side which
    | .buffer _ => .buffer
    | .object info _ => .host info

/-- The entries of a map-like value. -/
def entries? (s : Store) : Value → Option (List (Value × Value))
  | .cell n => (s.cell n).entries?
  | .scope n => some (s.visible n)
  | _ => none

/-- Bytes as integers. -/
def byteValues (bytes : List UInt8) : List Value :=
  bytes.map fun b => .int b.toNat

/-- The items of a sequence or set, the characters of a text, the bytes of a byte sequence. -/
def elements? (s : Store) : Value → Option (List Value)
  | .text t => some (t.toList.map fun c => .text c.toString)
  | .atom (.bytes data) => some (byteValues data)
  | .atom (.url u) => some (u.parts.map .text)
  | .tuple items => some items
  | .frozen items => some items
  | .cell n =>
    match s.cell n with
    | .list items => some items
    | .set items => some items
    | .side which owner => some (s.sideOf which owner)
    | .buffer bytes => some (byteValues bytes)
    | _ => none
  | _ => none

/-- The value under a key of a map: under the text itself or else under the integer that it
spells. -/
def getEntry (s : Store) (entries : List (Value × Value)) (key : String) :
    Except Fault Value := do
  match findEntry s.same (.text key) entries with
  | some value => return value
  | none =>
    match ← integerKey? key with
    | some n => return (findEntry s.same (.int n) entries).getD .null
    | none => return .null

/-- The element of a sequence under a key: its size or what is at a position. -/
def getElement (elements : List Value) (key : String) : Except Fault Value := do
  if key = "size" || key = "length" || key = "count" then return .int elements.length
  match ← position? elements.length key with
  | some i => return (elements[i]?).getD .null
  | none => return .null

/-- Whether fields of an object can be read. -/
def showsFields (info : ClassInfo) : Bool :=
  info.access != .hidden

/-- Reads a key of a value. What is not there is null. -/
def getValue (s : Store) (parent : Value) (key : String) : Except Fault Value :=
  if key = "type" then
    .ok (.atom (.kind (if parent.isNull then .object else s.kindOf parent)))
  else match s.entries? parent with
    | some entries => s.getEntry entries key
    | none =>
      match s.elements? parent with
      | some elements => getElement elements key
      | none =>
        match parent with
        | .cell n =>
          match s.cell n with
          | .object info fields =>
            .ok (if showsFields info then (fields.lookup key).getD .null else .null)
          | _ => .ok .null
        | .atom (.kind (.host info)) =>
          if (info.access = .record || info.access = .frozenRecord) && info.fields.contains key then
            .error .noAttribute
          else .ok .null
        | _ => .ok .null

/-- Replaces the value of a field. -/
def setField (name : String) (value : Value) (fields : List (String × Value)) :
    List (String × Value) :=
  fields.map fun (field, old) => if field = name then (field, value) else (field, old)

/-- A list with a value at a position; the positions between the end and it hold null. -/
def putItem (items : List Value) (position : Nat) (value : Value) : List Value :=
  (items ++ List.replicate (position + 1 - items.length) Value.null).set position value

/-- The byte of a value: an integer from 0 to 255. -/
def byte? : Value → Except Fault UInt8
  | .bool b => .ok (if b then 1 else 0)
  | .int n => if 0 ≤ n ∧ n < 256 then .ok (UInt8.ofNat n.toNat) else .error .value
  | _ => .error .type

/-- Puts a value under a key of the content of a container; `none` when it has no such place. -/
def putContent (s : Store) (key : String) (value : Value) : Cell → Except Fault (Option Cell)
  | .map entries => .ok (some (.map (putEntry s.same (.text key) value entries)))
  | .page entries source => .ok (some (.page (putEntry s.same (.text key) value entries) source))
  | .list items => do
    return (← position? items.length key).map fun i => .list (putItem items i value)
  | .buffer bytes => do
    match ← position? bytes.length key with
    | none => return none
    | some i =>
      if bytes.length ≤ i then .error .type
      else return some (.buffer (bytes.set i (← byte? value)))
  | .object info fields =>
    .ok (if (info.access = .exposed || info.access = .record) && (fields.lookup key).isSome then
        some (.object info (setField key value fields))
      else none)
  | .set _ | .side .. => .ok none

/-- Puts a value under a key. The answer tells whether there was a place for it. -/
def putValue (s : Store) (parent : Value) (key : String) (value : Value) :
    Except Fault (Store × Bool) :=
  match parent with
  | .scope n => .ok ((s.bind n (.text key) value).1, true)
  | .cell n => do
    match ← s.putContent key value (s.cell n) with
    | some content => return (s.setCell n content, true)
    | none => return (s, false)
  | _ => .ok (s, false)

/-- Adds an item to a set. -/
def addItem (s : Store) (items : List Value) (item : Value) : List Value :=
  if items.any (s.same item) then items else items ++ [item]

/-- Posts a value to a list or a set. The answer tells whether the parent is one. -/
def postValue (s : Store) (parent value : Value) : Except Fault (Store × Bool) :=
  match parent with
  | .cell n =>
    match s.cell n with
    | .list items => .ok (s.setCell n (.list (items ++ [value])), true)
    | .buffer bytes => do return (s.setCell n (.buffer (bytes ++ [← byte? value])), true)
    | .set items =>
      if ((s.view value).unhashable?).isSome then .error .type
      else .ok (s.setCell n (.set (s.addItem items value)), true)
    | _ => .ok (s, false)
  | _ => .ok (s, false)

/-- Deletes the entry of a text key; `none` when there is none. -/
def deleteEntry (s : Store) (key : String) (entries : List (Value × Value)) :
    Option (List (Value × Value)) :=
  (findEntry s.same (.text key) entries).map fun _ => dropEntry s.same (.text key) entries

/-- Deletes a key from the content of a container; `none` when it has no such place. -/
def deleteContent (s : Store) (key : String) : Cell → Except Fault (Option Cell)
  | .map entries => .ok ((s.deleteEntry key entries).map .map)
  | .page entries source => .ok ((s.deleteEntry key entries).map fun rest => .page rest source)
  | .list items => do
    match ← position? items.length key with
    | some i => return if i < items.length then some (.list (items.eraseIdx i)) else none
    | none => return none
  | .buffer bytes => do
    match ← position? bytes.length key with
    | some i => return if i < bytes.length then some (.buffer (bytes.eraseIdx i)) else none
    | none => return none
  | _ => .ok none

/-- Deletes a key. The answer tells whether it was there. -/
def deleteValue (s : Store) (parent : Value) (key : String) : Except Fault (Store × Bool) :=
  match parent with
  | .scope n =>
    match s.unbind? n (.text key) with
    | some (store, _) => .ok (store, true)
    | none => .ok (s, false)
  | .cell n => do
    match ← s.deleteContent key (s.cell n) with
    | some content => return (s.setCell n content, true)
    | none => return (s, false)
  | _ => .ok (s, false)

end Store

namespace Script

/-- A key as text. -/
def keyText (key : Value) : Task String := do
  match key with
  | .text s => return s
  | _ => textOf key

/-- Reads a key of a value. -/
def getValue (parent key : Value) : Task Value := do
  let key ← keyText key
  ofExcept ((← store).getValue parent key)

/-- Applies a change to the store. -/
def change (result : Except Fault (Store × Bool)) : Task Bool := do
  let (store, done) ← ofExcept result
  setStore store
  return done

/-- Puts a value under a key. -/
def putValue (parent key value : Value) : Task Bool := do
  let key ← keyText key
  change ((← store).putValue parent key value)

/-- Posts a value. -/
def postValue (parent value : Value) : Task Bool := do
  change ((← store).postValue parent value)

/-- Deletes a key. -/
def deleteValue (parent key : Value) : Task Bool := do
  let key ← keyText key
  change ((← store).deleteValue parent key)

/-! ### Collections -/

/-- The items of the list that a value counts as. -/
def itemsOf (value : Value) : Task (List Value) := do
  match value with
  | .null => return []
  | .text s => return (Data.textItems s).map .text
  | _ => return ((← store).elements? value).getD [value]

/-- The list that a value counts as: a list itself, or a new list. -/
def toList (value : Value) : Task Value := do
  match (← store).kindOf value with
  | .list => return value
  | _ => newList (← itemsOf value)

/-- The distinct values of a list in order. -/
def distinct (items : List Value) : Task (List Value) := do
  let s ← store
  return items.foldl s.addItem []

/-- The set of items that are gathered from a value of the given kind. -/
def setOf (source : Kind) (items : List Value) : Task Value := do
  match ← items.findSomeM? fun item => do return (← view item).unhashable? with
  | some element => fail (.conversion (.unhashable source.name element.name))
  | none => newCell (.set (← distinct items))

/-- The set that a value counts as: a set itself, or a new set. -/
def toSet (value : Value) : Task Value := do
  match (← store).kindOf value with
  | .set => return value
  | kindOfValue => setOf kindOfValue (← itemsOf value)

/-- The collection that a value counts as: a sequence or set itself, or a new list. -/
def toCollection (value : Value) : Task Value := do
  match (← store).kindOf value with
  | .list | .tuple | .set | .frozenSet | .side _ | .url => return value
  | _ => toList value

/-- Items as entries under their positions. -/
def positionEntries (items : List Value) : List (Value × Value) :=
  items.mapIdx fun i item => (.text (toString i), item)

/-- The entries of the map that a value counts as. -/
def entriesOf (value : Value) : Task (List (Value × Value)) := do
  let s ← store
  match s.entries? value with
  | some entries => return entries
  | none =>
    match value with
    | .null => return []
    | .cell n =>
      match s.cell n with
      | .object info fields =>
        if Store.showsFields info then return fields.map fun (name, field) => (.text name, field)
        else return [(.text "value", value)]
      | .list items | .set items => return positionEntries items
      | _ => return [(.text "value", value)]
    | .tuple items | .frozen items => return positionEntries items
    | .atom (.url u) => return positionEntries (u.parts.map .text)
    | _ => return [(.text "value", value)]

/-- The map that a value counts as: a map-like value itself, or a new map. -/
def toMap (value : Value) : Task Value := do
  match (← store).kindOf value with
  | .map | .page | .scope => return value
  | _ => newMap (← entriesOf value)

end Script

end ResourceScript
