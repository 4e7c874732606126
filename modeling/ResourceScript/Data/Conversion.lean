import ResourceScript.Data.Display
import ResourceScript.Format.Xml.Written
import ResourceScript.Text.Case
import ResourceScript.Text.Utf8
/-!
# What data counts as

Every value counts as a text, a number, a truth value, bytes and a list. These functions say as
what, for data as it shows at one moment; they change nothing.
-/

set_option autoImplicit false

namespace ResourceScript

open Text

namespace Data

/-- A key of plain data: scalars are keys themselves. -/
def scalarKey? : Data → Option Scalar
  | null => some .null
  | bool b => some (.bool b)
  | int n => some (.int n)
  | real x => some (.real x)
  | text s => some (.text s)
  | _ => none

/-- The text of what is neither null nor a container. -/
def leafText : Data → Except Fault (List Char)
  | bool b => .ok (if b then "true" else "false").toList
  | atom (.bytes data) => .ok (Utf8.decode data)
  | buffer data => .ok (Utf8.decode data)
  | atom (.kind k) => .ok k.qualifiedName.toList
  | atom (.document d) => .ok d.text
  | other => other.written true

mutual

/-- The text of data: lists are the texts of their items with spaces between, maps are JSON. Null
has no text of its own. -/
def render : Data → Except Fault (List Char)
  | null => .ok []
  | list items => do return joinWith [' '] (← renderItems items)
  | tuple items => do return joinWith [' '] (← renderItems items)
  | set items => do return joinWith [' '] (← renderItems items)
  | frozen items => do return joinWith [' '] (← renderItems items)
  | atom (.url u) => .ok (joinWith [' '] (u.parts.map String.toList))
  | map entries => do Json.write (.map (mapOfEntries Scalar.sameKey (← plainEntries entries)))
  | page entries _ => do Json.write (.map (mapOfEntries Scalar.sameKey (← plainEntries entries)))
  | scope entries => do Json.write (.map (mapOfEntries Scalar.sameKey (← plainEntries entries)))
  | cycle => .error .recursion
  | other => other.leafText

/-- The texts of items; here null is spelled out. -/
def renderItems : List Data → Except Fault (List (List Char))
  | [] => .ok []
  | null :: rest => do return "null".toList :: (← renderItems rest)
  | item :: rest => do return (← render item) :: (← renderItems rest)

/-- Data as plain data: compound data is mapped part by part, all that is not plain becomes text. -/
def toPlain : Data → Except Fault Plain
  | null => .ok .null
  | bool b => .ok (.bool b)
  | int n => .ok (.int n)
  | real x => .ok (.real x)
  | text s => .ok (.text s)
  | list items => do return .list (← plainItems items)
  | tuple items => do return .list (← plainItems items)
  | set items => do return .list (← plainItems items)
  | frozen items => do return .list (← plainItems items)
  | atom (.url u) => .ok (.list (u.parts.map .text))
  | map entries => do return .map (mapOfEntries Scalar.sameKey (← plainEntries entries))
  | page entries _ => do return .map (mapOfEntries Scalar.sameKey (← plainEntries entries))
  | scope entries => do return .map (mapOfEntries Scalar.sameKey (← plainEntries entries))
  | cycle => .error .recursion
  | other => do return .text (String.ofList (← other.leafText))

/-- Items as plain data. -/
def plainItems : List Data → Except Fault (List Plain)
  | [] => .ok []
  | item :: rest => do return (← toPlain item) :: (← plainItems rest)

/-- Entries as plain data; keys that are no scalars become their text. -/
def plainEntries : List (Data × Data) → Except Fault (List (Scalar × Plain))
  | [] => .ok []
  | (key, value) :: rest => do
    let key ← match scalarKey? key with
      | some scalar => pure scalar
      | none => do pure (.text (String.ofList (← render key)))
    return (key, ← toPlain value) :: (← plainEntries rest)

end

/-- The plain text of data, null being empty. -/
def stringify (data : Data) : Except Fault String :=
  data.render.map String.ofList

/-- The text that data counts as, null being spelled out. -/
def toText : Data → Except Fault String
  | null => .ok "null"
  | data => data.stringify

/-- The bytes that data counts as: its text in UTF-8, or its own bytes. -/
def toBytes : Data → Except Fault (List UInt8)
  | atom (.bytes data) => .ok data
  | buffer data => .ok data
  | null => .ok []
  | data => do return Utf8.encode (← data.toText).toList

/-! ### Lists -/

/-- The pieces of a text as a list: its lines when it has several, else the parts between commas. -/
def textItems (s : String) : List String :=
  let trimmed := trim s.toList
  if trimmed.isEmpty then []
  else (splitOn (if trimmed.contains '\n' then '\n' else ',') trimmed).map String.ofList

/-- Bytes as integers. -/
def byteItems (bytes : List UInt8) : List Data :=
  bytes.map fun b => int b.toNat

/-- The items of the list that data counts as. -/
def items : Data → List Data
  | null => []
  | list items => items
  | tuple items => items
  | set items => items
  | frozen items => items
  | side _ items => items
  | text s => (textItems s).map text
  | atom (.bytes data) => byteItems data
  | buffer data => byteItems data
  | atom (.url u) => u.parts.map text
  | other => [other]

/-- Whether data is a sequence or a set. -/
def isSequence : Data → Bool
  | list _ | tuple _ | set _ | frozen _ | atom (.url _) => true
  | _ => false

/-! ### Numbers -/

/-- The number that data is or spells: truth values are 0 and 1, texts may be numerals, moments are
their seconds since 1970. -/
def numeric? : Data → Except Fault (Option Number)
  | bool b => .ok (some (.int (if b then 1 else 0)))
  | int n => .ok (some (.int n))
  | real x => .ok (some (.real x))
  | text s => Numeral.read s.toList
  | atom (.moment m) => do return some (.real (← m.timestamp))
  | _ => .ok none

/-- The number of a text: what it spells or else its length. -/
def textNumber (s : String) : Except Fault Number := do
  match ← Numeral.read s.toList with
  | some n => return n
  | none => return .int s.toList.length

/-- The number of a collection: that of its only item when that is a number, else its size. -/
def collectionNumber : List Data → Except Fault Number
  | [] => .ok (.int 0)
  | [item] => do
    match ← item.numeric? with
    | some n => return n
    | none => return .int 1
  | items => .ok (.int items.length)

/-- The number that data counts as. -/
def toNumber (data : Data) : Except Fault Number := do
  match ← data.numeric? with
  | some n => return n
  | none =>
    match data with
    | null => return .int 0
    | text s => return .int s.toList.length
    | atom (.bytes bytes) => return .int bytes.length
    | buffer bytes => return .int bytes.length
    | list items | tuple items | set items | frozen items | side _ items => collectionNumber items
    | map entries | page entries _ | scope entries => collectionNumber (entries.map Prod.snd)
    | atom (.url u) => collectionNumber (u.parts.map text)
    | other => textNumber (← other.toText)

/-- The double that data counts as. -/
def toReal (data : Data) : Except Fault Double := do
  (← data.toNumber).toDouble

/-- The integer that data counts as. -/
def toInt (data : Data) : Except Fault Int := do
  (← data.toNumber).toInt

/-! ### Truth -/

/-- The words that count as false. -/
def falseWords : List String :=
  ["false", "no", "0", "none", "empty"]

/-- A text counts as true unless it is blank or one of the words for false. -/
def textTruth (s : String) : Bool :=
  let word := String.ofList (lower (trim s.toList))
  word ≠ "" && !falseWords.contains word

/-- The truth value that data counts as. -/
def truth : Data → Except Fault Bool
  | null => .ok false
  | bool b => .ok b
  | int n => .ok (n != 0)
  | real x => .ok (!x.isZero)
  | text s => .ok (textTruth s)
  | atom (.bytes data) => .ok (!data.isEmpty)
  | buffer data => .ok (!data.isEmpty)
  | list items | tuple items | set items | frozen items | side _ items => .ok (!items.isEmpty)
  | map entries | page entries _ | scope entries => .ok (!entries.isEmpty)
  | atom (.url _) => .ok true
  | cycle => .ok true
  | other => do return textTruth (← other.toText)

end Data

end ResourceScript
