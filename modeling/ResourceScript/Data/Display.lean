import ResourceScript.Value
import ResourceScript.Format.Json
/-!
# Displays of data

Three written forms of data. The *literal* form shows the kind of everything and quotes text. The
*display* is the literal form except for what has a text of its own. The *printed* form is source
text of the language: scalars and calls print as they are typed, maps spread over lines.

Data that contains itself has no printed form. Neither has data that nests too deeply for the
printer: data of which only a part can be printed (`Data.cut`).
-/

set_option autoImplicit false

namespace ResourceScript

open Text

/-- Joins written forms by a comma and a space. -/
def commaJoin (parts : List (List Char)) : List Char :=
  joinWith ", ".toList parts

namespace Atom

/-- The numbers of a moment that its literal form lists: seconds and microseconds only when they
are not zero. -/
def timeNumbers (t : TimeOfDay) : List Nat :=
  [t.hour, t.minute] ++
    (if t.micro ≠ 0 then [t.second, t.micro] else if t.second ≠ 0 then [t.second] else [])

/-- Natural numbers as arguments. -/
def numberArguments (numbers : List Nat) : List Char :=
  commaJoin (numbers.map Decimal.natDigits)

/-- The literal form of an offset. -/
def offsetLiteral (offset : Int) : List Char :=
  if offset = 0 then "datetime.timezone.utc".toList
  else
    let day : Int := if offset < 0 then -1 else 0
    let seconds := (offset - day * 86400).toNat
    "datetime.timezone(datetime.timedelta(".toList
      ++ (if day = 0 then [] else "days=-1, ".toList)
      ++ "seconds=".toList ++ Decimal.natDigits seconds ++ "))".toList

/-- The literal form of an atom. -/
def literal : Atom → Except Fault (List Char)
  | null => .ok "None".toList
  | bool b => .ok (if b then "True" else "False").toList
  | int n => Numeral.intText n
  | real x => .ok (RealFormat.plain.text x)
  | text s => .ok (quoted s.toList)
  | bytes data => .ok (quotedBytes data)
  | moment m =>
    .ok ("datetime.datetime(".toList
      ++ numberArguments ([m.day.year, m.day.month, m.day.day] ++ timeNumbers m.time)
      ++ (match m.offset with
          | none => []
          | some offset => ", tzinfo=".toList ++ offsetLiteral offset) ++ [')'])
  | day d => .ok ("datetime.date(".toList ++ numberArguments [d.year, d.month, d.day] ++ [')'])
  | time t => .ok ("datetime.time(".toList ++ numberArguments (timeNumbers t) ++ [')'])
  | function f => .ok f.display.toList
  | kind k =>
    .ok (match k with
      | .anything | .optionalInt => k.qualifiedName.toList
      | _ => "<class '".toList ++ k.qualifiedName.toList ++ "'>".toList)
  | path location => .ok ("PosixPath(".toList ++ quoted location.toList ++ [')'])
  | url u =>
    let fields := [("scheme", u.scheme), ("netloc", u.authority), ("path", u.path),
      ("query", u.query), ("fragment", u.fragment)]
    .ok ("SplitResult(".toList
      ++ commaJoin (fields.map fun (name, value) => name.toList ++ '=' :: quoted value.toList)
      ++ [')'])
  | document _ => .ok "<xml.dom.minidom.Document object>".toList

/-- The display of an atom. -/
def display : Atom → Except Fault (List Char)
  | text s => .ok s.toList
  | moment m => .ok (m.text ' ')
  | day d => .ok d.text
  | time t => .ok t.text
  | function f => .ok f.name.toList
  | path location => .ok location.toList
  | a => literal a

/-- The printed form of an atom. -/
def printed : Atom → Except Fault (List Char)
  | null => .ok "null".toList
  | bool b => .ok (if b then "true" else "false").toList
  | text s => .ok (Json.quote s.toList)
  | bytes data => .ok ('<' :: Decimal.natDigits data.length ++ " bytes>".toList)
  | url u => .ok ('[' :: commaJoin (u.parts.map fun part => Json.quote part.toList) ++ [']'])
  | a => display a

end Atom

namespace Data

/-- The literal form of a call, given its printed form. -/
def callLiteral (printedCall : List Char) : List Char :=
  "Expression(".toList ++ quoted printedCall ++ [')']

/-- The printed form of a call, given the printed forms of its parameters. -/
def joinCall (function : Option Function) (params : List (List Char)) : List Char :=
  joinWith [' '] ((function.map fun f => f.name.toList).toList ++ params)

/-- Whether a parameter is printed in parentheses: calls that are more than a bare function. -/
def needsParentheses : Data → Bool
  | call function params => function.isNone || !params.isEmpty
  | _ => false

/-- Spaces for a level of indentation. -/
def spaces (indent level : Nat) : List Char :=
  List.replicate (indent * level) ' '

/-- The form of an object, given the literal forms of its fields: records show their fields, other
objects only their class. -/
def objectForm (info : ClassInfo) (fields : List (List Char)) : List Char :=
  match info.access with
  | .record | .frozenRecord => info.name.toList ++ '(' :: commaJoin fields ++ [')']
  | _ => "<".toList ++ (Kind.host info).qualifiedName.toList ++ " object>".toList

/-- Braces around literal forms; an empty set is spelled out. -/
def setForm (parts : List (List Char)) : List Char :=
  if parts.isEmpty then "set()".toList else '{' :: commaJoin parts ++ ['}']

/-- The form of an immutable set. -/
def frozenForm (parts : List (List Char)) : List Char :=
  if parts.isEmpty then "frozenset()".toList
  else "frozenset(\x7b".toList ++ commaJoin parts ++ "\x7d)".toList

/-- The form of a view of a map. -/
def sideForm (which : MapSide) (parts : List (List Char)) : List Char :=
  which.name.toList ++ '(' :: '[' :: commaJoin parts ++ "])".toList

/-- The form of an immutable sequence: a single item keeps a comma. -/
def tupleForm (parts : List (List Char)) : List Char :=
  '(' :: commaJoin parts ++ (if parts.length = 1 then [','] else []) ++ [')']

/-- The braces around printed entries. -/
def closeMap (indent level : Nat) (lines : List (List Char)) : List Char :=
  if lines.isEmpty then ['{', '}']
  else '{' :: '\n' :: (joinWith [',', '\n'] lines ++ '\n' :: (spaces indent level ++ ['}']))

mutual

/-- The literal form, or the display when `shown`: inside compound data everything is literal. -/
def written (shown : Bool) : Data → Except Fault (List Char)
  | atom a => if shown then a.display else a.literal
  | tuple items => do return tupleForm (← literals items)
  | frozen items => do return frozenForm (← literals items)
  | call function params => do
    let form := joinCall function (← printedParams 2 1 params)
    return if shown then form else callLiteral form
  | list items => do return '[' :: commaJoin (← literals items) ++ [']']
  | map entries => do return '{' :: commaJoin (← literalEntries entries) ++ ['}']
  | page entries _ => do return '{' :: commaJoin (← literalEntries entries) ++ ['}']
  | set items => do return setForm (← literals items)
  | side which items => do return sideForm which (← literals items)
  | buffer bytes => .ok ("bytearray(".toList ++ quotedBytes bytes ++ [')'])
  | object info fields =>
    match shown, info.text with
    | true, some own => .ok own.toList
    | _, _ => do return objectForm info (← literalFields fields)
  | resource _ label =>
    .ok (if shown then label.toList else "Resource(".toList ++ quoted label.toList ++ [')'])
  | scope entries => do return "<Context ".toList ++ commaJoin (← literalEntries entries) ++ ['>']
  | cycle => .ok "[...]".toList

/-- The literal forms of items. -/
def literals : List Data → Except Fault (List (List Char))
  | [] => .ok []
  | item :: rest => do return (← written false item) :: (← literals rest)

/-- The literal forms of entries. -/
def literalEntries : List (Data × Data) → Except Fault (List (List Char))
  | [] => .ok []
  | (key, value) :: rest => do
    return ((← written false key) ++ ':' :: ' ' :: (← written false value)) ::
      (← literalEntries rest)

/-- The literal forms of fields. -/
def literalFields : List (String × Data) → Except Fault (List (List Char))
  | [] => .ok []
  | (name, value) :: rest => do
    return (name.toList ++ '=' :: (← written false value)) :: (← literalFields rest)

/-- The printed form at a level of indentation. -/
def printed (indent level : Nat) : Data → Except Fault (List Char)
  | atom a => a.printed
  | tuple items => do return '[' :: commaJoin (← printedItems indent (level + 1) items) ++ [']']
  | frozen items => do return '[' :: commaJoin (← printedItems indent (level + 1) items) ++ [']']
  | list items => do return '[' :: commaJoin (← printedItems indent (level + 1) items) ++ [']']
  | set items => do return '[' :: commaJoin (← printedItems indent (level + 1) items) ++ [']']
  | call function params => do
    return joinCall function (← printedParams indent (level + 1) params)
  | map entries => do
    return closeMap indent level (← printedEntries indent (level + 1) entries)
  | page entries _ => do
    return closeMap indent level (← printedEntries indent (level + 1) entries)
  | scope entries => do
    return closeMap indent level (← printedEntries indent (level + 1) entries)
  | side which items => do return sideForm which (← literals items)
  | buffer bytes => .ok ("bytearray(".toList ++ quotedBytes bytes ++ [')'])
  | resource _ label => .ok label.toList
  | object info fields =>
    match info.text with
    | some own => .ok own.toList
    | none => do return objectForm info (← literalFields fields)
  | cycle => .error .recursion

/-- The printed forms of items. -/
def printedItems (indent level : Nat) : List Data → Except Fault (List (List Char))
  | [] => .ok []
  | item :: rest => do return (← printed indent level item) :: (← printedItems indent level rest)

/-- The printed forms of parameters; calls with parameters stand in parentheses. -/
def printedParams (indent level : Nat) : List Data → Except Fault (List (List Char))
  | [] => .ok []
  | item :: rest => do
    let form ← printed indent level item
    return (if needsParentheses item then '(' :: form ++ [')'] else form) ::
      (← printedParams indent level rest)

/-- The printed forms of entries: each on a line of its own. -/
def printedEntries (indent level : Nat) : List (Data × Data) → Except Fault (List (List Char))
  | [] => .ok []
  | (key, value) :: rest => do
    return (spaces indent level ++ Json.quote (← written true key) ++ ':' :: ' ' ::
      (← printed indent level value)) :: (← printedEntries indent level rest)

end

/-- The literal form of data: its kind shows. -/
def literal (data : Data) : Except Fault String :=
  (data.written false).map String.ofList

/-- The display of data. -/
def display (data : Data) : Except Fault String :=
  (data.written true).map String.ofList

/-- The printed form of data as source text. -/
def print (indent : Nat) (data : Data) : Except Fault String :=
  (data.printed indent 0).map String.ofList

/-! ### The stack of the printer

The printer calls itself for what containers and calls hold, on the stack of the interpreter. -/

/-- The frames of the stack that the printer takes for a container or scope. -/
def containerFrames : Nat := 3

/-- The frames of the stack that the printer takes for a call. -/
def callFrames : Nat := 2

mutual

/-- The frames of the stack that the printer takes for containers and calls inside one another. -/
def frames : Data → Nat
  | tuple items | frozen items | list items | set items => framesOfItems items + containerFrames
  | call _ params => framesOfItems params + callFrames
  | map entries | page entries _ | scope entries => framesOfEntries entries + containerFrames
  | _ => 0

/-- The most frames that the printer takes for an item. -/
def framesOfItems : List Data → Nat
  | [] => 0
  | item :: rest => max item.frames (framesOfItems rest)

/-- The most frames that the printer takes for the value of an entry. -/
def framesOfEntries : List (Data × Data) → Nat
  | [] => 0
  | (_, value) :: rest => max value.frames (framesOfEntries rest)

end

mutual

/-- The part of data for which a number of frames is enough. What lies deeper shows as `cycle`, which
has no printed form. -/
def cut (free : Nat) : Data → Data
  | tuple items =>
    if free < containerFrames then cycle else tuple (cutItems (free - containerFrames) items)
  | frozen items =>
    if free < containerFrames then cycle else frozen (cutItems (free - containerFrames) items)
  | list items =>
    if free < containerFrames then cycle else list (cutItems (free - containerFrames) items)
  | set items =>
    if free < containerFrames then cycle else set (cutItems (free - containerFrames) items)
  | call f params =>
    if free < callFrames then cycle else call f (cutItems (free - callFrames) params)
  | map entries =>
    if free < containerFrames then cycle else map (cutEntries (free - containerFrames) entries)
  | page entries source =>
    if free < containerFrames then cycle
    else page (cutEntries (free - containerFrames) entries) source
  | scope entries =>
    if free < containerFrames then cycle else scope (cutEntries (free - containerFrames) entries)
  | data => data

/-- The parts of items for which a number of frames is enough. -/
def cutItems (free : Nat) : List Data → List Data
  | [] => []
  | item :: rest => item.cut free :: cutItems free rest

/-- Entries with the parts of their values for which a number of frames is enough. -/
def cutEntries (free : Nat) : List (Data × Data) → List (Data × Data)
  | [] => []
  | (key, value) :: rest => (key, value.cut free) :: cutEntries free rest

end

/-- The frames that are free when a session prints. -/
def freeFrames : Nat := 980

end Data

end ResourceScript
