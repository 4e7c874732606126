import ResourceScript.Format.Json
import ResourceScript.Text.Percent
/-!
# Forms

Entries of a key and a value, joined by ampersands and escaped for query strings. The text of a
value decides its kind: words for null and the truth values, numerals, JSON, lists between commas,
or plain text. A key that occurs more than once has the list of its values.
-/

set_option autoImplicit false

namespace ResourceScript.Form

open Text

/-- The value of a text that holds no comma or is a part between commas. -/
def typedPart (text : List Char) : Except Fault Plain := do
  if text = "null".toList then return .null
  else if text = "true".toList then return .bool true
  else if text = "false".toList then return .bool false
  else
    match ← Numeral.read text with
    | some (.int n) => return .int n
    | some (.real x) => return .real x
    | none =>
      match text.head? with
      | some '[' | some '{' | some '"' =>
        match Json.read text with
        | .ok value => return value
        | .error .json => return .text (String.ofList text)
        | .error other => .error other
      | _ => return .text (String.ofList text)

/-- Whether a text is read as a list between commas when nothing else applies. -/
def isSeparated (text : List Char) : Bool :=
  text.contains ',' &&
    (match text.head? with
      | some '[' | some '{' | some '"' => false
      | _ => true)

/-- The value of a text. -/
def typed (text : List Char) : Except Fault Plain :=
  if isSeparated text then do return .list (← (splitOn ',' text).mapM typedPart)
  else typedPart text

/-- The entry of a part between ampersands; without an equals sign the value is true. -/
def entry (part : List Char) : Except Fault (String × Plain) :=
  match cutAt '=' part with
  | some (key, value) => do
    return (String.ofList (Percent.decodeQuery key), ← typed (Percent.decodeQuery value))
  | none => .ok (String.ofList (Percent.decodeQuery part), .bool true)

/-- What has been read of a form. A key that has occurred once has its value, and a repeated key has
the list of its values. -/
structure Gathered where
  /-- The entries in the order of the first occurrence of their keys. -/
  entries : List (String × Plain)
  /-- The keys that have occurred more than once. -/
  repeated : List String

namespace Gathered

/-- Nothing. -/
def empty : Gathered := ⟨[], []⟩

/-- The list of a repeated key with one more value. -/
def listed (value : Plain) : Plain → Plain
  | .list values => .list (values ++ [value])
  | other => other

/-- Adds an entry. The second value of a key makes a list of both, also when the first is a list
itself; further values are added to that list. -/
def add (gathered : Gathered) (entry : String × Plain) : Gathered :=
  let (key, value) := entry
  match findEntry (· == ·) key gathered.entries with
  | none => { gathered with entries := putEntry (· == ·) key value gathered.entries }
  | some old =>
    if gathered.repeated.contains key then
      { gathered with entries := putEntry (· == ·) key (listed value old) gathered.entries }
    else
      ⟨putEntry (· == ·) key (.list [old, value]) gathered.entries, key :: gathered.repeated⟩

end Gathered

/-- The entries of a form in the order of their first occurrence. -/
def read (text : List Char) : Except Fault (List (String × Plain)) := do
  let parts := (splitOn '&' (trim text)).filter fun part => !part.isEmpty
  let entries ← parts.mapM entry
  return (entries.foldl Gathered.add .empty).entries

/-- The text of pairs of keys and values. -/
def write (pairs : List (List Char × List Char)) : List Char :=
  joinWith ['&'] (pairs.map fun (key, value) =>
    Percent.encodeQuery key ++ '=' :: Percent.encodeQuery value)

end ResourceScript.Form
