import ResourceScript.Data.Display
import ResourceScript.Format.Xml.Document
import ResourceScript.Plain
import ResourceScript.Text.Space
/-!
# XML as maps

An element as plain data: a map of its attributes, under their names behind an at sign, of its
children under their names, and of its text under `#text`. Children of one name make up a list; an
element with text alone is that text, and an empty one is null.
-/

set_option autoImplicit false

namespace ResourceScript.Xml

open Text

/-- The entries of an element. -/
abbrev Fields := List (Scalar × Plain)

/-- The key of the text of an element. -/
def textKey : String := "#text"

/-- The key of the comments of an element. -/
def commentKey : String := "#comment"

/-- Adds a value under a key; several values of one key make up a list. -/
def pushField (fields : Fields) (key : String) (value : Plain) : Fields :=
  let value := match findEntry Scalar.sameKey (.text key) fields with
    | some (.list values) => .list (values ++ [value])
    | some first => .list [first, value]
    | none => value
  putEntry Scalar.sameKey (.text key) value fields

/-- The text directly inside an element. -/
def textOfNodes (nodes : List Node) : List Char :=
  nodes.flatMap fun node =>
    match node with
    | .text content => content.toList
    | .verbatim content => content.toList
    | _ => []

/-- The value of an element. -/
def fieldsValue (fields : Fields) (text : List Char) : Plain :=
  let text := trim text
  if fields.isEmpty then (if text.isEmpty then .null else .text (String.ofList text))
  else .map (if text.isEmpty then fields else pushField fields textKey (.text (String.ofList text)))

/-- The fields of attributes. -/
def attributeFields (attributes : List (String × String)) : Fields :=
  mapOfEntries Scalar.sameKey
    (attributes.map fun (name, value) => (.text ("@" ++ name), .text value))

mutual

/-- An element as its name and its value. -/
def Node.tree? : Node → Option (String × Plain)
  | .element name attributes children =>
    let fields := (Node.trees children).foldl (fun fields (name, value) => pushField fields name value)
      (attributeFields attributes)
    some (name, fieldsValue fields (textOfNodes children))
  | _ => none

/-- The elements among nodes as their names and values. -/
def Node.trees : List Node → List (String × Plain)
  | [] => []
  | node :: rest =>
    match node.tree? with
    | some tree => tree :: Node.trees rest
    | none => Node.trees rest

end

/-- A document as a map of its element. -/
def Document.toFields (d : Document) : Fields :=
  (Node.trees d.nodes).map fun (name, value) => (.text name, value)

/-! ### From maps to text -/

/-- Text with the three markup characters escaped. -/
def escapeText (text : List Char) : List Char :=
  text.flatMap fun c =>
    if c = '&' then "&amp;".toList
    else if c = '>' then "&gt;".toList
    else if c = '<' then "&lt;".toList
    else [c]

/-- A text as the value of an attribute, between the quotes that need no escape if possible. -/
def quoteValue (text : List Char) : List Char :=
  let escaped := (escapeText text).flatMap fun c =>
    if c = '\n' then "&#10;".toList
    else if c = '\r' then "&#13;".toList
    else if c = '\t' then "&#9;".toList
    else [c]
  if escaped.contains '"' then
    if escaped.contains '\'' then
      '"' :: (escaped.flatMap fun c => if c = '"' then "&quot;".toList else [c]) ++ ['"']
    else '\'' :: escaped ++ ['\'']
  else '"' :: escaped ++ ['"']

/-- Whether a text can be written as the name of an element or an attribute. -/
def isWritableName (name : List Char) : Bool :=
  name.head? != some '?' && name.head? != some '!' && name.all fun c =>
    !(c == '<' || c == '>' || c == '/' || c == '"' || c == '\'' || c == '=' || isSpace c)

/-- The name of an element or an attribute. -/
def writeName : Scalar → Except Fault (List Char)
  | .text name => if isWritableName name.toList then .ok name.toList else .error .value
  | _ => .error .value

mutual

/-- Plain data as data to be shown. -/
def shown : Plain → Data
  | .null => .null
  | .bool b => .bool b
  | .int n => .int n
  | .real x => .real x
  | .text s => .text s
  | .list items => .list (shownItems items)
  | .map entries => .map (shownEntries entries)

/-- Plain items as data to be shown. -/
def shownItems : List Plain → List Data
  | [] => []
  | item :: rest => shown item :: shownItems rest

/-- Plain entries as data to be shown. -/
def shownEntries : List (Scalar × Plain) → List (Data × Data)
  | [] => []
  | (key, value) :: rest => (shown (.scalar key), shown value) :: shownEntries rest

end

/-- The text of a value as content. -/
def contentText : Plain → Except Fault (List Char)
  | .null => .ok []
  | .bool b => .ok (if b then "true" else "false").toList
  | value => (shown value).written true

/-- The text of a value as the value of an attribute. -/
def valueText : Plain → Except Fault (List Char)
  | .null => .ok []
  | value => (shown value).written true

/-- A comment; hyphens that would end it are refused. -/
def writeComment (value : Plain) : Except Fault (List Char) := do
  let text ← contentText value
  if text.isEmpty then return []
  else if occursIn "--".toList text || text.getLast? = some '-' then throw .value
  else return "<!--".toList ++ escapeText text ++ "-->".toList

/-- The attributes that a field of an element stands for, `none` when it is no attribute. -/
def attributesOf (key : Scalar) (value : Plain) :
    Except Fault (Option (List (List Char × List Char))) :=
  match key with
  | .text name =>
    match name.toList with
    | '@' :: rest =>
      match value with
      | .map entries =>
        if name = "@xmlns" then do
          let declared ← entries.mapM fun (key, uri) => do
            let start ← writeName key
            let name := "xmlns".toList ++ (if start.isEmpty then [] else ':' :: start)
            return (name, ← (shown uri).written true)
          return some declared
        else do return some [(← writeName (.text (String.ofList rest)), ← valueText value)]
      | _ => do return some [(← writeName (.text (String.ofList rest)), ← valueText value)]
    | _ => .ok none
  | _ => .ok none

/-- The attributes of an element. -/
def writeAttributes (entries : Fields) : Except Fault (List Char) := do
  let found ← entries.mapM fun (key, value) => attributesOf key value
  let attributes := mapOfEntries (· == ·) (found.flatMap fun more => more.getD [])
  return attributes.flatMap fun (name, value) => ' ' :: name ++ '=' :: quoteValue value

/-- The text of an element among its fields; the last one counts. -/
def writeContent (entries : Fields) : Except Fault (List Char) :=
  match findEntry Scalar.sameKey (.text textKey) entries with
  | some value => do return escapeText (← contentText value)
  | none => .ok []

/-- Whether a field is a child: not the text, no attribute and no empty list. -/
def isChild (key : Scalar) (value : Plain) : Bool :=
  (match key with
    | .text name => name != textKey && name.toList.head? != some '@'
    | _ => true)
    && (match value with
      | .list [] => false
      | _ => true)

/-- An element around its content. -/
def wrap (name attributes content : List Char) : List Char :=
  '<' :: name ++ attributes ++ '>' :: content ++ '<' :: '/' :: name ++ ['>']

mutual

/-- The element or the elements of a key and its value. -/
def writeField (key : Scalar) : Plain → Except Fault (List Char)
  | .scalar s =>
    if key = .text commentKey then writeComment (.scalar s)
    else do return wrap (← writeName key) [] (escapeText (← contentText (.scalar s)))
  | .list items => do
    if key = .text commentKey then return (← items.mapM writeComment).flatten
    discard (writeName key)
    writeElements key items
  | .map entries => do
    if key = .text commentKey then writeComment (.map entries)
    else
      let name ← writeName key
      return wrap name (← writeAttributes entries)
        ((← writeChildren entries) ++ (← writeContent entries))

/-- An element for each of a list of values. -/
def writeElements (key : Scalar) : List Plain → Except Fault (List Char)
  | [] => .ok []
  | .map entries :: rest => do
    let name ← writeName key
    let element := wrap name (← writeAttributes entries)
      ((← writeChildren entries) ++ (← writeContent entries))
    return element ++ (← writeElements key rest)
  | value :: rest => do
    let element := wrap (← writeName key) [] (escapeText (← contentText value))
    return element ++ (← writeElements key rest)

/-- The children of an element. -/
def writeChildren : List (Scalar × Plain) → Except Fault (List Char)
  | [] => .ok []
  | (key, value) :: rest => do
    let child ← if isChild key value then writeField key value else pure []
    return child ++ (← writeChildren rest)

end

/-- The elements of fields one after the other. -/
def writeFields (fields : Fields) : Except Fault (List Char) := do
  return (← fields.mapM fun (key, value) => writeField key value).flatten

/-- The text of a document of one key and its value; a list of several values is refused. -/
def writeDocument (key : Scalar) (value : Plain) : Except Fault (List Char) := do
  match value with
  | .list (_ :: _ :: _) => if key ≠ .text commentKey then throw .value
  | _ => pure ()
  return "<?xml version=\"1.0\" encoding=\"utf-8\"?>\n".toList ++ (← writeField key value)

end ResourceScript.Xml
