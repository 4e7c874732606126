import ResourceScript.Data.Conversion
import ResourceScript.Data.Key
import ResourceScript.Format.Xml.Tree
/-!
# Writing HTML

Maps become tables of two columns, lists of maps become tables with a row of headers, and other
lists become lines. With a separator the entries of a map stand on one line, and with a list of
fields their values stand in the order of the fields.
-/

set_option autoImplicit false

namespace ResourceScript.Html

open Text

/-- The opening of a table. -/
def tableStart : List Char :=
  "<table border=1 cellspacing=2 cellpadding=2>\n".toList

/-- The end of a table. -/
def tableEnd : List Char :=
  "</table>".toList

/-- Text with the markup characters and both quotes escaped. -/
def escapeQuoted (text : List Char) : List Char :=
  (Xml.escapeText text).flatMap fun c =>
    if c = '"' then "&quot;".toList
    else if c = '\'' then "&#x27;".toList
    else [c]

/-- A cell of a table under a tag. -/
def cell (tag : String) (content : List Char) : List Char :=
  '<' :: tag.toList ++ '>' :: content ++ '<' :: '/' :: tag.toList ++ ['>']

/-- A row of cells. -/
def row (cells : List Char) : List Char :=
  "<tr>".toList ++ cells ++ "</tr>\n".toList

/-- A table of written keys and values. -/
def mapTable (entries : List (List Char × List Char)) : List Char :=
  tableStart ++ (entries.flatMap fun (key, value) => row (cell "td" key ++ cell "td" value))
    ++ tableEnd

/-- A table of the headers and the rows of cells. -/
def listTable (headers : List (List Char)) (rows : List (List (List Char))) : List Char :=
  tableStart ++ row (headers.flatMap (cell "th"))
    ++ (rows.flatMap fun cells => row (cells.flatMap (cell "td"))) ++ tableEnd

/-- A key as HTML. -/
def keyText (key : Data) : Except Fault (List Char) := do
  return escapeQuoted (← key.toText).toList

/-- Data without parts as HTML. -/
def leaf (data : Data) : Except Fault (List Char) :=
  match data with
  | .null => .ok []
  | .atom (.document d) => .ok d.text
  | data => do return Xml.escapeText (← data.toText).toList

/-- A page as it is: the elements of its entries. -/
def pageText (entries : List (Data × Data)) : Except Fault (List Char) := do
  match ← (Data.page entries none).toPlain with
  | .map fields => Xml.writeFields fields
  | _ => return []

/-- The table of a list of maps with written values. -/
def recordTable (records : List (List (Data × Data)))
    (written : List (List (Data × List Char))) : Except Fault (List Char) := do
  let headers := records.foldl Data.gatherKeys []
  let names ← headers.mapM keyText
  return listTable names (written.map fun entries =>
    headers.map fun header => (findEntry Data.sameKey header entries).getD [])

/-- The maps that a list consists of; `none` when it is empty or holds anything else. -/
def records? (items : List Data) : Option (List (List (Data × Data))) :=
  if items.isEmpty then none else items.mapM Data.entries?

mutual

/-- Data as HTML. -/
def write : Data → Except Fault (List Char)
  | .page entries _ => pageText entries
  | .map entries => do return mapTable (← writtenRows entries)
  | .scope entries => do return mapTable (← writtenRows entries)
  | .list items => writeItems items
  | .tuple items => writeItems items
  | .set items => writeItems items
  | .frozen items => writeItems items
  | .atom (.url u) => .ok (joinWith "<br>\n".toList (u.parts.map fun part =>
      Xml.escapeText part.toList))
  | .cycle => .error .recursion
  | data => leaf data

/-- Items as HTML: a table when all are maps, lines otherwise. -/
def writeItems (items : List Data) : Except Fault (List Char) := do
  match records? items with
  | some records => recordTable records (← writtenRecords items)
  | none => return joinWith "<br>\n".toList (← writeLines items)

/-- Each of a list of items as HTML. -/
def writeLines : List Data → Except Fault (List (List Char))
  | [] => .ok []
  | item :: rest => do return (← write item) :: (← writeLines rest)

/-- Keys and values as HTML. -/
def writtenRows : List (Data × Data) → Except Fault (List (List Char × List Char))
  | [] => .ok []
  | (key, value) :: rest => do
    return (← keyText key, ← write value) :: (← writtenRows rest)

/-- The entries of maps with their values as HTML. -/
def writtenRecords : List Data → Except Fault (List (List (Data × List Char)))
  | [] => .ok []
  | .map entries :: rest => do return (← writtenValues entries) :: (← writtenRecords rest)
  | .page entries _ :: rest => do return (← writtenValues entries) :: (← writtenRecords rest)
  | .scope entries :: rest => do return (← writtenValues entries) :: (← writtenRecords rest)
  | _ :: rest => writtenRecords rest

/-- Entries with their values as HTML. -/
def writtenValues : List (Data × Data) → Except Fault (List (Data × List Char))
  | [] => .ok []
  | (key, value) :: rest => do return (key, ← write value) :: (← writtenValues rest)

end

/-- An entry on a line. -/
def writeEntry (entry : Data × Data) : Except Fault (List Char) := do
  return (← keyText entry.1) ++ " = ".toList ++ (← write entry.2)

mutual

/-- Data as HTML with a separator between entries and items. -/
def writeSeparated (separator : List Char) : Data → Except Fault (List Char)
  | .page entries _ => pageText entries
  | .map entries => do return joinWith separator (← entries.mapM writeEntry)
  | .scope entries => do return joinWith separator (← entries.mapM writeEntry)
  | .list items => do return joinWith separator (← writeEach separator items)
  | .tuple items => do return joinWith separator (← writeEach separator items)
  | .set items => do return joinWith separator (← writeEach separator items)
  | .frozen items => do return joinWith separator (← writeEach separator items)
  | .atom (.url u) => .ok (joinWith separator (u.parts.map fun part => Xml.escapeText part.toList))
  | .cycle => .error .recursion
  | data => leaf data

/-- Each of a list of items as HTML with a separator. -/
def writeEach (separator : List Char) : List Data → Except Fault (List (List Char))
  | [] => .ok []
  | item :: rest => do
    return (← writeSeparated separator item) :: (← writeEach separator rest)

end

/-- The values of a map in the order of the fields, which gain the new keys of the map. -/
def fieldRow (separator : List Char) (fields : List Data) (entries : List (Data × Data)) :
    Except Fault (List Char × List Data) := do
  let fields := Data.gatherKeys fields entries
  let values ← fields.mapM fun field =>
    write ((findEntry Data.sameKey field entries).getD .null)
  return (joinWith separator values, fields)

mutual

/-- Data as HTML with a separator between values in the order of the fields, and the fields with all
keys met. -/
def writeFields (separator : List Char) (fields : List Data) :
    Data → Except Fault (List Char × List Data)
  | .page entries _ => do return (← pageText entries, fields)
  | .map entries => fieldRow separator fields entries
  | .scope entries => fieldRow separator fields entries
  | .list items => writeRows separator fields items
  | .tuple items => writeRows separator fields items
  | .set items => writeRows separator fields items
  | .frozen items => writeRows separator fields items
  | .atom (.url u) =>
    .ok (joinWith ['\n'] (u.parts.map fun part => Xml.escapeText part.toList), fields)
  | .cycle => .error .recursion
  | data => do return (← leaf data, fields)

/-- Items as HTML, each on a line of its own. -/
def writeRows (separator : List Char) (fields : List Data) (items : List Data) :
    Except Fault (List Char × List Data) := do
  let (rows, fields) ← writeEachRow separator fields items
  return (joinWith ['\n'] rows, fields)

/-- Each of a list of items as HTML. -/
def writeEachRow (separator : List Char) (fields : List Data) :
    List Data → Except Fault (List (List Char) × List Data)
  | [] => .ok ([], fields)
  | item :: rest => do
    let (row, fields) ← writeFields separator fields item
    let (rows, fields) ← writeEachRow separator fields rest
    return (row :: rows, fields)

end

end ResourceScript.Html
