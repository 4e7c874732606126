import ResourceScript.Format.Csv
import ResourceScript.Format.Form
import ResourceScript.Format.Html.Written
import ResourceScript.Format.Properties
import ResourceScript.Format.Yaml.Written
import ResourceScript.Media
/-!
# Data as bytes of a media type

Each codec writes data as text, which is encoded in UTF-8. Data of a type without a codec is written
as the bytes that it counts as. Encoding does not fail, as texts hold no halves of surrogate pairs: a
sequence of code points that has no bytes (`Utf8.encodePoints?`) is no text.
-/

set_option autoImplicit false

namespace ResourceScript

open Text

namespace Data

/-- Items as entries under their positions. -/
def positionEntries (items : List Data) : List (Data × Data) :=
  items.mapIdx fun i item => (.text (toString i), item)

/-- The entries of the map that data counts as. -/
def mapEntries : Data → List (Data × Data)
  | map entries | page entries _ | scope entries => entries
  | null => []
  | list items | tuple items | set items | frozen items => positionEntries items
  | atom (.url u) => positionEntries (u.parts.map text)
  | object info fields =>
    if info.access = .hidden then [(.text "value", object info fields)]
    else fields.map fun (name, value) => (.text name, value)
  | other => [(.text "value", other)]

/-- The plain texts of keys and values. -/
def textEntries (entries : List (Data × Data)) : Except Fault (List (List Char × List Char)) :=
  entries.mapM fun (key, value) => do return (← key.render, ← value.render)

/-! ### Records -/

/-- The number of records in a row without a new field after which no more fields are gathered. -/
def stableRun : Int := 5

/-- The fields of records, gathered until a number of records in a row brings no new one. -/
def gatherFields (run : Int) (fields : List Data) (stable : Int) :
    List (List (Data × Data)) → List Data
  | [] => fields
  | record :: rest =>
    let more := gatherKeys fields record
    let stable := if more.length = fields.length then stable + 1 else 0
    if run ≤ stable then more else gatherFields run more stable rest

/-- The records that data consists of. -/
def records (data : Data) : List (List (Data × Data)) :=
  match data.entries? with
  | some entries => [entries]
  | none => data.items.map mapEntries

/-- Data as comma-separated values: a row of the fields and a row for each record. -/
def toCsv (run : Int) (data : Data) : Except Fault (List Char) := do
  let fields := gatherFields run [] 0 data.records
  let header ← fields.mapM render
  let rows ← data.records.mapM fun record =>
    fields.mapM fun field => ((findEntry sameKey field record).getD .null).render
  return Csv.write (header :: rows)

/-! ### Forms and trees -/

/-- The values that a form holds under one key: the items of a list, or a single value. -/
def formValues : Data → List Data
  | list items | tuple items | set items => items
  | atom (.url u) => u.parts.map text
  | other => [other]

/-- Data as a form. -/
def toForm (data : Data) : Except Fault (List Char) := do
  match data.entries? with
  | none => throw (.conversion (.formNotMap data.kindOf.name))
  | some entries =>
    let pairs ← entries.mapM fun (key, value) => (formValues value).mapM fun item => do
      return ((← key.toText).toList, (← item.toText).toList)
    return Form.write pairs.flatten

/-- Data as XML: a document as it is, a map of one entry as its element, and a larger map inside an
element `root`. -/
def toXml (data : Data) : Except Fault (List Char) := do
  match data, data.entries? with
  | .atom (.document d), _ => return d.text
  | _, none => throw (.conversion (.xmlNotMap data.kindOf.name))
  | _, some entries =>
    match ← (Data.map entries).toPlain with
    | .map [(key, value)] =>
      if entries.length = 1 then Xml.writeDocument key value
      else Xml.writeDocument (.text "root") (.map [(key, value)])
    | plain => Xml.writeDocument (.text "root") plain

end Data

namespace Media

/-- Data as text of a media type. -/
def write (m : Media) (data : Data) : Except Fault (List Char) :=
  match m with
  | json => do Json.write (← data.toPlain)
  | yaml => Yaml.write data
  | csv => data.toCsv Data.stableRun
  | text | script => data.render
  | html => Html.write data
  | xml => data.toXml
  | properties => do return Properties.write (← Data.textEntries data.mapEntries)
  | form => data.toForm

/-- Data as bytes of a content type. -/
def encode (contentType : Option String) (data : Data) : Except Fault (List UInt8) :=
  match ofContentType? contentType with
  | some m => do return Utf8.encode (← m.write data)
  | none => data.toBytes

/-- Data as bytes of a media type that has to have a codec. -/
def print (mimetype : String) (data : Data) : Except Fault (List UInt8) :=
  if (ofName? mimetype).isSome then encode (some mimetype) data
  else .error (.dispatch (.unsupportedMedia mimetype))

end Media

end ResourceScript
