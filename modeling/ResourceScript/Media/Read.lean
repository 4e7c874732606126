import ResourceScript.Format.Csv
import ResourceScript.Format.Form
import ResourceScript.Format.Html.Read
import ResourceScript.Format.Properties
import ResourceScript.Format.Xml.Read
import ResourceScript.Format.Xml.Tree
import ResourceScript.Format.Yaml.Build
import ResourceScript.Language.Load
import ResourceScript.Media
/-!
# Bytes of a media type as data

Each codec reads text, to which bytes are decoded by the encoding that the content type names. Bytes
of a type without a codec stay bytes.
-/

set_option autoImplicit false

namespace ResourceScript

open Text

/-- What a message carries: bytes or text. -/
inductive Body where
  /-- Bytes. -/
  | bytes (data : List UInt8)
  /-- Text. -/
  | text (content : List Char)
  deriving Repr

namespace Body

/-- The text of a body, bytes being decoded by the encoding of a content type. -/
def toText (contentType : Option String) : Body → List Char
  | bytes data => (Media.charset contentType).decode data
  | text content => content

/-- A body as a value. -/
def toValue : Body → Value
  | bytes data => .atom (.bytes data)
  | text content => .text (String.ofList content)

end Body

namespace Script

/-- The record of a row under the names of a header; fields and names without a partner are
dropped. -/
def recordOf (header row : List (List Char)) : List (Value × Value) :=
  mapOfEntries (fun a b => Value.sameBy (fun _ _ => false) a b)
    ((header.zip row).map fun (name, field) =>
      (.text (String.ofList name), .text (String.ofList field)))

/-- The records of rows, the first of which is the header; empty rows are dropped. -/
def newRecords : List (List (List Char)) → Task Value
  | [] => newList []
  | header :: rows => do
    newList (← (rows.filter fun row => !row.isEmpty).mapM fun row => newMap (recordOf header row))

/-- The page of a text: read as XML if it is well-formed, and leniently otherwise. -/
def newPage (text : List Char) : Task Value := do
  let fields ← match Xml.Document.read false false text with
    | .ok d => pure d.toFields
    | .error .xml => ofExcept (Html.readLenient text)
    | .error cause => fail cause
  newCell (.page (← ofPlainEntries fields) (some (String.ofList text)))

/-- Reads text of a media type. -/
def readMedia (m : Media) (text : List Char) : Task Value :=
  match m with
  | .json => do ofPlain (← ofExcept (Json.readOrNull text))
  | .yaml => Yaml.read text
  | .csv => do newRecords (← ofExcept (Csv.read text))
  | .text => return .text (String.ofList text)
  | .script => compile (String.ofList text)
  | .html => newPage text
  | .xml => do return .atom (.document (← ofExcept (Xml.Document.read true true text)))
  | .properties => do
    let entries ← ofExcept (Properties.read text)
    newMap (mapOfEntries (fun a b => Value.sameBy (fun _ _ => false) a b)
      (entries.map fun (key, value) =>
        (.text (String.ofList key), .text (String.ofList value))))
  | .form => do
    let entries ← ofExcept (Form.read text)
    newMap (← ofPlainEntries (entries.map fun (key, value) => (.text key, value)))

/-- Reads a body of a content type. -/
def decode (contentType : Option String) (body : Body) : Task Value :=
  match Media.ofContentType? contentType with
  | some m => readMedia m (body.toText contentType)
  | none => return body.toValue

/-- Reads a body of a media type that has to have a codec. -/
def readData (mimetype : String) (body : Body) : Task Value :=
  if (Media.ofName? mimetype).isSome then decode (some mimetype) body
  else fail (.dispatch (.unsupportedMedia mimetype))

end Script

end ResourceScript
