import ResourceScript.Fault
import ResourceScript.Text.Base64
import ResourceScript.Text.Case
import ResourceScript.Text.Percent
/-!
# Data in locations

A location of the scheme `data` holds its data itself: behind a header, which gives the media type
and perhaps parameters, stand escaped characters or base64.
-/

set_option autoImplicit false

namespace ResourceScript

open Text

/-- A location that holds data. -/
structure DataUri where
  /-- The media type. -/
  mimetype : String
  /-- The parameters of the header. -/
  parameters : List String
  /-- Whether the data is written in base64. -/
  base64 : Bool
  /-- The data. -/
  data : List UInt8
  deriving DecidableEq, Repr

namespace DataUri

/-- The word that marks base64. -/
def base64Word : List Char := "base64".toList

/-- Reads a location behind its scheme. -/
def read (text : List Char) : Except Fault DataUri :=
  match cutAt ',' text with
  | none => .error .value
  | some (header, payload) => do
    let parts := (splitOn ';' header).map trim
    let isMark := fun (part : List Char) => lower part == base64Word
    let base64 := 1 < parts.length && ((parts.getLast?).map isMark).getD false
    let parameters := (parts.drop 1).filter fun part => !part.isEmpty && !isMark part
    let data ← if base64 then Base64.decode payload else pure (Percent.decodeBytes payload)
    let mimetype := lower (parts.headD [])
    return ⟨if mimetype.isEmpty then "text/plain" else String.ofList mimetype,
      parameters.map String.ofList, base64, data⟩

/-- Reads a location. -/
def ofUri (uri : String) : Except Fault DataUri :=
  read (uri.toList.drop 5)

/-- The text of a location that holds data. -/
def text (u : DataUri) : String :=
  let header := joinWith [';']
    (u.mimetype.toList :: u.parameters.map String.toList ++ if u.base64 then [base64Word] else [])
  let payload := if u.base64 then Base64.encode u.data else Percent.encodeBytes (fun _ => false) u.data
  String.ofList ("data:".toList ++ header ++ ',' :: payload)

end DataUri

end ResourceScript
