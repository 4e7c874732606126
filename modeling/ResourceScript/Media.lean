import ResourceScript.Text.Charset
/-!
# Media types

The media types with a codec, their names, and three ways to find the type of data: from the content
type of a message, from the extension of a location, and from the data itself.
-/

set_option autoImplicit false

namespace ResourceScript

open Text

/-- A media type with a codec. -/
inductive Media where
  | json | yaml | csv | text | script | html | xml | properties | form
  deriving DecidableEq, Repr

namespace Media

/-- The name of a media type. -/
def name : Media → String
  | json => "application/json"
  | yaml => "text/yaml"
  | csv => "text/csv"
  | text => "text/plain"
  | script => "text/x-rexl"
  | html => "text/html"
  | xml => "application/xml"
  | properties => "text/x-java-properties"
  | form => "application/x-www-form-urlencoded"

/-- All media types. -/
def all : List Media :=
  [json, yaml, csv, text, script, html, xml, properties, form]

/-- The media type of a name. -/
def ofName? (mimetype : String) : Option Media :=
  all.find? fun m => m.name == mimetype

theorem ofName?_name (m : Media) : ofName? m.name = some m := by
  cases m <;> decide

/-- The name of the type of directories. -/
def directory : String := "inode/directory"

/-! ### Content types -/

/-- Whether a text contains another. -/
def mentions (part : String) (text : List Char) : Bool :=
  occursIn part.toList text

/-- Whether a text ends in another. -/
def hasEnd (ending : String) (text : List Char) : Bool :=
  endsWith ending.toList text

/-- The name of the type of a content type in lower case and without parameters; variants of the
types with a codec become these. -/
def canonical? (contentType : String) : Option String :=
  if contentType = "" then none
  else
    let base := lower (trim ((splitOn ';' contentType.toList).headD []))
    some <|
      if (ofName? (String.ofList base)).isSome then String.ofList base
      else if hasEnd "+json" base || hasEnd "/json" base then json.name
      else if mentions "yaml" base then yaml.name
      else if mentions "html" base then html.name
      else if hasEnd "+xml" base || hasEnd "/xml" base then xml.name
      else if hasEnd "/csv" base then csv.name
      else if hasEnd "properties" base then properties.name
      else String.ofList base

/-- The media type of a content type, if there is a codec for it. -/
def ofContentType? (contentType : Option String) : Option Media :=
  (contentType.bind canonical?).bind ofName?

/-- Lower case for the letters of the name of a parameter; the long s counts as an s. -/
def parameterLower (c : Char) : Char :=
  if c = 'ſ' then 's' else asciiLower c

/-- The name behind the first parameter `charset` that has a value. -/
def charsetName? : List Char → Option (List Char)
  | [] => none
  | c :: rest =>
    if ((c :: rest).take 7).map parameterLower = "charset".toList then
      match ((c :: rest).drop 7).dropWhile isSpace with
      | '=' :: value =>
        let name := (value.dropWhile isSpace).takeWhile fun c => !isSpace c && c != ';'
        if name.isEmpty then charsetName? rest
        else
          let bare := trimEndBy (· == '"') (trimStartBy (· == '"') name)
          some (trimEndBy (· == '\'') (trimStartBy (· == '\'') bare))
      | _ => charsetName? rest
    else charsetName? rest

/-- The character encoding of a content type; UTF-8 when it names none that is known. -/
def charset (contentType : Option String) : Charset :=
  ((contentType.bind fun value => charsetName? value.toList).bind Charset.ofName?).getD .utf8

/-! ### Extensions -/

/-- The media types of the known extensions. -/
def extensions : List (String × Media) :=
  [ ("json", json), ("yaml", yaml), ("yml", yaml), ("csv", csv), ("txt", text), ("text", text),
    ("log", text), ("md", text), ("rexl", script), ("html", html), ("htm", html), ("xml", xml),
    ("properties", properties) ]

/-- The extension of the last segment of a location; a point at its beginning begins none. -/
def extension? (location : List Char) : Option (List Char) :=
  let path := location.takeWhile fun c => c != '#'
  let path := path.takeWhile fun c => c != '?'
  let last := ((splitOn '/' (trimEndBy (· == '/') path)).getLast?).getD []
  match splitOn '.' last with
  | [] | [_] | [[], _] => none
  | pieces => pieces.getLast?

/-- The name of the media type of the extension of a location; plain text when it is unknown. -/
def ofExtension? (location : String) : Option String :=
  (extension? location.toList).map fun extension =>
    ((extensions.lookup (String.ofList (lower extension))).getD text).name

/-! ### Detection -/

/-- The elements that only occur in HTML. -/
def htmlTags : List String :=
  ["html", "head", "title", "style", "script", "link", "body", "div", "img", "audio", "video"]

/-- The name of the tag at the beginning of a text, behind its opening bracket. -/
def firstTag (text : List Char) : String :=
  String.ofList (lower (text.takeWhile fun c => !isSpace c && c != '/' && c != '>'))

/-- What a line looks like. -/
inductive LineForm where
  /-- Fields between commas. -/
  | record
  /-- A comment. -/
  | comment
  /-- An item of a list. -/
  | item
  /-- A key and a value around an equals sign. -/
  | assignment
  /-- A key and a value around a colon. -/
  | entry
  /-- Anything else. -/
  | other
  deriving DecidableEq, Repr

/-- What a line looks like, the first line having a number of fields. -/
def lineForm (fields : Nat) (line : List Char) : LineForm :=
  let content := trim line
  if 1 < fields && fields ≤ (splitOn ',' line).length then .record
  else if content.head? = some '#' then .comment
  else if content.head? = some '-' then .item
  else
    match line.findIdx? (· == '='), line.findIdx? (· == ':') with
    | some (_ + 1), none => .assignment
    | some (eq + 1), some (colon + 1) => if eq < colon then .assignment else .entry
    | none, some (_ + 1) => .entry
    | _, _ => .other

/-- The greatest number of lines that are looked at. -/
def maxLines : Nat := 10

/-- The media type of lines that are not blank. -/
def ofLines? (lines : List (List Char)) : Option Media :=
  let fields := (splitOn ',' (lines.headD [])).length
  let forms := (lines.take maxLines).map (lineForm fields)
  let isAmong := fun (allowed : List LineForm) => forms.all fun form => allowed.contains form
  if isAmong [.record] then some csv
  else if isAmong [.assignment, .comment] then some properties
  else if isAmong [.entry, .comment, .item] then
    some (if forms.contains .item then yaml else properties)
  else none

/-- Whether a line consists of keys with values between ampersands. -/
def isForm (line : List Char) : Bool :=
  (splitOn '&' line).all fun part => part.contains '=' && part.head? != some '='

/-- The media type that a text seems to have. -/
def detect? (body : List Char) : Option Media :=
  let trimmed := trim body
  match trimmed, trimmed.getLast? with
  | first :: rest, some last =>
    if first = '<' ∧ last = '>' then
      let tag := firstTag rest
      some (if htmlTags.contains tag || tag == "!doctype" then html else xml)
    else if (first = '{' ∧ last = '}') ∨ (first = '[' ∧ last = ']') ∨ (first = '"' ∧ last = '"') then
      some json
    else
      let filled := (lines trimmed).filter fun line => !(trim line).isEmpty
      match filled with
      | [line] =>
        if isForm line then some form
        else if trim line = "---".toList then some yaml
        else ofLines? filled
      | line :: _ => if trim line = "---".toList then some yaml else ofLines? filled
      | [] => none
  | _, _ => none

end Media

end ResourceScript
