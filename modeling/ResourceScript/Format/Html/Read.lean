import ResourceScript.Format.Html.Reference
import ResourceScript.Format.Xml.Tree
import ResourceScript.Text.Case
/-!
# Reading HTML leniently

Markup of any quality is read into the same maps as XML. Tags need not match: an end tag closes the
innermost element of its name with all that is open inside it, and is passed over when there is none.
Some elements never have content.
-/

set_option autoImplicit false

namespace ResourceScript.Html

open Text

/-- The attributes of a tag; an attribute may have no value. -/
abbrev Attributes := List (String × Option String)

/-- A piece of markup. -/
inductive Piece where
  /-- The start of an element. -/
  | startTag (name : String) (attributes : Attributes)
  /-- An element that is closed in its own tag. -/
  | emptyTag (name : String) (attributes : Attributes)
  /-- The end of an element. -/
  | endTag (name : String)
  /-- Text. -/
  | text (content : List Char)
  deriving Repr

/-! ### Tags -/

/-- Text without white space and slashes at its beginning, except a slash that ends a tag, together
with the last character passed over, or the one before. -/
def skipFiller (before : Char) : List Char → Char × List Char
  | [] => (before, [])
  | c :: rest =>
    if isSpace c || (c == '/' && rest.head? != some '>') then skipFiller c rest
    else (before, c :: rest)

/-- Whether a character may stand in the name of a tag. -/
def isTagChar (c : Char) : Bool :=
  !(c == '\t' || c == '\n' || c == '\r' || c == Char.ofNat 0x0c || c == ' ' || c == '/' || c == '>'
    || c == Char.ofNat 0)

/-- Whether an attribute may begin behind a character. -/
def endsPart (c : Char) : Bool :=
  c == '\'' || c == '"' || c == '/' || isSpace c

/-- A bare value: up to white space or the end of the tag. -/
def isBareChar (c : Char) : Bool :=
  c != '>' && !isSpace c

/-- The value of an attribute behind its name, if there is one: the value, its last character in the
text, and the text behind it. A quote that is not closed begins no value. -/
def readValue? (text : List Char) : Option (List Char × Char × List Char) :=
  let signs := (text.dropWhile isSpace)
  let count := (signs.takeWhile (· == '=')).length
  if count = 0 then none
  else
    let behind := signs.dropWhile (· == '=')
    let value := behind.dropWhile isSpace
    let bare := fun (text : List Char) =>
      some (text.takeWhile isBareChar, '=', text.dropWhile isBareChar)
    match value with
    | quote :: rest =>
      if quote = '"' ∨ quote = '\'' then
        match cutAt quote rest with
        | some (content, after) => some (content, quote, after)
        | none =>
          if value.length < behind.length then some ([], '=', behind.drop (behind.length - value.length - 1))
          else if 2 ≤ count then bare ('=' :: behind)
          else none
      else bare value
    | [] => bare value

/-- The attributes at the beginning of a text behind a character, and the text behind them. -/
def readAttributes : (fuel : Nat) → Char → List Char → Attributes × List Char
  | 0, _, text => ([], text)
  | fuel + 1, before, text =>
    match text with
    | [] => ([], [])
    | c :: rest =>
      if endsPart before && !(isSpace c || c == '/' || c == '>') then
        let isNameChar := fun c => !(isSpace c || c == '/' || c == '=' || c == '>')
        let name := c :: rest.takeWhile isNameChar
        let after := rest.dropWhile isNameChar
        let (value, last, after) : Option String × Char × List Char :=
          match readValue? after with
          | some (value, last, after) => (some (String.ofList (resolve value)), last, after)
          | none => (none, name.getLast?.getD c, after)
        let (last, after) := skipFiller last after
        let (more, after) := readAttributes fuel last after
        ((String.ofList (lower name), value) :: more, after)
      else ([], text)

/-- What becomes of a piece of markup: a piece with the text behind it, nothing with the text behind
it, or an incomplete piece. -/
inductive Reading where
  /-- A piece. -/
  | piece (piece : Piece) (rest : List Char)
  /-- A comment or declaration, which leaves no trace. -/
  | skipped (rest : List Char)
  /-- A piece that does not end. -/
  | incomplete
  deriving Repr

/-- The characters of a text up to what is left of it. -/
def upTo (text rest : List Char) : List Char :=
  text.take (text.length - rest.length)

/-- A start tag, from its opening bracket on. -/
def readStartTag (text : List Char) : Reading :=
  let inside := text.drop 1
  let name := inside.takeWhile isTagChar
  let tag := String.ofList (lower name)
  let (last, rest) := skipFiller (name.getLast?.getD '<') (inside.drop name.length)
  let (attributes, rest) := readAttributes text.length last rest
  match rest with
  | [] => .incomplete
  | '>' :: after => .piece (.startTag tag attributes) after
  | '/' :: '>' :: after => .piece (.emptyTag tag attributes) after
  | c :: _ =>
    if isAsciiLetter c || c == '=' || c == '/' then .incomplete
    else .piece (.text (upTo text rest)) rest

/-- The text behind the first closing bracket. -/
def skipToBracket (text : List Char) : Reading :=
  match cutAt '>' text with
  | some (_, rest) => .skipped rest
  | none => .incomplete

/-- The name of an end tag that holds nothing but its name. -/
def plainEndName? (inside : List Char) : Option (List Char) :=
  let start := inside.dropWhile isSpace
  let isNameChar := fun c => isAsciiLetter c || isAsciiDigit c || c == '-' || c == '.' || c == ':'
    || c == '_'
  let name := start.takeWhile isNameChar
  match name.head?, (start.dropWhile isNameChar).dropWhile isSpace with
  | some c, [] => if isAsciiLetter c then some name else none
  | _, _ => none

/-- An end tag, behind its opening bracket and slash. -/
def readEndTag (text : List Char) : Reading :=
  match cutAt '>' text with
  | none => .incomplete
  | some (inside, rest) =>
    match plainEndName? inside with
    | some name => .piece (.endTag (String.ofList (lower name))) rest
    | none =>
      if (text.head?.map isAsciiLetter).getD false then
        .piece (.endTag (String.ofList (lower (text.takeWhile isTagChar)))) rest
      else .skipped rest

/-- The text behind a comment, from behind its opening: two hyphens and a bracket end it, between
which white space may stand. -/
def skipComment : List Char → Reading
  | [] => .incomplete
  | c :: rest =>
    match afterStart ['-', '-'] (c :: rest) with
    | some after =>
      match after.dropWhile isSpace with
      | '>' :: rest => .skipped rest
      | _ => skipComment rest
    | none => skipComment rest

/-- The text behind a number of closing square brackets and an angle bracket, between which white
space may stand. -/
def skipSection (brackets : Nat) : List Char → Reading
  | [] => .incomplete
  | c :: rest =>
    match closing brackets (c :: rest) with
    | some after => .skipped after
    | none => skipSection brackets rest
where
  /-- The text behind the closing brackets at the beginning of a text. -/
  closing : Nat → List Char → Option (List Char)
    | 0, text => afterStart ['>'] text
    | count + 1, text =>
      match text with
      | ']' :: rest => closing count (rest.dropWhile isSpace)
      | _ => none

/-- A section in square brackets, behind its opening bracket. Sections of unknown names are
refused. -/
def readSection (text : List Char) : Except Fault Reading :=
  let isNameChar := fun c => isAsciiLetter c || isAsciiDigit c || c == '-' || c == '_' || c == '.'
  let name := text.takeWhile isNameChar
  let after := (text.dropWhile isNameChar).dropWhile isSpace
  let word := String.ofList (name.map asciiLower)
  if text.isEmpty then .ok .incomplete
  else if !(name.head?.map isAsciiLetter).getD false then .error .assertion
  else if after.isEmpty then .ok .incomplete
  else if ["temp", "cdata", "ignore", "include", "rcdata"].contains word then .ok (skipSection 2 text)
  else if ["if", "else", "endif"].contains word then .ok (skipSection 1 text)
  else .error .assertion

/-- A piece of markup, from its opening bracket on. -/
def readMarkup (text : List Char) : Except Fault Reading :=
  match text with
  | '<' :: '/' :: rest => .ok (readEndTag rest)
  | '<' :: '!' :: '-' :: '-' :: rest => .ok (skipComment rest)
  | '<' :: '?' :: rest => .ok (skipToBracket rest)
  | '<' :: '!' :: '[' :: rest => readSection rest
  | '<' :: '!' :: rest =>
    if (rest.take 7).map asciiLower = "doctype".toList then .ok (skipToBracket (rest.drop 7))
    else .ok (skipToBracket rest)
  | '<' :: c :: rest =>
    if isAsciiLetter c then .ok (readStartTag text)
    else .ok (.piece (.text ['<']) (c :: rest))
  | _ => .ok (.piece (.text text) [])

/-- The text up to the first closing bracket, or else up to the next opening one, or else a single
character; it is taken as text when markup does not end. -/
def cutIncomplete (text : List Char) : List Char × List Char :=
  match text with
  | [] => ([], [])
  | c :: rest =>
    match cutAt '>' rest with
    | some (before, after) => (c :: before ++ ['>'], after)
    | none =>
      if rest.contains '<' then
        (c :: rest.takeWhile (· != '<'), rest.dropWhile (· != '<'))
      else ([c], rest)

/-- The elements whose content is taken as it is. -/
def rawElements : List String := ["script", "style"]

/-- The content of an element that is taken as it is, and the text from its end tag on; `none` when
it is not closed. -/
def cutRaw? (name : List Char) : List Char → Option (List Char × List Char)
  | [] => none
  | c :: rest =>
    if startsWith ['<', '/'] (c :: rest) && isEnd (rest.drop 1) then some ([], c :: rest)
    else (cutRaw? name rest).map fun (before, after) => (c :: before, after)
where
  /-- Whether the end tag of the element stands here. -/
  isEnd (text : List Char) : Bool :=
    let start := text.dropWhile isSpace
    (start.take name.length).map asciiLower = name
      && ((start.drop name.length).dropWhile isSpace).head? = some '>'

/-- The pieces of markup; the content of some elements is raw, and dropped when they are not
closed. -/
def pieces : (fuel : Nat) → List Char → Except Fault (List Piece)
  | 0, _ => .ok []
  | _ + 1, [] => .ok []
  | fuel + 1, text@('<' :: _) => do
    match ← readMarkup text with
    | .incomplete =>
      let (content, rest) := cutIncomplete text
      return .text (resolve content) :: (← pieces fuel rest)
    | .skipped rest => pieces fuel rest
    | .piece (.startTag name attributes) rest =>
      if rawElements.contains name then
        match cutRaw? name.toList rest with
        | some (content, after) =>
          return .startTag name attributes :: .text content :: (← pieces fuel after)
        | none => return [.startTag name attributes]
      else return .startTag name attributes :: (← pieces fuel rest)
    | .piece piece rest => return piece :: (← pieces fuel rest)
  | fuel + 1, text => do
    let content := text.takeWhile (· != '<')
    return .text (resolve content) :: (← pieces fuel (text.dropWhile (· != '<')))

/-! ### The tree -/

/-- The elements that have no content. -/
def voidElements : List String :=
  ["area", "base", "br", "col", "embed", "hr", "img", "input", "link", "meta", "source", "track",
    "wbr"]

/-- An element that is open. -/
structure OpenElement where
  /-- Its name. -/
  name : String
  /-- Its fields so far. -/
  fields : Xml.Fields
  /-- Its text so far. -/
  text : List Char
  deriving Repr

/-- The elements that are open, the innermost first, over the fields of the document. -/
structure Tree where
  /-- The open elements. -/
  elements : List OpenElement
  /-- The fields of the document. -/
  root : Xml.Fields
  deriving Repr

namespace Tree

/-- Adds a value under the name of an element. -/
def attach (t : Tree) (name : String) (value : Plain) : Tree :=
  match t.elements with
  | [] => { t with root := Xml.pushField t.root name value }
  | e :: outer =>
    { t with elements := { e with fields := Xml.pushField e.fields name value } :: outer }

/-- Adds text; outside of all elements it is dropped. -/
def addText (t : Tree) (content : List Char) : Tree :=
  match t.elements with
  | [] => t
  | e :: outer => { t with elements := { e with text := e.text ++ content } :: outer }

/-- The value of an element that is closed. -/
def valueOf (e : OpenElement) : Plain :=
  let text := trim e.text
  if e.fields.isEmpty then (if text.isEmpty then .null else .text (String.ofList text))
  else if text.isEmpty then .map e.fields
  else .map (putEntry Scalar.sameKey (.text Xml.textKey) (.text (String.ofList text)) e.fields)

/-- Closes the innermost element. -/
def close (t : Tree) : Tree :=
  match t.elements with
  | [] => t
  | e :: outer => { t with elements := outer }.attach e.name (valueOf e)

/-- Closes a number of elements. -/
def closeMany (t : Tree) : (count : Nat) → Tree
  | 0 => t
  | count + 1 => t.close.closeMany count

/-- The fields of the attributes of a tag; the last of several of one name holds. -/
def fieldsOf (attributes : Attributes) : Xml.Fields :=
  mapOfEntries Scalar.sameKey
    (attributes.map fun (name, value) => (.text ("@" ++ name), .text (value.getD "")))

/-- Adds an element without content. -/
def attachEmpty (t : Tree) (name : String) (attributes : Attributes) : Tree :=
  t.attach name (if attributes.isEmpty then .null else .map (fieldsOf attributes))

/-- Adds a piece of markup. -/
def add (t : Tree) : Piece → Tree
  | .startTag name attributes =>
    if voidElements.contains name then t.attachEmpty name attributes
    else { t with elements := ⟨name, fieldsOf attributes, []⟩ :: t.elements }
  | .emptyTag name attributes => t.attachEmpty name attributes
  | .endTag name =>
    match t.elements.findIdx? fun e => e.name == name with
    | some inside => t.closeMany (inside + 1)
    | none => t
  | .text content => t.addText content

end Tree

/-- The fields of a document of pieces of markup. What is left open is closed at the end. -/
def build (pieces : List Piece) : Xml.Fields :=
  let t := pieces.foldl Tree.add ⟨[], []⟩
  (t.closeMany t.elements.length).root

/-- The fields of a text of any quality. -/
def readLenient (text : List Char) : Except Fault Xml.Fields := do
  return build (← pieces (text.length + 1) text)

end ResourceScript.Html
