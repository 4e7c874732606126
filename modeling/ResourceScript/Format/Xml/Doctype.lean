import ResourceScript.Format.Xml.Document
import ResourceScript.Format.Xml.Syntax
/-!
# The beginning of an XML document

A document may begin with a declaration of its version and with a document type, whose internal part
declares entities. Of the other declarations in it only the extent is read.
-/

set_option autoImplicit false

namespace ResourceScript.Xml

open Text

/-- The content of a comment, behind its opening; two hyphens only end it. -/
def readComment (text : List Char) : Except Fault (List Char × List Char) :=
  match cutBefore "--".toList text with
  | some (content, '>' :: rest) => if content.all isAllowed then .ok (content, rest) else .error .xml
  | _ => .error .xml

/-- A processing instruction, behind its opening: the target and the content. -/
def readInstruction (text : List Char) :
    Except Fault (List Char × List Char × List Char) := do
  let (target, rest) ← readName text
  if target.map asciiLower = "xml".toList then throw .xml
  match afterStart "?>".toList rest with
  | some rest => return (target, [], rest)
  | none =>
    match cutBefore "?>".toList (← needGap rest) with
    | some (content, rest) =>
      if content.all isAllowed then return (target, content, rest) else throw .xml
    | none => throw .xml

/-! ### The declaration of the document -/

/-- A field of the declaration: its name and its value. -/
def readField (text : List Char) : Except Fault (List Char × List Char × List Char) := do
  let (name, rest) ← readName text
  let rest ← expect ['='] (skipGap rest)
  let (value, rest) ← readQuoted (skipGap rest)
  return (name, value, rest)

/-- Whether a text is the number of a version. -/
def isVersion (text : List Char) : Bool :=
  !text.isEmpty && text.all fun c =>
    isAsciiLetter c || isAsciiDigit c || c == '_' || c == '.' || c == ':' || c == '-'

/-- Whether a text is the name of an encoding. -/
def isEncoding : List Char → Bool
  | [] => false
  | c :: rest => isAsciiLetter c && rest.all fun c =>
      isAsciiLetter c || isAsciiDigit c || c == '_' || c == '.' || c == '-'

/-- Whether fields with their values may follow the version. -/
def areFields : List (List Char × List Char) → Bool
  | [] => true
  | [(name, value)] =>
    (name = "encoding".toList && isEncoding value) ||
      (name = "standalone".toList && (value = "yes".toList || value = "no".toList))
  | [(name, value), (second, answer)] =>
    name = "encoding".toList && isEncoding value
      && second = "standalone".toList && (answer = "yes".toList || answer = "no".toList)
  | _ => false

/-- The fields of the declaration up to its end. -/
def readFields : (fuel : Nat) → List Char →
    Except Fault (List (List Char × List Char) × List Char)
  | 0, _ => .error .xml
  | fuel + 1, text =>
    match afterStart "?>".toList (skipGap text) with
    | some rest => .ok ([], rest)
    | none => do
      let (name, value, rest) ← readField (← needGap text)
      let (more, rest) ← readFields fuel rest
      return ((name, value) :: more, rest)

/-- The rest of a document behind its declaration, if it has one. -/
def skipDeclaration (text : List Char) : Except Fault (List Char) :=
  match afterStart "<?xml".toList text with
  | some (c :: rest) =>
    if isGap c then do
      let (fields, rest) ← readFields 4 (c :: rest)
      match fields with
      | (name, value) :: more =>
        if name = "version".toList && isVersion value && areFields more then return rest
        else throw .xml
      | [] => throw .xml
    else .ok text
  | _ => .ok text

/-! ### The document type -/

/-- The rest of a text behind a declaration whose extent alone is read: up to the first closing
bracket outside of quotes. -/
def skipMarkup : (fuel : Nat) → List Char → Except Fault (List Char)
  | 0, _ => .error .xml
  | _ + 1, [] => .error .xml
  | fuel + 1, c :: rest =>
    if c = '>' then .ok rest
    else if c = '<' then .error .xml
    else if c = '"' ∨ c = '\'' then do
      let (_, rest) ← readQuoted (c :: rest)
      skipMarkup fuel rest
    else skipMarkup fuel rest

/-- A text in which the references by number are resolved. -/
def resolveNumbers : (fuel : Nat) → List Char → Except Fault (List Char)
  | 0, _ => .error .xml
  | _ + 1, [] => .ok []
  | fuel + 1, c :: rest =>
    if c = '%' then .error .xml
    else if c = '&' then
      match rest with
      | '#' :: digits => do
        let (c, rest) ← readNumbered digits
        return c :: (← resolveNumbers fuel rest)
      | _ => do
        let (name, after) ← readName rest
        let after ← expect [';'] after
        return '&' :: name ++ ';' :: (← resolveNumbers fuel after)
    else do return c :: (← resolveNumbers fuel rest)

/-- Identifiers of a part outside of the document: a public and a system one. -/
structure Identifiers where
  /-- The public identifier. -/
  publicId : Option String
  /-- The system identifier. -/
  systemId : String
  deriving Repr

/-- The identifiers at the beginning of a text, if there are any. -/
def readIdentifiers (text : List Char) : Except Fault (Option Identifiers × List Char) :=
  match afterStart "PUBLIC".toList text, afterStart "SYSTEM".toList text with
  | some rest, _ => do
    let (publicId, rest) ← readQuoted (← needGap rest)
    let (systemId, rest) ← readQuoted (← needGap rest)
    return (some ⟨some (String.ofList publicId), String.ofList systemId⟩, rest)
  | none, some rest => do
    let (systemId, rest) ← readQuoted (← needGap rest)
    return (some ⟨none, String.ofList systemId⟩, rest)
  | none, none => .ok (none, text)

/-- The declaration of an entity, behind its keyword. -/
def readEntity (d : Declarations) (text : List Char) : Except Fault (Declarations × List Char) := do
  let text ← needGap text
  match text with
  | '%' :: rest => do
    let rest ← skipMarkup (rest.length + 1) (← needGap rest)
    return ({ d with incomplete := true }, rest)
  | _ => do
    let (name, rest) ← readName text
    let rest ← needGap rest
    match ← readIdentifiers rest with
    | (some _, rest) => do
      let d := d.declare (String.ofList name) []
      return (d, ← skipMarkup (rest.length + 1) rest)
    | (none, rest) => do
      let (raw, rest) ← readQuoted rest
      let value ← resolveNumbers (raw.length + 1) raw
      return (d.declare (String.ofList name) value, ← expect ['>'] (skipGap rest))

/-- The declarations of the internal part up to its closing bracket. An entity is refused when none
may be declared. -/
def readInternal : (fuel : Nat) → Declarations → List Char →
    Except Fault (Declarations × List Char)
  | 0, _, _ => .error .xml
  | fuel + 1, d, text =>
    match skipGap text with
    | ']' :: rest => .ok (d, rest)
    | '%' :: rest => do
      let (_, rest) ← readName rest
      readInternal fuel { d with incomplete := true } (← expect [';'] rest)
    | '<' :: '!' :: '-' :: '-' :: rest => do
      let (_, rest) ← readComment rest
      readInternal fuel d rest
    | '<' :: '?' :: rest => do
      let (_, _, rest) ← readInstruction rest
      readInternal fuel d rest
    | '<' :: '!' :: rest =>
      match afterStart "ENTITY".toList rest with
      | some rest => do
        let (d, rest) ← readEntity d rest
        if d.allowed then readInternal fuel d rest else throw .value
      | none =>
        if ["ELEMENT", "ATTLIST", "NOTATION"].any fun word => startsWith word.toList rest then do
          readInternal fuel d (← skipMarkup (rest.length + 1) rest)
        else .error .xml
    | _ => .error .xml

/-- A document type, behind its keyword: the node and the declarations. -/
def readDoctype (allowed : Bool) (text : List Char) :
    Except Fault (Node × Declarations × List Char) := do
  let (name, rest) ← readName (← needGap text)
  let (identifiers, rest) ← match rest with
    | c :: _ => if isGap c then readIdentifiers (skipGap rest) else pure (none, rest)
    | [] => pure (none, rest)
  let d : Declarations := ⟨[], identifiers.isSome, allowed⟩
  let node := fun internal => Node.doctype (String.ofList name)
    (identifiers.bind Identifiers.publicId) (identifiers.map Identifiers.systemId) internal
  match skipGap rest with
  | '[' :: inner => do
    let (d, rest) ← readInternal (inner.length + 1) d inner
    let internal := inner.take (inner.length - rest.length - 1)
    return (node (some (String.ofList internal)), d, ← expect ['>'] (skipGap rest))
  | rest => do return (node none, d, ← expect ['>'] rest)

end ResourceScript.Xml
