import ResourceScript.Format.Xml.Doctype
/-!
# Reading XML documents

A document is read into its tree. Tags have to match, names with a colon need a declared namespace
when namespaces count, and declared entities are replaced by what they stand for.
-/

set_option autoImplicit false

namespace ResourceScript.Xml

open Text

/-- Puts text in front of nodes; neighbouring texts become one. -/
def addText (text : List Char) (nodes : List Node) : List Node :=
  if text.isEmpty then nodes
  else match nodes with
    | .text content :: rest => .text (String.ofList text ++ content) :: rest
    | _ => .text (String.ofList text) :: nodes

/-- Puts nodes in front of nodes; neighbouring texts become one. -/
def joinNodes (first : List Node) (second : List Node) : List Node :=
  match first with
  | [] => second
  | .text content :: rest => addText content.toList (joinNodes rest second)
  | node :: rest => node :: joinNodes rest second

/-- Whether a character belongs to plain text. -/
def isPlainChar (c : Char) : Bool :=
  c != '<' && c != '&'

/-- Refuses text that is not allowed between tags. -/
def checkText (text : List Char) : Except Fault Unit :=
  if text.all isAllowed && !occursIn "]]>".toList text then .ok () else .error .xml

/-- The content between tags up to an end tag or the end of the text. -/
def readContent : (fuel : Nat) → Declarations → List Char →
    Except Fault (List Node × List Char)
  | 0, _, _ => .error .xml
  | fuel + 1, d, text =>
    match text with
    | [] => .ok ([], [])
    | '<' :: '/' :: _ => .ok ([], text)
    | '<' :: '?' :: rest => do
      let (target, content, rest) ← readInstruction rest
      let (more, rest) ← readContent fuel d rest
      return (.instruction (String.ofList target) (String.ofList content) :: more, rest)
    | '<' :: '!' :: rest =>
      match afterStart "--".toList rest, afterStart "[CDATA[".toList rest with
      | some rest, _ => do
        let (content, rest) ← readComment rest
        let (more, rest) ← readContent fuel d rest
        return (.comment (String.ofList content) :: more, rest)
      | none, some rest =>
        match cutBefore "]]>".toList rest with
        | some (content, rest) => do
          if !content.all isAllowed then throw .xml
          let (more, rest) ← readContent fuel d rest
          return (if content.isEmpty then more else .verbatim (String.ofList content) :: more, rest)
        | none => .error .xml
      | none, none => .error .xml
    | '<' :: rest => do
      let (name, rest) ← readName rest
      let (attributes, closed, rest) ← readAttributes d (rest.length + 1) rest
      let (children, rest) ← if closed then pure ([], rest) else do
        let (children, rest) ← readContent fuel d rest
        let rest ← expect (['<', '/'] ++ name) rest
        pure (children, ← expect ['>'] (skipGap rest))
      let (more, rest) ← readContent fuel d rest
      return (.element (String.ofList name) attributes children :: more, rest)
    | '&' :: rest => do
      let (reference, rest) ← readReference rest
      match reference with
      | .char c => do
        let (more, rest) ← readContent fuel d rest
        return (addText [c] more, rest)
      | .entity name =>
        match d.entities.lookup name with
        | some replacement => do
          let (inner, left) ← readContent fuel (d.without name) replacement
          if !left.isEmpty then throw .xml
          let (more, rest) ← readContent fuel d rest
          return (joinNodes inner more, rest)
        | none => if d.incomplete then readContent fuel d rest else throw .xml
    | text => do
      let plain := text.takeWhile isPlainChar
      checkText plain
      let (more, rest) ← readContent fuel d (text.dropWhile isPlainChar)
      return (addText plain more, rest)

/-- The nodes between the parts of a document: comments and instructions. -/
def readMisc : (fuel : Nat) → List Char → Except Fault (List Node × List Char)
  | 0, _ => .error .xml
  | fuel + 1, text =>
    match skipGap text with
    | '<' :: '?' :: rest => do
      let (target, content, rest) ← readInstruction rest
      let (more, rest) ← readMisc fuel rest
      return (.instruction (String.ofList target) (String.ofList content) :: more, rest)
    | '<' :: '!' :: '-' :: '-' :: rest => do
      let (content, rest) ← readComment rest
      let (more, rest) ← readMisc fuel rest
      return (.comment (String.ofList content) :: more, rest)
    | rest => .ok ([], rest)

/-- A text in which every line ends in a line feed alone. -/
def unifyLineEnds : List Char → List Char
  | [] => []
  | '\r' :: '\n' :: rest => '\n' :: unifyLineEnds rest
  | '\r' :: rest => '\n' :: unifyLineEnds rest
  | c :: rest => c :: unifyLineEnds rest

/-! ### Namespaces -/

/-- The namespaces that prefixes stand for. -/
abbrev Bindings := List (List Char × String)

/-- The namespace of names with the prefix `xml`. -/
def xmlNamespace : String := "http://www.w3.org/XML/1998/namespace"

/-- The namespace of namespace declarations. -/
def declarationNamespace : String := "http://www.w3.org/2000/xmlns/"

/-- A name as its prefix, if there is one, and its local part. -/
def splitName (name : String) : Except Fault (Option (List Char) × List Char) :=
  match splitOn ':' name.toList with
  | [whole] => .ok (none, whole)
  | [start, rest] =>
    match rest with
    | c :: _ => if start.isEmpty || !isNameStart c then .error .xml else .ok (some start, rest)
    | [] => .error .xml
  | _ => .error .xml

/-- The prefix that an attribute declares; the default namespace has an empty one. -/
def declaredPrefix? (name : String) : Option (List Char) :=
  if name = "xmlns" then some [] else afterStart "xmlns:".toList name.toList

/-- The bindings of a declaration on top of others. -/
def declareNamespace (bindings : Bindings) (start : List Char) (uri : String) :
    Except Fault Bindings :=
  if start = "xmlns".toList || uri = declarationNamespace then .error .xml
  else if (start = "xml".toList) != (uri = xmlNamespace) then .error .xml
  else if uri = "" && !start.isEmpty then .error .xml
  else .ok ((start, uri) :: bindings)

/-- The expanded name of an attribute: its namespace, if it has a prefix, and its local part. -/
def expandedName (bindings : Bindings) (name : String) :
    Except Fault (Option String × List Char) := do
  match ← splitName name with
  | (none, part) => return (none, part)
  | (some start, part) =>
    match bindings.lookup start with
    | some uri => return (some uri, part)
    | none => throw .xml

mutual

/-- A node whose names all have declared namespaces; the declarations of an element come first among
its attributes. -/
def resolveNode (bindings : Bindings) : Node → Except Fault Node
  | .element name attributes children => do
    let declared := attributes.filter fun entry => (declaredPrefix? entry.1).isSome
    let others := attributes.filter fun entry => (declaredPrefix? entry.1).isNone
    let bindings ← declared.foldlM (fun bindings entry => do
      discard (splitName entry.1)
      declareNamespace bindings ((declaredPrefix? entry.1).getD []) entry.2) bindings
    discard (expandedName bindings name)
    let names ← others.mapM fun entry => expandedName bindings entry.1
    if names.eraseDups.length < names.length then throw .xml
    return .element name (declared ++ others) (← resolveNodes bindings children)
  | node => .ok node

/-- Nodes whose names all have declared namespaces. -/
def resolveNodes (bindings : Bindings) : List Node → Except Fault (List Node)
  | [] => .ok []
  | node :: rest => do return (← resolveNode bindings node) :: (← resolveNodes bindings rest)

end

/-! ### Documents -/

/-- The element that a document consists of. -/
def readRoot (d : Declarations) (text : List Char) :
    Except Fault (Node × List Char) :=
  match text with
  | '<' :: c :: rest =>
    if isNameStart c then do
      let (name, rest) ← readName (c :: rest)
      let (attributes, closed, rest) ← readAttributes d (rest.length + 1) rest
      let (children, rest) ← if closed then pure ([], rest) else do
        let (children, rest) ← readContent (rest.length + d.size + 1) d rest
        let rest ← expect (['<', '/'] ++ name) rest
        pure (children, ← expect ['>'] (skipGap rest))
      return (.element (String.ofList name) attributes children, rest)
    else .error .xml
  | _ => .error .xml

/-- The document type at the beginning of a text, if there is one. -/
def readDoctype? (allowed : Bool) (text : List Char) :
    Except Fault (List Node × Declarations × List Char) :=
  match afterStart "<!DOCTYPE".toList text with
  | some rest => do
    let (node, d, rest) ← readDoctype allowed rest
    return ([node], d, rest)
  | none => .ok ([], .empty allowed, text)

/-- Reads a document; `namespaces` tells whether prefixes have to be declared, `entities` whether the
document may declare entities. -/
def Document.read (namespaces entities : Bool) (text : List Char) : Except Fault Document := do
  let text := unifyLineEnds text
  let text := if text.head? = some (Char.ofNat 0xfeff) then text.drop 1 else text
  let text ← skipDeclaration text
  let (before, rest) ← readMisc (text.length + 1) text
  let (doctype, d, rest) ← readDoctype? entities rest
  let (between, rest) ← readMisc (rest.length + 1) rest
  let (root, rest) ← readRoot d rest
  let (after, rest) ← readMisc (rest.length + 1) rest
  if !rest.isEmpty then throw .xml
  let nodes := before ++ doctype ++ between ++ [root] ++ after
  if namespaces then return ⟨← resolveNodes [("xml".toList, xmlNamespace)] nodes⟩
  else return ⟨nodes⟩

end ResourceScript.Xml
