import ResourceScript.Fault
import ResourceScript.Text.Letter
import ResourceScript.Text.Quoted
import ResourceScript.Text.Space
/-!
# The small syntax of XML

Characters, names, references and attribute values: the pieces of which markup is made. Each reader
takes a piece off the beginning of a text and answers it together with the rest.
-/

set_option autoImplicit false

namespace ResourceScript.Xml

open Text

/-- White space between the parts of markup. -/
def isGap (c : Char) : Bool :=
  c == ' ' || c == '\t' || c == '\n' || c == '\r'

/-- Whether a character may occur in a document. -/
def isAllowed (c : Char) : Bool :=
  (0x20 ≤ c.toNat || c == '\t' || c == '\n' || c == '\r') && c.toNat != 0xfffe && c.toNat != 0xffff

/-- Whether a character begins a name. -/
def isNameStart (c : Char) : Bool :=
  if c.toNat < 0x80 then isAsciiLetter c || c == '_' || c == ':'
  else c.toNat < 0x10000 && isLetter c

/-- Whether a character may stand in a name. -/
def isNameChar (c : Char) : Bool :=
  isNameStart c || isAsciiDigit c || c == '-' || c == '.' || c.toNat == 0xb7
    || (0x80 ≤ c.toNat && c.toNat < 0x10000 && isDecimalDigit c)
    || (0x300 ≤ c.toNat && c.toNat ≤ 0x345)

/-- A text without the white space at its beginning. -/
def skipGap (text : List Char) : List Char :=
  text.dropWhile isGap

/-- A text without the white space at its beginning, of which there has to be some. -/
def needGap : List Char → Except Fault (List Char)
  | [] => .error .xml
  | c :: rest => if isGap c then .ok (skipGap rest) else .error .xml

/-- The rest of a text behind a beginning that it has to have. -/
def expect (start text : List Char) : Except Fault (List Char) :=
  match afterStart start text with
  | some rest => .ok rest
  | none => .error .xml

/-- A name. -/
def readName : List Char → Except Fault (List Char × List Char)
  | [] => .error .xml
  | c :: rest =>
    if isNameStart c then .ok (c :: rest.takeWhile isNameChar, rest.dropWhile isNameChar)
    else .error .xml

/-- The text in front of an ending and the text behind it. -/
def cutBefore (ending : List Char) : List Char → Option (List Char × List Char)
  | [] => if ending.isEmpty then some ([], []) else none
  | c :: rest =>
    match afterStart ending (c :: rest) with
    | some after => some ([], after)
    | none => (cutBefore ending rest).map fun (before, after) => (c :: before, after)

/-- A text between quotes of either kind. -/
def readQuoted : List Char → Except Fault (List Char × List Char)
  | [] => .error .xml
  | quote :: rest =>
    if quote = '"' ∨ quote = '\'' then
      match cutAt quote rest with
      | some parts => .ok parts
      | none => .error .xml
    else .error .xml

/-! ### References -/

/-- What a reference stands for. -/
inductive Reference where
  /-- A character. -/
  | char (c : Char)
  /-- An entity of the document. -/
  | entity (name : String)
  deriving Repr

/-- The character of a code point, if it may occur in a document. -/
def charOf (n : Nat) : Except Fault Char :=
  if (0xd800 ≤ n && n ≤ 0xdfff) || 0x10ffff < n then .error .xml
  else if isAllowed (Char.ofNat n) then .ok (Char.ofNat n)
  else .error .xml

/-- The value of digits to a base. -/
def digitsOf (base : Nat) (digits : List Char) : Nat :=
  digits.foldl (fun n c => n * base + (hexValue? c).getD 0) 0

/-- The character of a reference by number, behind the number sign. -/
def readNumbered (text : List Char) : Except Fault (Char × List Char) := do
  let (base, isDigit, text) : Nat × (Char → Bool) × List Char :=
    match text with
    | 'x' :: rest => (16, fun c => (hexValue? c).isSome, rest)
    | _ => (10, isAsciiDigit, text)
  let digits := text.takeWhile isDigit
  if digits.isEmpty then throw .xml
  let rest ← expect [';'] (text.dropWhile isDigit)
  return (← charOf (digitsOf base digits), rest)

/-- The entities that every document has. -/
def predefined? (name : List Char) : Option Char :=
  if name = "amp".toList then some '&'
  else if name = "lt".toList then some '<'
  else if name = "gt".toList then some '>'
  else if name = "quot".toList then some '"'
  else if name = "apos".toList then some '\''
  else none

/-- A reference, behind its ampersand. -/
def readReference : List Char → Except Fault (Reference × List Char)
  | '#' :: rest => do
    let (c, rest) ← readNumbered rest
    return (.char c, rest)
  | text => do
    let (name, rest) ← readName text
    let rest ← expect [';'] rest
    match predefined? name with
    | some c => return (.char c, rest)
    | none => return (.entity (String.ofList name), rest)

/-! ### Declared entities -/

/-- What a document declares before its first element. -/
structure Declarations where
  /-- The texts of the declared entities. -/
  entities : List (String × List Char)
  /-- Whether there are declarations that are not read, so that unknown entities are passed over. -/
  incomplete : Bool
  /-- Whether entities may be declared at all. -/
  allowed : Bool
  deriving Repr

namespace Declarations

/-- No declarations. -/
def empty (allowed : Bool) : Declarations := ⟨[], false, allowed⟩

/-- The declarations without those of an entity: an entity cannot contain itself. -/
def without (d : Declarations) (name : String) : Declarations :=
  { d with entities := d.entities.filter fun entry => entry.1 != name }

/-- The number of characters of all entities. -/
def size (d : Declarations) : Nat :=
  d.entities.foldl (fun count entry => count + entry.2.length + 1) 0

/-- The declarations with an entity; the first declaration of a name holds. -/
def declare (d : Declarations) (name : String) (text : List Char) : Declarations :=
  if (d.entities.lookup name).isSome then d
  else { d with entities := d.entities ++ [(name, text)] }

end Declarations

/-! ### Attributes -/

/-- The value of an attribute: white space counts as spaces, references are resolved. -/
def valueWithin : (fuel : Nat) → Declarations → List Char → Except Fault (List Char)
  | 0, _, _ => .error .xml
  | _ + 1, _, [] => .ok []
  | fuel + 1, d, c :: rest =>
    if c = '<' then .error .xml
    else if c = '&' then do
      let (reference, rest) ← readReference rest
      match reference with
      | .char c => return c :: (← valueWithin fuel d rest)
      | .entity name =>
        match d.entities.lookup name with
        | some text => return (← valueWithin fuel (d.without name) text) ++ (← valueWithin fuel d rest)
        | none => if d.incomplete then valueWithin fuel d rest else throw .xml
    else if isGap c then do return ' ' :: (← valueWithin fuel d rest)
    else if isAllowed c then do return c :: (← valueWithin fuel d rest)
    else .error .xml

/-- The value of an attribute as it is written between its quotes. -/
def attributeValue (d : Declarations) (text : List Char) : Except Fault String := do
  return String.ofList (← valueWithin (text.length + d.size + 1) d text)

/-- The attributes of a start tag behind its name, up to the end of the tag; the flag tells whether
the tag closes its own element. -/
def readAttributes (d : Declarations) : (fuel : Nat) → List Char →
    Except Fault (List (String × String) × Bool × List Char)
  | 0, _ => .error .xml
  | fuel + 1, text =>
    match skipGap text with
    | '>' :: rest => .ok ([], false, rest)
    | '/' :: '>' :: rest => .ok ([], true, rest)
    | _ => do
      let (name, rest) ← readName (← needGap text)
      let rest ← expect ['='] (skipGap rest)
      let (raw, rest) ← readQuoted (skipGap rest)
      let value ← attributeValue d raw
      let (more, closed, rest) ← readAttributes d fuel rest
      let name := String.ofList name
      if (more.lookup name).isSome then throw .xml
      return ((name, value) :: more, closed, rest)

end ResourceScript.Xml
