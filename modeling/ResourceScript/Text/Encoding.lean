import ResourceScript.Fault
import ResourceScript.Text.Charset
/-!
# Strict encoding and decoding

Texts become bytes, and bytes texts, by an encoding of a given name. What an encoding cannot
represent is refused, left out or replaced.
-/

set_option autoImplicit false

namespace ResourceScript.Text.Charset

/-- How to go on where an encoding fails. -/
inductive Handling where
  /-- The failure is one of the whole. -/
  | strict
  /-- What fails is left out. -/
  | ignore
  /-- What fails is replaced. -/
  | replace
  /-- The name of a handling that does not exist: a failure is one of the name. -/
  | unknown
  deriving DecidableEq, Repr

/-- The handling of a name; `strict` when none is given. -/
def Handling.ofName (name : Option (List Char)) : Handling :=
  match name.map String.ofList with
  | none | some "strict" => .strict
  | some "ignore" => .ignore
  | some "replace" => .replace
  | some _ => .unknown

/-- The encoding of a name; UTF-8 when none is given. -/
def named (name : Option (List Char)) : Except Fault Charset :=
  match name with
  | none => .ok .utf8
  | some name =>
    match ofName? name with
    | some charset => .ok charset
    | none => .error .lookup

/-- A number in two bytes. -/
def bytes16 (bigEndian : Bool) (n : Nat) : List UInt8 :=
  let high := UInt8.ofNat (n / 256)
  let low := UInt8.ofNat n
  if bigEndian then [high, low] else [low, high]

/-- A character in UTF-16. -/
def encodeChar16 (bigEndian : Bool) (c : Char) : List UInt8 :=
  let n := c.toNat
  if n < 0x10000 then bytes16 bigEndian n
  else
    let rest := n - 0x10000
    bytes16 bigEndian (0xd800 + rest / 0x400) ++ bytes16 bigEndian (0xdc00 + rest % 0x400)

/-- A character in UTF-32. -/
def encodeChar32 (bigEndian : Bool) (c : Char) : List UInt8 :=
  let n := c.toNat
  if bigEndian then bytes16 true (n / 0x10000) ++ bytes16 true n
  else bytes16 false n ++ bytes16 false (n / 0x10000)

/-- The bytes of a character, if the encoding has it. -/
def encodeChar? (charset : Charset) (c : Char) : Option (List UInt8) :=
  match charset with
  | utf8 | utf8Marked => some (Utf8.encodeChar c)
  | ascii => if c.toNat < 0x80 then some [UInt8.ofNat c.toNat] else none
  | latin1 => if c.toNat < 0x100 then some [UInt8.ofNat c.toNat] else none
  | utf16 bigEndian => some (encodeChar16 bigEndian c)
  | utf16Marked => some (encodeChar16 false c)
  | utf32 bigEndian => some (encodeChar32 bigEndian c)
  | utf32Marked => some (encodeChar32 false c)
  | single table =>
    if c.toNat < 0x80 then some [UInt8.ofNat c.toNat]
    else if c = replacement then none
    else (table.findIdx? fun n => n == c.toNat).map fun i => [UInt8.ofNat (0x80 + i)]

/-- The mark that an encoding puts in front. -/
def mark : Charset → List UInt8
  | utf8Marked => [0xef, 0xbb, 0xbf]
  | utf16Marked => [0xff, 0xfe]
  | utf32Marked => [0xff, 0xfe, 0, 0]
  | _ => []

/-- The bytes of a text. -/
def encode (charset : Charset) (handling : Handling) (text : List Char) :
    Except Fault (List UInt8) := do
  let parts ← text.mapM fun c =>
    match encodeChar? charset c, handling with
    | some bytes, _ => .ok bytes
    | none, .strict => .error .encoding
    | none, .ignore => .ok []
    | none, .replace => .ok [UInt8.ofNat 63]
    | none, .unknown => .error .lookup
  return charset.mark ++ parts.flatten

/-- The bytes of a text by the names of an encoding and a handling. -/
def encodeNamed (name handling : Option (List Char)) (text : List Char) :
    Except Fault (List UInt8) := do
  encode (← named name) (Handling.ofName handling) text

/-- The text of bytes, if they are a text of the encoding. -/
def decodeStrict? (charset : Charset) (bytes : List UInt8) : Option (List Char) :=
  match charset with
  | utf8 => Utf8.decodeStrict? bytes
  | _ =>
    let text := charset.decode bytes
    if text.contains replacement then none else some text

/-- The text of bytes; what is no text of the encoding is handled. -/
def decodeWith (charset : Charset) (handling : Handling) (bytes : List UInt8) :
    Except Fault (List Char) :=
  match decodeStrict? charset bytes, handling with
  | some text, _ => .ok text
  | none, .strict => .error .decoding
  | none, .ignore => .ok ((charset.decode bytes).filter (· != replacement))
  | none, .replace => .ok (charset.decode bytes)
  | none, .unknown => .error .lookup

/-- The text of bytes by the names of an encoding and a handling; no bytes are the empty text
whatever the names. -/
def decodeNamed (name handling : Option (List Char)) (bytes : List UInt8) :
    Except Fault (List Char) := do
  if bytes.isEmpty then return []
  decodeWith (← named name) (Handling.ofName handling) bytes

end ResourceScript.Text.Charset
