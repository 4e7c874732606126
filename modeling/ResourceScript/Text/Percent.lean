import ResourceScript.Text.Utf8
import ResourceScript.Text.Quoted
/-!
# Percent encoding

Text in the restricted alphabet of locations: every byte of the UTF-8 form that is no unreserved
character is written as a percent sign and two hexadecimal digits. In query strings a space is
written as a plus sign.
-/

set_option autoImplicit false

namespace ResourceScript.Text.Percent

/-- The characters that are never escaped: ASCII letters and digits and four marks. -/
def isUnreserved (c : Char) : Bool :=
  isAsciiLetter c || isAsciiDigit c || c == '_' || c == '.' || c == '-' || c == '~'

/-- A hexadecimal digit in upper case. -/
def upperHexDigit (n : Nat) : Char :=
  if n < 10 then Char.ofNat (48 + n) else Char.ofNat (55 + n)

/-- One byte: itself when it is unreserved or `keep` says so, else escaped. -/
def encodeByte (keep : Char → Bool) (b : UInt8) : List Char :=
  let c := Char.ofNat b.toNat
  if b.toNat < 0x80 ∧ (isUnreserved c || keep c) then [c]
  else ['%', upperHexDigit (b.toNat / 16), upperHexDigit (b.toNat % 16)]

/-- Bytes with everything escaped but the unreserved characters and those to keep. -/
def encodeBytes (keep : Char → Bool) (bytes : List UInt8) : List Char :=
  bytes.flatMap (encodeByte keep)

/-- A text in a query string: spaces become plus signs. -/
def encodeQuery (text : List Char) : List Char :=
  (encodeBytes (· == ' ') (Utf8.encode text)).map fun c => if c = ' ' then '+' else c

/-- Undoes the escapes in ASCII characters; a percent sign without two hexadecimal digits stands for
itself. -/
def decodeAscii : List Char → List UInt8
  | [] => []
  | '%' :: a :: b :: rest =>
    match hexValue? a, hexValue? b with
    | some high, some low => UInt8.ofNat (high * 16 + low) :: decodeAscii rest
    | _, _ => UInt8.ofNat 0x25 :: decodeAscii (a :: b :: rest)
  | c :: rest => UInt8.ofNat c.toNat :: decodeAscii rest

/-- The bytes of an escaped text; characters beyond ASCII stand for their UTF-8 form. -/
def decodeBytes (text : List Char) : List UInt8 :=
  decodeAscii ((Utf8.encode text).map fun b => Char.ofNat b.toNat)

/-- The text of an escaped text. Escapes are decoded as UTF-8 within each run of ASCII
characters. -/
def decode (text : List Char) : List Char :=
  go [] text
where
  /-- Decodes the rest of the text; `run` holds the current run of ASCII characters in reverse. -/
  go (run : List Char) : List Char → List Char
    | [] => Utf8.decode (decodeAscii run.reverse)
    | c :: rest =>
      if c.toNat < 0x80 then go (c :: run) rest
      else Utf8.decode (decodeAscii run.reverse) ++ c :: go [] rest

/-- The text of an escaped text in a query string: plus signs are spaces. -/
def decodeQuery (text : List Char) : List Char :=
  decode (text.map fun c => if c = '+' then ' ' else c)

end ResourceScript.Text.Percent
