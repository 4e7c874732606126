import ResourceScript.Number.Shortest
import ResourceScript.Text.Printable
/-!
# Quoted text

Text and bytes between quotes with every unprintable character escaped, so that each value has one
written form that shows all its characters.
-/

set_option autoImplicit false

namespace ResourceScript.Text

/-- A hexadecimal digit in lower case. -/
def hexDigit (n : Nat) : Char :=
  if n < 10 then Char.ofNat (48 + n) else Char.ofNat (87 + n)

/-- A number in hexadecimal with exactly `width` digits. -/
def hexDigits : (width n : Nat) → List Char
  | 0, _ => []
  | width + 1, n => hexDigits width (n / 16) ++ [hexDigit (n % 16)]

/-- The value of a hexadecimal digit of either case. -/
def hexValue? (c : Char) : Option Nat :=
  if '0' ≤ c ∧ c ≤ '9' then some (c.toNat - 48)
  else if 'a' ≤ c ∧ c ≤ 'f' then some (c.toNat - 87)
  else if 'A' ≤ c ∧ c ≤ 'F' then some (c.toNat - 55)
  else none

/-- The character of an escaped code unit. Half a surrogate pair is no character, and no text holds
it: it is replaced, where a text of code points would keep it and could then not be encoded
(`Utf8.encodePoints?`). -/
def unitChar (n : Nat) : Char :=
  if 0xd800 ≤ n ∧ n ≤ 0xdfff then Char.ofNat 0xfffd else Char.ofNat n

/-- Quotes are single unless the text holds a single quote and no double quote. -/
def quoteFor (text : List Char) : Char :=
  if text.contains '\'' && !text.contains '"' then '"' else '\''

/-- One character inside quotes. -/
def quotedChar (quote c : Char) : List Char :=
  if c = quote ∨ c = '\\' then ['\\', c]
  else if c = '\n' then ['\\', 'n']
  else if c = '\r' then ['\\', 'r']
  else if c = '\t' then ['\\', 't']
  else if isPrintable c then [c]
  else if c.toNat < 0x100 then '\\' :: 'x' :: hexDigits 2 c.toNat
  else if c.toNat < 0x10000 then '\\' :: 'u' :: hexDigits 4 c.toNat
  else '\\' :: 'U' :: hexDigits 8 c.toNat

/-- A text between quotes. -/
def quoted (text : List Char) : List Char :=
  let quote := quoteFor text
  quote :: (text.flatMap (quotedChar quote) ++ [quote])

/-- Bytes between quotes behind the letter b: ASCII stands for itself, every other byte is
escaped. -/
def quotedBytes (bytes : List UInt8) : List Char :=
  let chars := bytes.map fun b => Char.ofNat b.toNat
  let quote := quoteFor chars
  'b' :: quote :: (chars.flatMap fun c =>
    if c.toNat < 0x7f then quotedChar quote c else '\\' :: 'x' :: hexDigits 2 c.toNat) ++ [quote]

end ResourceScript.Text
