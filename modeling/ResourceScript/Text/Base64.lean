import ResourceScript.Fault
/-!
# Base64

Bytes as text over sixty-four characters. Reading is lenient: characters outside the alphabet are
passed over, and reading ends at a padding that completes a group of four.
-/

set_option autoImplicit false

namespace ResourceScript.Text.Base64

/-- The character of a group of six bits. -/
def digit (n : Nat) : Char :=
  if n < 26 then Char.ofNat (65 + n)
  else if n < 52 then Char.ofNat (71 + n)
  else if n < 62 then Char.ofNat (n - 4)
  else if n = 62 then '+' else '/'

/-- The group of six bits of a character of the alphabet. -/
def digitValue? (c : Char) : Option Nat :=
  if 'A' ≤ c ∧ c ≤ 'Z' then some (c.toNat - 65)
  else if 'a' ≤ c ∧ c ≤ 'z' then some (c.toNat - 71)
  else if '0' ≤ c ∧ c ≤ '9' then some (c.toNat + 4)
  else if c = '+' then some 62
  else if c = '/' then some 63
  else none

/-- The text of bytes, padded to a multiple of four characters. -/
def encode : List UInt8 → List Char
  | [] => []
  | [a] =>
    let n := a.toNat * 16
    [digit (n / 64), digit (n % 64), '=', '=']
  | [a, b] =>
    let n := (a.toNat * 256 + b.toNat) * 4
    [digit (n / 4096), digit (n / 64 % 64), digit (n % 64), '=']
  | a :: b :: c :: rest =>
    let n := (a.toNat * 256 + b.toNat) * 256 + c.toNat
    digit (n / 262144) :: digit (n / 4096 % 64) :: digit (n / 64 % 64) :: digit (n % 64) ::
      encode rest

/-- Reads characters: `position` counts the characters of the current group, `left` holds their
bits that are not yet output, `pads` counts the padding characters just seen. -/
def decodeFrom (position left pads : Nat) : List Char → Except Fault (List UInt8)
  | [] => if position = 0 then .ok [] else .error .base64
  | c :: rest =>
    if c = '=' then
      if 2 ≤ position then
        if 4 ≤ position + (pads + 1) then .ok [] else decodeFrom position left (pads + 1) rest
      else decodeFrom position left pads rest
    else match digitValue? c with
      | none => decodeFrom position left pads rest
      | some n =>
        match position with
        | 0 => decodeFrom 1 n 0 rest
        | 1 => (decodeFrom 2 (n % 16) 0 rest).map (UInt8.ofNat (left * 4 + n / 16) :: ·)
        | 2 => (decodeFrom 3 (n % 4) 0 rest).map (UInt8.ofNat (left * 16 + n / 4) :: ·)
        | _ => (decodeFrom 0 0 0 rest).map (UInt8.ofNat (left * 64 + n) :: ·)

/-- The bytes of a text. A text with characters beyond ASCII, or whose last group is incomplete, is
refused. -/
def decode (text : List Char) : Except Fault (List UInt8) :=
  if text.all fun c => c.toNat < 0x80 then decodeFrom 0 0 0 text else .error .value

end ResourceScript.Text.Base64
