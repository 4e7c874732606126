import ResourceScript.Text.Space
/-!
# UTF-8

Characters as bytes. Decoding never fails: each longest beginning of a valid sequence that is cut
short, and each byte that begins none, becomes one replacement character. A strict form of decoding
refuses such bytes.

A text is a sequence of characters, and a character is no surrogate: so encoding a text never fails.
A sequence of code points may have surrogates in it, and then it has no bytes (`encodePoints?`). The
texts are the sequences of code points that have bytes.
-/

set_option autoImplicit false

namespace ResourceScript.Text

/-- The character that stands for undecodable bytes. -/
def replacement : Char := Char.ofNat 0xfffd

namespace Utf8

/-- A byte as a natural number of six low bits behind the continuation mark. -/
def continuation (n : Nat) : UInt8 :=
  UInt8.ofNat (0x80 + n % 64)

/-- The bytes of one character. -/
def encodeChar (c : Char) : List UInt8 :=
  let n := c.toNat
  if n < 0x80 then [UInt8.ofNat n]
  else if n < 0x800 then [UInt8.ofNat (0xc0 + n / 64), continuation n]
  else if n < 0x10000 then [UInt8.ofNat (0xe0 + n / 4096), continuation (n / 64), continuation n]
  else
    [UInt8.ofNat (0xf0 + n / 262144), continuation (n / 4096), continuation (n / 64),
      continuation n]

/-- The bytes of a text. -/
def encode (text : List Char) : List UInt8 :=
  text.flatMap encodeChar

/-- The bytes of a code point; a surrogate has none. -/
def encodePoint? (n : Nat) : Option (List UInt8) :=
  if n.isValidChar then some (encodeChar (Char.ofNat n)) else none

/-- The bytes of a sequence of code points, if all of them have some. -/
def encodePoints? (points : List Nat) : Option (List UInt8) :=
  (points.mapM encodePoint?).map List.flatten

/-- What a leading byte promises: how many bytes follow, the least and greatest value of the first
of them, and the bits that the leading byte itself carries. -/
def lead? (byte : Nat) : Option (Nat × Nat × Nat × Nat) :=
  if 0xc2 ≤ byte ∧ byte ≤ 0xdf then some (1, 0x80, 0xbf, byte - 0xc0)
  else if byte = 0xe0 then some (2, 0xa0, 0xbf, 0)
  else if byte = 0xed then some (2, 0x80, 0x9f, 0xd)
  else if 0xe1 ≤ byte ∧ byte ≤ 0xef then some (2, 0x80, 0xbf, byte - 0xe0)
  else if byte = 0xf0 then some (3, 0x90, 0xbf, 0)
  else if 0xf1 ≤ byte ∧ byte ≤ 0xf3 then some (3, 0x80, 0xbf, byte - 0xf0)
  else if byte = 0xf4 then some (3, 0x80, 0x8f, 4)
  else none

/-- Reads `count` continuation bytes, the first of them between `least` and `greatest`. -/
def follow (bits : Nat) : (count least greatest : Nat) → List UInt8 → Option Nat × List UInt8
  | 0, _, _, bytes => (some bits, bytes)
  | _ + 1, _, _, [] => (none, [])
  | count + 1, least, greatest, b :: bytes =>
    if least ≤ b.toNat ∧ b.toNat ≤ greatest then
      follow (bits * 64 + (b.toNat - 0x80)) count 0x80 0xbf bytes
    else (none, b :: bytes)

theorem follow_length (bits count least greatest : Nat) (bytes : List UInt8) :
    (follow bits count least greatest bytes).2.length ≤ bytes.length := by
  induction bytes generalizing bits count least greatest with
  | nil => cases count <;> simp [follow]
  | cons b bytes ih =>
    cases count with
    | zero => simp [follow]
    | succ count =>
      simp only [follow]
      split
      · exact Nat.le_succ_of_le (ih ..)
      · simp

/-- Decodes bytes; `none` stands for bytes that are not the encoding of a character. -/
def decodeParts : List UInt8 → List (Option Char)
  | [] => []
  | b :: rest =>
    if b.toNat < 0x80 then some (Char.ofNat b.toNat) :: decodeParts rest
    else match lead? b.toNat with
      | none => none :: decodeParts rest
      | some (count, least, greatest, bits) =>
        (follow bits count least greatest rest).1.map Char.ofNat ::
          decodeParts (follow bits count least greatest rest).2
termination_by bytes => bytes.length
decreasing_by
  all_goals simp_wf
  have h := follow_length bits count least greatest rest
  omega

/-- Decodes bytes, undecodable ones becoming replacement characters. -/
def decode (bytes : List UInt8) : List Char :=
  (decodeParts bytes).map fun part => part.getD replacement

/-- Decodes bytes that are an encoded text, and refuses others. -/
def decodeStrict? (bytes : List UInt8) : Option (List Char) :=
  (decodeParts bytes).mapM id

end Utf8

end ResourceScript.Text
