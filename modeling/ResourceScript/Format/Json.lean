import ResourceScript.Plain
import ResourceScript.Text.Quoted
/-!
# JSON text

Writing and reading of plain data as JSON. Characters beyond ASCII stand for themselves, infinities
and the value that is not a number have words of their own, and keys that are no texts are written
as their text. Reading accepts any layout; an escape that is half a surrogate pair is read as a
character of its own (`Text.unitChar`). That a written text is read back is shown in
`ResourceScript.Proofs.Format.Json`.
-/

set_option autoImplicit false

namespace ResourceScript.Json

open Text

/-! ### Strings -/

/-- One character inside quotes: quotes, backslashes and control characters are escaped. -/
def escapeChar (c : Char) : List Char :=
  if c = '"' then ['\\', '"']
  else if c = '\\' then ['\\', '\\']
  else if c = '\n' then ['\\', 'n']
  else if c = '\r' then ['\\', 'r']
  else if c = '\t' then ['\\', 't']
  else if c = Char.ofNat 0x0c then ['\\', 'f']
  else if c = Char.ofNat 0x08 then ['\\', 'b']
  else if c.toNat < 0x20 then '\\' :: 'u' :: hexDigits 4 c.toNat
  else [c]

/-- A text between quotes. -/
def quote (text : List Char) : List Char :=
  '"' :: (text.flatMap escapeChar ++ ['"'])

/-- Why a string literal is not valid. -/
inductive StringFault where
  /-- A backslash before a character that it does not escape. -/
  | badEscape
  /-- An escaped code unit without four hexadecimal digits. -/
  | badUnit
  /-- A control character that is not escaped. -/
  | controlChar
  /-- The closing quote is missing. -/
  | unterminated
  deriving DecidableEq, Repr

/-- The wording of a string fault. -/
def StringFault.reason : StringFault → String
  | badEscape => "Invalid \\escape"
  | badUnit => "Invalid \\uXXXX escape"
  | controlChar => "Invalid control character at"
  | unterminated => "Unterminated string starting at"

/-- The character that a short escape stands for. -/
def shortEscape? (c : Char) : Option Char :=
  if c = '"' ∨ c = '\\' ∨ c = '/' then some c
  else if c = 'b' then some (Char.ofNat 0x08)
  else if c = 'f' then some (Char.ofNat 0x0c)
  else if c = 'n' then some '\n'
  else if c = 'r' then some '\r'
  else if c = 't' then some '\t'
  else none

/-- Four hexadecimal digits as a code unit. -/
def unit? (a b c d : Char) : Option Nat := do
  return (((← hexValue? a) * 16 + (← hexValue? b)) * 16 + (← hexValue? c)) * 16 + (← hexValue? d)

/-- Whether a code unit is the first half of a surrogate pair. -/
def isHighSurrogate (n : Nat) : Bool :=
  0xd800 ≤ n && n ≤ 0xdbff

/-- Whether a code unit is the second half of a surrogate pair. -/
def isLowSurrogate (n : Nat) : Bool :=
  0xdc00 ≤ n && n ≤ 0xdfff

/-- Reads the code unit after a backslash and the letter u; together with a second half of a
surrogate pair right behind it, it is one character. -/
def readUnit : List Char → Except StringFault (Char × List Char)
  | a :: b :: c :: d :: rest =>
    match unit? a b c d with
    | none => .error .badUnit
    | some n =>
      match rest with
      | '\\' :: 'u' :: e :: f :: g :: h :: more =>
        if isHighSurrogate n then
          match unit? e f g h with
          | none => .error .badUnit
          | some m =>
            if isLowSurrogate m then
              .ok (Char.ofNat (0x10000 + (n - 0xd800) * 1024 + (m - 0xdc00)), more)
            else .ok (unitChar n, rest)
        else .ok (unitChar n, rest)
      | _ => .ok (unitChar n, rest)
  | _ => .error .badUnit

theorem readUnit_length {text rest : List Char} {c : Char} (h : readUnit text = .ok (c, rest)) :
    rest.length < text.length := by
  unfold readUnit at h
  repeat' split at h
  all_goals simp_all
  all_goals first
    | (obtain ⟨-, rfl⟩ := h; simp; try omega)
    | omega

/-- Reads a string after its opening quote: its characters and the text after its closing quote. -/
def readString : List Char → Except StringFault (List Char × List Char)
  | [] => .error .unterminated
  | c :: rest =>
    if c = '"' then .ok ([], rest)
    else if c = '\\' then
      match rest with
      | [] => .error .unterminated
      | e :: more =>
        if e = 'u' then
          match _hread : readUnit more with
          | .error fault => .error fault
          | .ok (escaped, after) =>
            (readString after).map fun (chars, after) => (escaped :: chars, after)
        else
          match shortEscape? e with
          | none => .error .badEscape
          | some escaped => (readString more).map fun (chars, after) => (escaped :: chars, after)
    else if c.toNat < 0x20 then .error .controlChar
    else (readString rest).map fun (chars, after) => (c :: chars, after)
termination_by text => text.length
decreasing_by
  · have := readUnit_length _hread
    simp only [List.length_cons]
    omega
  · simp only [List.length_cons]
    omega
  · simp only [List.length_cons]
    omega

/-! ### Writing -/

/-- The text of a key. -/
def keyText : Scalar → Except Fault (List Char)
  | .null => .ok "null".toList
  | .bool b => .ok (if b then "true" else "false").toList
  | .int n => Numeral.intText n
  | .real x => .ok (RealFormat.json.text x)
  | .text s => .ok s.toList

/-- The text of a scalar. -/
def scalarText : Scalar → Except Fault (List Char)
  | .text s => .ok (quote s.toList)
  | other => keyText other

mutual

/-- The text of plain data. -/
def write : Plain → Except Fault (List Char)
  | .scalar s => scalarText s
  | .list items => do return '[' :: ((← writeItems items) ++ [']'])
  | .map entries => do return '{' :: ((← writeEntries entries) ++ ['}'])

/-- The items of a list, separated by a comma and a space. -/
def writeItems : List Plain → Except Fault (List Char)
  | [] => .ok []
  | [item] => write item
  | item :: next :: rest => do
    return (← write item) ++ ',' :: ' ' :: (← writeItems (next :: rest))

/-- The entries of a map, separated by a comma and a space. -/
def writeEntries : List (Scalar × Plain) → Except Fault (List Char)
  | [] => .ok []
  | [(key, value)] => do
    return quote (← keyText key) ++ ':' :: ' ' :: (← write value)
  | (key, value) :: next :: rest => do
    return quote (← keyText key) ++ ':' :: ' ' :: ((← write value) ++ ',' :: ' ' ::
      (← writeEntries (next :: rest)))

end

/-! ### Reading -/

/-- The characters that may stand between the parts of a document. -/
def isLayout (c : Char) : Bool :=
  c == ' ' || c == '\t' || c == '\n' || c == '\r'

/-- A text without leading layout. -/
def skipLayout (text : List Char) : List Char :=
  text.dropWhile isLayout

/-- Reads the fraction of a number: nothing unless a digit follows the point. -/
def readFraction : List Char → List Char × List Char
  | '.' :: c :: rest =>
    if isAsciiDigit c then
      (c :: rest.takeWhile isAsciiDigit, rest.dropWhile isAsciiDigit)
    else ([], '.' :: c :: rest)
  | text => ([], text)

/-- Reads the exponent of a number: nothing unless a digit follows the mark and its sign. -/
def readExponent (text : List Char) : Option Int × List Char :=
  match text with
  | mark :: rest =>
    if mark = 'e' ∨ mark = 'E' then
      let (negative, digits) := Numeral.sign rest
      let exponent := digits.takeWhile isAsciiDigit
      if exponent.isEmpty then (none, text)
      else
        let n : Int := (Numeral.digitsValue exponent : Nat)
        (some (if negative then -n else n), digits.dropWhile isAsciiDigit)
    else (none, text)
  | [] => (none, [])

/-- Reads a number after its sign. -/
def readNumber (negative : Bool) (text : List Char) : Except Fault (Plain × List Char) :=
  let (whole, rest) : List Char × List Char :=
    match text with
    | '0' :: rest => (['0'], rest)
    | _ => (text.takeWhile isAsciiDigit, text.dropWhile isAsciiDigit)
  if whole.isEmpty then .error .json
  else
    let (fraction, rest) := readFraction rest
    let (exponent, rest) := readExponent rest
    if fraction.isEmpty && exponent.isNone then do
      let n ← Numeral.wholeValue (if negative then '-' :: whole else whole)
      return (.int n, rest)
    else
      .ok (.real (Double.ofDecimal negative (Numeral.digitsValue (whole ++ fraction))
        (exponent.getD 0 - (fraction.length : Int))), rest)

/-- Reads one of the fixed words. -/
def readWord (text : List Char) : Except Fault (Plain × List Char) :=
  let words : List (String × Plain) :=
    [("null", .null), ("true", .bool true), ("false", .bool false), ("NaN", .real .nan),
      ("Infinity", .real (.infinite false))]
  match words.findSome? fun (word, value) => (afterStart word.toList text).map (value, ·) with
  | some found => .ok found
  | none => .error .json

/-- Puts an entry under a text key. -/
def putText (key : String) (value : Plain) (entries : List (Scalar × Plain)) :
    List (Scalar × Plain) :=
  putEntry Scalar.sameKey (.text key) value entries

mutual

/-- Reads a value at the beginning of a text. The fuel bounds the number of reading steps. -/
def readValue : Nat → List Char → Except Fault (Plain × List Char)
  | 0, _ => .error .json
  | _, [] => .error .json
  | fuel + 1, c :: rest =>
    if c = '"' then
      match readString rest with
      | .ok (chars, after) => .ok (.text (String.ofList chars), after)
      | .error _ => .error .json
    else if c = '[' then
      match skipLayout rest with
      | ']' :: after => .ok (.list [], after)
      | inner => do
        let (items, after) ← readItems fuel inner
        return (.list items, after)
    else if c = '{' then
      match skipLayout rest with
      | '}' :: after => .ok (.map [], after)
      | inner => do
        let (entries, after) ← readEntries fuel [] inner
        return (.map entries, after)
    else if c = '-' then
      match afterStart "Infinity".toList rest with
      | some after => .ok (.real (.infinite true), after)
      | none => readNumber true rest
    else if isAsciiDigit c then readNumber false (c :: rest)
    else readWord (c :: rest)

/-- Reads the items of a list up to its closing bracket. -/
def readItems : Nat → List Char → Except Fault (List Plain × List Char)
  | 0, _ => .error .json
  | fuel + 1, text => do
    let (item, after) ← readValue fuel text
    match skipLayout after with
    | ']' :: rest => return ([item], rest)
    | ',' :: rest => do
      let (items, rest) ← readItems fuel (skipLayout rest)
      return (item :: items, rest)
    | _ => .error .json

/-- Reads the entries of a map up to its closing brace, adding them to those read before. -/
def readEntries : Nat → List (Scalar × Plain) → List Char →
    Except Fault (List (Scalar × Plain) × List Char)
  | 0, _, _ => .error .json
  | fuel + 1, entries, text =>
    match text with
    | '"' :: rest =>
      match readString rest with
      | .error _ => .error .json
      | .ok (key, after) =>
        match skipLayout after with
        | ':' :: rest => do
          let (value, after) ← readValue fuel (skipLayout rest)
          let entries := putText (String.ofList key) value entries
          match skipLayout after with
          | '}' :: rest => return (entries, rest)
          | ',' :: rest => readEntries fuel entries (skipLayout rest)
          | _ => .error .json
        | _ => .error .json
    | _ => .error .json

end

/-- Reads a whole document: one value with layout around it. -/
def read (text : List Char) : Except Fault Plain := do
  let (value, after) ← readValue (2 * text.length + 2) (skipLayout text)
  if (skipLayout after).isEmpty then return value else .error .json

/-- Reads a document; a blank text is null. -/
def readOrNull (text : List Char) : Except Fault Plain :=
  if (trim text).isEmpty then .ok .null else read text

end ResourceScript.Json
