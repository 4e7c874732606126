import ResourceScript.Member.Argument
import ResourceScript.Text.Encoding
import ResourceScript.Text.Printable
/-!
# Members of texts and bytes

What scripts can ask of texts and of bytes. Of bytes only the way back to texts and the hexadecimal
form are spelled out, and of texts all but the members that read a language of their own (`format`,
`format_map`, `translate`, `maketrans`) or a table that nothing else needs (`casefold`, `islower`,
`isupper`, `istitle`, `isnumeric`, `isidentifier`): those are left to the interpreter
(`Member.ofNative`).
-/

set_option autoImplicit false

namespace ResourceScript.Member

open Text

/-! ### Splitting -/

/-- The words of a text between white space; of more than `most` splits the rest stays whole. -/
def wordsFrom : (fuel : Nat) → (most : Option Nat) → List Char → List (List Char)
  | 0, _, _ => []
  | fuel + 1, most, chars =>
    match chars.dropWhile isSpace with
    | [] => []
    | rest =>
      if most = some 0 then [trimEndBy isSpace rest]
      else rest.takeWhile (fun c => !isSpace c) ::
        wordsFrom fuel (most.map (· - 1)) (rest.dropWhile fun c => !isSpace c)

/-- The pieces of a text between the occurrences of a separator; of more than `most` splits the rest
stays whole. -/
def piecesFrom (separator : List Char) : (fuel : Nat) → (most : Option Nat) → (piece : List Char) →
    List Char → List (List Char)
  | 0, _, piece, chars => [piece.reverse ++ chars]
  | _ + 1, _, piece, [] => [piece.reverse]
  | fuel + 1, most, piece, c :: rest =>
    if most = some 0 then [piece.reverse ++ c :: rest]
    else match afterStart separator (c :: rest) with
      | some after => piece.reverse :: piecesFrom separator fuel (most.map (· - 1)) [] after
      | none => piecesFrom separator fuel most (c :: piece) rest

/-- The pieces of a text between separators, or its words without one. -/
def pieces (separator : Option (List Char)) (most : Option Nat) (chars : List Char) :
    List (List Char) :=
  match separator with
  | none => wordsFrom (chars.length + 1) most chars
  | some separator => piecesFrom separator (chars.length + 1) most [] chars

/-- The pieces of a text, split from its end. -/
def piecesBackward (separator : Option (List Char)) (most : Option Nat) (chars : List Char) :
    List (List Char) :=
  ((pieces (separator.map List.reverse) most chars.reverse).map List.reverse).reverse

/-- The separator and the greatest number of splits among arguments. -/
def splitArguments (arguments : List Value) : Task (Option (List Char) × Option Nat) := do
  let separator ← nullable text arguments 0
  let most ← optional size arguments 1
  if separator = some [] then Script.fail .value
  return (separator, most.bind fun n => if n < 0 then none else some n.toNat)

/-- Texts as a list of values. -/
def newTexts (parts : List (List Char)) : Task Value :=
  Script.newList (parts.map ofText)

/-- The lines of a text together with their ends. -/
def linesWithEnds (line : List Char) : List Char → List (List Char)
  | [] => if line.isEmpty then [] else [line.reverse]
  | '\r' :: '\n' :: rest => ('\n' :: '\r' :: line).reverse :: linesWithEnds [] rest
  | c :: rest =>
    if isLineBreak c then (c :: line).reverse :: linesWithEnds [] rest
    else linesWithEnds (c :: line) rest

/-! ### Searching -/

/-- The positions from the first to the last at which a text may begin inside another. -/
def positions (part chars : List Char) (start stop : Nat) : List Nat :=
  if stop < start + part.length then []
  else ((List.range (stop + 1 - part.length)).drop start).filter fun i =>
    startsWith part (chars.drop i)

/-- The bounds among arguments from a position on. -/
def bounds (length : Nat) (arguments : List Value) (position : Nat) : Task (Nat × Nat × Bool) := do
  let start ← nullable integer arguments position
  let stop ← nullable integer arguments (position + 1)
  return ((start.map (clamp length)).getD 0, (stop.map (clamp length)).getD length,
    (start.map fun n => decide (n ≤ (length : Int))).getD true)

/-- The places where a text occurs in another between the bounds of the arguments. -/
def occurrences (chars : List Char) (arguments : List Value) : Task (List Nat) := do
  let part ← text (argument arguments 0)
  let (start, stop, inside) ← bounds chars.length arguments 1
  return if inside then positions part chars start stop else []

/-- The number of occurrences that do not overlap. -/
def countApart (width : Nat) : (next : Nat) → List Nat → Nat
  | _, [] => 0
  | next, i :: rest => if next ≤ i then 1 + countApart width (i + max width 1) rest
      else countApart width next rest

/-- Whether a text fits one of the texts of an argument between bounds: begins or ends with it. -/
def affixed (fits : List Char → List Char → Bool) (chars : List Char) (arguments : List Value) :
    Task Value := do
  let (start, stop, inside) ← bounds chars.length arguments 1
  let part := (chars.take stop).drop start
  let affixes ← match argument arguments 0 with
    | .tuple items => items.mapM text
    | single => do pure [← text single]
  return .bool (inside && start ≤ stop && affixes.any fun affix => fits affix part)

/-- A member that answers the place of one of the occurrences of a text. -/
def finding (choose : List Nat → Option Nat) (missing : Task Value) (chars : List Char) : Overload :=
  checked 1 3 fun arguments => do
    match choose (← occurrences chars arguments) with
    | some i => return .int i
    | none => missing

/-- A member that cuts a text at one of the places of a separator, with the three parts for a text
without it. -/
def parting (cut : Option (List Char) → Option Nat → List Char → List (List Char))
    (whole : List (List Char)) (chars : List Char) : Overload :=
  declared 1 1 fun arguments => do
    let separator ← text (argument arguments 0)
    if separator.isEmpty then Script.fail .value
    else
      let parts := match cut (some separator) (some 1) chars with
        | [before, behind] => [before, separator, behind]
        | _ => whole
      return .tuple (parts.map ofText)

/-! ### Changing -/

/-- Replaces the first occurrences of a text, at most a number of them. -/
def replaceFrom (old new : List Char) : (fuel : Nat) → (most : Option Nat) → List Char → List Char
  | 0, _, chars => chars
  | fuel + 1, most, chars =>
    if most = some 0 then chars
    else match afterStart old chars, chars with
      | some after, c :: rest =>
        if old.isEmpty then new ++ c :: replaceFrom old new fuel (most.map (· - 1)) rest
        else new ++ replaceFrom old new fuel (most.map (· - 1)) after
      | some _, [] => if old.isEmpty then new else []
      | none, c :: rest => c :: replaceFrom old new fuel most rest
      | none, [] => []

/-- A text in the middle of a width. -/
def center (chars : List Char) (width : Int) (fill : Char) : List Char :=
  if width ≤ chars.length then chars
  else
    let margin := width.toNat - chars.length
    let left := margin / 2 + (if margin % 2 = 1 ∧ width.toNat % 2 = 1 then 1 else 0)
    List.replicate left fill ++ chars ++ List.replicate (margin - left) fill

/-- A member that fills a text up to a width, with blanks unless another character is given. -/
def filling (fillUp : List Char → Int → Char → List Char) (chars : List Char) : Overload :=
  declared 1 2 fun arguments => do
    let width ← size (argument arguments 0)
    let fill ← optional oneChar arguments 1
    return ofText (fillUp chars width (fill.getD ' '))

/-- The characters that a text lacks up to a width. -/
def margin (chars : List Char) (width : Int) (fill : Char) : List Char :=
  List.replicate (width.toNat - chars.length) fill

/-- A member that strips the characters of its argument from a text, white space without one. -/
def stripping (strip : (Char → Bool) → List Char → List Char) (chars : List Char) : Overload :=
  declared 0 1 fun arguments => do
    match ← nullable text arguments 0 with
    | none => return ofText (strip isSpace chars)
    | some drop => return ofText (strip drop.contains chars)

/-- A text with spaces up to the next multiple of a width for each tab. -/
def expandTabs (width : Int) : (column : Nat) → List Char → List Char
  | _, [] => []
  | column, c :: rest =>
    if c = '\t' then
      let count := if width ≤ 0 then 0 else width.toNat - column % width.toNat
      List.replicate count ' ' ++ expandTabs width (column + count) rest
    else c :: expandTabs width (if c = '\n' ∨ c = '\r' then 0 else column + 1) rest

/-- A numeral with zeros behind its sign up to a width. -/
def fillZeros (chars : List Char) (width : Int) : List Char :=
  let zeros := List.replicate (width.toNat - chars.length) '0'
  match chars with
  | '+' :: rest => '+' :: zeros ++ rest
  | '-' :: rest => '-' :: zeros ++ rest
  | chars => zeros ++ chars

/-- The changes of a text that need no arguments, by name. -/
def textChange? (name : String) : Option (List Char → List Char) :=
  match name with
  | "upper" => some upper
  | "lower" => some lower
  | "title" => some titleCase
  | "capitalize" => some capitalize
  | "swapcase" => some swapCase
  | _ => none

/-- The tests of a text that need no arguments, by name. -/
def textTest? (name : String) : Option (List Char → Bool) :=
  match name with
  | "isalpha" => some fun chars => !chars.isEmpty && chars.all isLetter
  | "isdecimal" => some fun chars => !chars.isEmpty && chars.all isDecimalDigit
  | "isdigit" => some fun chars => !chars.isEmpty && chars.all isDigitForm
  | "isspace" => some fun chars => !chars.isEmpty && chars.all isSpace
  | "isalnum" => some fun chars => !chars.isEmpty && chars.all fun c => c != '_' && isWordChar c
  | "isascii" => some fun chars => chars.all fun c => c.toNat < 0x80
  | "isprintable" => some fun chars => chars.all isPrintable
  | _ => none

/-- The members of a text that take arguments. -/
def textMethod? (chars : List Char) (name : String) : Option Overload :=
  match name with
  | "split" => some (declared 0 2 fun arguments => do
      let (separator, most) ← splitArguments arguments
      newTexts (pieces separator most chars))
  | "rsplit" => some (declared 0 2 fun arguments => do
      let (separator, most) ← splitArguments arguments
      newTexts (piecesBackward separator most chars))
  | "splitlines" => some (declared 0 1 fun arguments => do
      let keep := (← optional shortSize arguments 0).getD 0
      newTexts (if keep = 0 then lines chars else linesWithEnds [] chars))
  | "replace" => some (declared 2 3 fun arguments => do
      let old ← text (argument arguments 0)
      let new ← text (argument arguments 1)
      let most ← optional size arguments 2
      return ofText (replaceFrom old new (chars.length + 1)
        (most.bind fun n => if n < 0 then none else some n.toNat) chars))
  | "strip" => some (stripping (fun drop chars => trimEndBy drop (trimStartBy drop chars)) chars)
  | "lstrip" => some (stripping trimStartBy chars)
  | "rstrip" => some (stripping trimEndBy chars)
  | "join" => some (declared 1 1 fun arguments => do
      let parts ← (← iterated (argument arguments 0)).mapM text
      return ofText (joinWith chars parts))
  | "zfill" => some (declared 1 1 fun arguments => do
      return ofText (fillZeros chars (← size (argument arguments 0))))
  | "center" => some (filling center chars)
  | "ljust" => some (filling (fun chars width fill => chars ++ margin chars width fill) chars)
  | "rjust" => some (filling (fun chars width fill => margin chars width fill ++ chars) chars)
  | "expandtabs" => some (declared 0 1 fun arguments => do
      return ofText (expandTabs ((← optional shortSize arguments 0).getD 8) 0 chars))
  | "partition" => some (parting pieces [chars, [], []] chars)
  | "rpartition" => some (parting piecesBackward [[], [], chars] chars)
  | "removeprefix" => some (declared 1 1 fun arguments => do
      return ofText ((afterStart (← text (argument arguments 0)) chars).getD chars))
  | "removesuffix" => some (declared 1 1 fun arguments => do
      let suffix ← text (argument arguments 0)
      return ofText (((afterStart suffix.reverse chars.reverse).map List.reverse).getD chars))
  | "encode" => some (declared 0 2 fun arguments => do
      let charset ← optional text arguments 0
      let handling ← optional text arguments 1
      let bytes ← Script.ofExcept (Charset.encodeNamed charset handling chars)
      return .atom (.bytes bytes))
  | "find" => some (finding List.head? (pure (.int (-1))) chars)
  | "rfind" => some (finding List.getLast? (pure (.int (-1))) chars)
  | "index" => some (finding List.head? (Script.fail .value) chars)
  | "rindex" => some (finding List.getLast? (Script.fail .value) chars)
  | "count" => some (checked 1 3 fun arguments => do
      let width := (← text (argument arguments 0)).length
      return .int (countApart width 0 (← occurrences chars arguments)))
  | "startswith" => some (checked 1 3 (affixed startsWith chars))
  | "endswith" => some (checked 1 3 (affixed endsWith chars))
  | _ => none

/-- The members of a text that are spelled out. -/
def textMember? (chars : List Char) (name : String) : Option Overload :=
  match textChange? name, textTest? name with
  | some change, _ => some (plain (pure (ofText (change chars))))
  | none, some test => some (plain (pure (.bool (test chars))))
  | none, none => textMethod? chars name

/-- The separator between hexadecimal bytes: one character or byte, of seven bits. -/
def hexSeparator (value : Value) : Task Char := do
  let c ← match value with
    | .text s =>
      match s.toList with
      | [c] => pure c
      | _ => Script.fail .value
    | .atom (.bytes [b]) => pure (Char.ofNat b.toNat)
    | .atom (.bytes _) => Script.fail .value
    | _ => Script.fail .type
  if 0x80 ≤ c.toNat then Script.fail .value
  return c

/-- Pieces in groups of a size from the first on, with a separator between two groups. -/
def inGroups (separator : Char) (size : Nat) : (position : Nat) → List (List Char) → List Char
  | _, [] => []
  | position, piece :: rest =>
    (if position % size = 0 ∧ 0 < position then [separator] else []) ++ piece
      ++ inGroups separator size (position + 1) rest

/-- Bytes in hexadecimal digits, with a separator between groups of bytes: groups of a positive size
are counted from the end, those of a negative size from the front. -/
def hexGroups (bytes : List UInt8) (separator : Char) (size : Int) : List Char :=
  let pieces := bytes.map fun b => hexDigits 2 b.toNat
  if size = 0 then pieces.flatten
  else if size < 0 then inGroups separator size.natAbs 0 pieces
  else (inGroups separator size.toNat 0 (pieces.reverse.map List.reverse)).reverse

/-- The members of bytes that are spelled out. -/
def bytesMember? (bytes : List UInt8) (name : String) : Option Overload :=
  match name with
  | "decode" => some (declared 0 2 fun arguments => do
      let charset ← optional text arguments 0
      let handling ← optional text arguments 1
      return ofText (← Script.ofExcept (Charset.decodeNamed charset handling bytes)))
  | "hex" => some (checked 0 2 fun arguments => do
      let size := (← optional shortSize arguments 1).getD 1
      match arguments with
      | [] => return ofText (hexGroups bytes ' ' 0)
      | separator :: _ => return ofText (hexGroups bytes (← hexSeparator separator) size))
  | _ => none

end ResourceScript.Member
