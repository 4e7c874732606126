import ResourceScript.Format.Html.Names
import ResourceScript.Text.Charset
import ResourceScript.Text.Quoted
import ResourceScript.Text.Space
/-!
# Character references in HTML

An ampersand begins a reference to a character by number or by name. What is no reference stays as it
is; of a run of letters that begins with a name the longest name counts.
-/

set_option autoImplicit false

namespace ResourceScript.Html

open Text

/-- The characters of a list of code points in hexadecimal. -/
def charsOfCodes (codes : List Char) : List Char :=
  (splitOn '+' codes).map fun digits =>
    Char.ofNat (digits.foldl (fun n c => n * 16 + (hexValue? c).getD 0) 0)

/-- Pairs of neighbouring words. -/
def pairWords : List (List Char) → List (List Char × List Char)
  | name :: codes :: rest => (name, charsOfCodes codes) :: pairWords rest
  | _ => []

/-- The words of lines. -/
def wordsOf (lines : List String) : List (List Char) :=
  lines.flatMap fun line => splitOn ' ' line.toList

/-- The named characters. -/
def namedChars : List (List Char × List Char) :=
  pairWords (wordsOf nameLines)

/-- The names that need no semicolon. -/
def bareNames : List (List Char) :=
  wordsOf bareNameLines

/-- The characters of a name with or without a semicolon at its end. -/
def named? (name : List Char) : Option (List Char) :=
  match name.getLast? with
  | some ';' => namedChars.lookup name.dropLast
  | _ => if bareNames.contains name then namedChars.lookup name else none

/-- The characters of a run of letters behind an ampersand: those of the longest name at its
beginning, two characters at least, and then the rest of it. -/
def longestNamed? (run : List Char) : (length : Nat) → Option (List Char)
  | 0 | 1 => none
  | length + 1 =>
    match named? (run.take (length + 1)) with
    | some chars => some (chars ++ run.drop (length + 1))
    | none => longestNamed? run length

/-- Whether a code point stands for no character at all. -/
def isVoidCode (n : Nat) : Bool :=
  (0x1 ≤ n && n ≤ 0x8) || n == 0xb || (0xe ≤ n && n ≤ 0x1f) || n == 0x7f
    || (0xfdd0 ≤ n && n ≤ 0xfdef) || n % 0x10000 == 0xfffe || n % 0x10000 == 0xffff

/-- The characters of a reference by number. The numbers from 128 to 159 count as in the code page
1252. -/
def numbered (n : Nat) : List Char :=
  if n = 0 then [replacement]
  else if 0x80 ≤ n && n ≤ 0x9f then
    let c := Char.ofNat (Charset.windows1252Table.getD (n - 0x80) 0xfffd)
    if c = replacement then [Char.ofNat n] else [c]
  else if (0xd800 ≤ n && n ≤ 0xdfff) || 0x10ffff < n then [replacement]
  else if isVoidCode n then []
  else [Char.ofNat n]

/-- The characters that may stand in a reference by name. -/
def isRunChar (c : Char) : Bool :=
  !(c == '\t' || c == '\n' || c == Char.ofNat 0x0c || c == ' ' || c == '<' || c == '&' || c == '#'
    || c == ';')

/-- A text behind at most one semicolon. -/
def skipSemicolon : List Char → List Char
  | ';' :: rest => rest
  | text => text

/-- The number of the digits at the beginning of a text, if there are any, and the text behind them
and a semicolon. -/
def digitRun? (base : Nat) (isDigit : Char → Bool) (text : List Char) : Option (Nat × List Char) :=
  let digits := text.takeWhile isDigit
  if digits.isEmpty then none
  else some (digits.foldl (fun n c => n * base + (hexValue? c).getD 0) 0,
    skipSemicolon (text.dropWhile isDigit))

/-- The characters of the reference that begins behind an ampersand, and the text behind it. -/
def reference? (text : List Char) : Option (List Char × List Char) :=
  match text with
  | '#' :: rest =>
    let found := match rest with
      | 'x' :: digits | 'X' :: digits => digitRun? 16 (fun c => (hexValue? c).isSome) digits
      | _ => digitRun? 10 isAsciiDigit rest
    found.map fun (n, after) => (numbered n, after)
  | _ =>
    let run := (text.takeWhile isRunChar).take 32
    let after := text.drop run.length
    if run.isEmpty then none
    else
      let (run, after) : List Char × List Char :=
        match after with
        | ';' :: rest => (run ++ [';'], rest)
        | _ => (run, after)
      match named? run with
      | some chars => some (chars, after)
      | none => some ((longestNamed? run (run.length - 1)).getD ('&' :: run), after)

/-- A text with its references resolved, with a bound on the number of steps. -/
def resolveWithin : (fuel : Nat) → List Char → List Char
  | 0, text => text
  | _ + 1, [] => []
  | fuel + 1, c :: rest =>
    if c = '&' then
      match reference? rest with
      | some (chars, after) => chars ++ resolveWithin fuel after
      | none => c :: resolveWithin fuel rest
    else c :: resolveWithin fuel rest

/-- A text with its references resolved. -/
def resolve (text : List Char) : List Char :=
  resolveWithin (text.length + 1) text

end ResourceScript.Html
