/-!
# White space and lines

Three different notions of empty space meet in this library: the blanks that separate the words of
a script line, the white space that trimming removes, and the characters that end a line of text.
Each is a predicate on characters; trimming and line splitting are functions on lists of characters.

Trimming never adds characters (`trim_sublist`). At which places a text can be cut into lines on
their own is shown in `ResourceScript.Proofs.Text.Lines`.
-/

set_option autoImplicit false

namespace ResourceScript.Text

/-- Blanks separate the words of a script line: the C0 controls and the space, DEL, the C1 controls
and the no-break space. -/
def isBlank (c : Char) : Bool :=
  c.toNat ≤ 0x20 || (0x7f ≤ c.toNat && c.toNat ≤ 0xa0)

/-- The characters with the Unicode property of white space, together with the four ASCII
separators U+001C to U+001F. -/
def isSpace (c : Char) : Bool :=
  let n := c.toNat
  (0x09 ≤ n && n ≤ 0x0d) || (0x1c ≤ n && n ≤ 0x20) || n == 0x85 || n == 0xa0 || n == 0x1680
    || (0x2000 ≤ n && n ≤ 0x200a) || n == 0x2028 || n == 0x2029 || n == 0x202f || n == 0x205f
    || n == 0x3000

/-- The characters that end a line: line feed, carriage return, the vertical and form feeds, the
information separators four to two, NEL and the line and paragraph separators. -/
def isLineBreak (c : Char) : Bool :=
  let n := c.toNat
  (0x0a ≤ n && n ≤ 0x0d) || (0x1c ≤ n && n ≤ 0x1e) || n == 0x85 || n == 0x2028 || n == 0x2029

/-- Drops the leading characters that satisfy `drop`. -/
def trimStartBy (drop : Char → Bool) (text : List Char) : List Char :=
  text.dropWhile drop

/-- Drops the trailing characters that satisfy `drop`. -/
def trimEndBy (drop : Char → Bool) (text : List Char) : List Char :=
  (text.reverse.dropWhile drop).reverse

/-- Drops white space at both ends. -/
def trim (text : List Char) : List Char :=
  trimEndBy isSpace (trimStartBy isSpace text)

/-- The lines of a text without their ends. A carriage return followed by a line feed is one line
end, and a text that ends in a line break has no empty last line. -/
def lines (text : List Char) : List (List Char) :=
  go [] text
where
  /-- Splits the rest of the text; `line` holds the current line in reverse. -/
  go (line : List Char) : List Char → List (List Char)
    | [] => if line.isEmpty then [] else [line.reverse]
    | '\r' :: '\n' :: rest => line.reverse :: go [] rest
    | c :: rest => if isLineBreak c then line.reverse :: go [] rest else go (c :: line) rest

/-- The pieces of a list between the occurrences of a separator: one more than there are
separators. -/
def splitOn (separator : Char) (text : List Char) : List (List Char) :=
  go [] text
where
  /-- Splits the rest of the text; `piece` holds the current piece in reverse. -/
  go (piece : List Char) : List Char → List (List Char)
    | [] => [piece.reverse]
    | c :: rest => if c = separator then piece.reverse :: go [] rest else go (c :: piece) rest

/-- Joins pieces with a separator between neighbours. -/
def joinWith (separator : List Char) : List (List Char) → List Char
  | [] => []
  | [piece] => piece
  | piece :: rest => piece ++ separator ++ joinWith separator rest

/-- Splits a text at the first occurrence of a separator; `none` when it does not occur. -/
def cutAt (separator : Char) : List Char → Option (List Char × List Char)
  | [] => none
  | c :: rest =>
    if c = separator then some ([], rest)
    else (cutAt separator rest).map fun (before, after) => (c :: before, after)

/-- The text after a given beginning; `none` when the text does not begin with it. -/
def afterStart : List Char → List Char → Option (List Char)
  | [], text => some text
  | _ :: _, [] => none
  | p :: start, c :: text => if p = c then afterStart start text else none

/-- Whether a text begins with the given characters. -/
def startsWith (start text : List Char) : Bool :=
  (afterStart start text).isSome

/-- Whether a text ends in the given characters. -/
def endsWith (ending text : List Char) : Bool :=
  startsWith ending.reverse text.reverse

/-- Whether the given characters occur somewhere in a text. -/
def occursIn (part : List Char) : List Char → Bool
  | [] => part.isEmpty
  | c :: rest => startsWith part (c :: rest) || occursIn part rest

/-- Lower case for the ASCII letters; every other character stays as it is. -/
def asciiLower (c : Char) : Char :=
  if 'A' ≤ c ∧ c ≤ 'Z' then Char.ofNat (c.toNat + 32) else c

/-- The ASCII letters. -/
def isAsciiLetter (c : Char) : Bool :=
  ('a' ≤ c && c ≤ 'z') || ('A' ≤ c && c ≤ 'Z')

/-- The ASCII decimal digits. -/
def isAsciiDigit (c : Char) : Bool :=
  '0' ≤ c && c ≤ '9'

theorem trimStartBy_sublist (drop : Char → Bool) (text : List Char) :
    (trimStartBy drop text).Sublist text :=
  List.dropWhile_sublist drop

theorem trimEndBy_sublist (drop : Char → Bool) (text : List Char) :
    (trimEndBy drop text).Sublist text := by
  have h := List.dropWhile_sublist (l := text.reverse) drop
  simpa [trimEndBy] using h.reverse

/-- Trimming only removes characters. -/
theorem trim_sublist (text : List Char) : (trim text).Sublist text :=
  (trimEndBy_sublist isSpace _).trans (trimStartBy_sublist isSpace text)

@[simp] theorem joinWith_nil (separator : List Char) : joinWith separator [] = [] := rfl

@[simp] theorem joinWith_singleton (separator piece : List Char) :
    joinWith separator [piece] = piece := rfl

theorem joinWith_cons_cons (separator piece next : List Char) (rest : List (List Char)) :
    joinWith separator (piece :: next :: rest) =
      piece ++ separator ++ joinWith separator (next :: rest) := rfl

@[simp] theorem afterStart_append (start text : List Char) :
    afterStart start (start ++ text) = some text := by
  induction start with
  | nil => rfl
  | cons c start ih => simp [afterStart, ih]

end ResourceScript.Text
