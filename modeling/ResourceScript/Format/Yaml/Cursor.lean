import ResourceScript.Fault
import ResourceScript.Text.Space
/-!
# Reading positions in YAML text

A cursor stands before the rest of a text and knows its line, its column and how many characters
lie behind it. Scalars that span lines are read by functions on cursors.
-/

set_option autoImplicit false

namespace ResourceScript.Yaml

open Text

/-- A position in a text. -/
structure Cursor where
  /-- The characters from the position on. -/
  rest : List Char
  /-- The number of characters before it. -/
  index : Nat
  /-- The number of line ends before it. -/
  line : Nat
  /-- The number of characters before it on its line. -/
  column : Nat
  deriving Repr

/-- The characters that end a line. -/
def isBreak (c : Char) : Bool :=
  c == '\n' || c == '\r' || c == Char.ofNat 0x85 || c == Char.ofNat 0x2028
    || c == Char.ofNat 0x2029

/-- Whether a scan stops at a character: the end of the text, a blank or a line end. -/
def isEndOrBlank (c : Option Char) : Bool :=
  match c with
  | none => true
  | some c => c == ' ' || c == '\t' || isBreak c

/-- Whether a scan stops at a character: the end of the text, a space or a line end. -/
def isEndOrSpace (c : Option Char) : Bool :=
  match c with
  | none => true
  | some c => c == ' ' || isBreak c

/-- Whether a scan stops at a character: the end of the text or a line end. -/
def isEndOrBreak (c : Option Char) : Bool :=
  match c with
  | none => true
  | some c => isBreak c

namespace Cursor

/-- The beginning of a text. -/
def start (text : List Char) : Cursor := ⟨text, 0, 0, 0⟩

/-- The character at a distance. -/
def peek (c : Cursor) (distance : Nat) : Option Char :=
  c.rest[distance]?

/-- The position behind one character. -/
def next (c : Cursor) : Cursor :=
  match c.rest with
  | [] => c
  | a :: rest =>
    if a = '\r' ∧ rest.head? = some '\n' then ⟨rest, c.index + 1, c.line, c.column + 1⟩
    else if isBreak a then ⟨rest, c.index + 1, c.line + 1, 0⟩
    else if a = Char.ofNat 0xfeff then ⟨rest, c.index + 1, c.line, c.column⟩
    else ⟨rest, c.index + 1, c.line, c.column + 1⟩

/-- The position behind a number of characters. -/
def skip (c : Cursor) : (count : Nat) → Cursor
  | 0 => c
  | count + 1 => c.next.skip count

/-- The position behind the run of characters that satisfy a condition. -/
def skipWhile (c : Cursor) (holds : Char → Bool) : Cursor :=
  c.skip (c.rest.takeWhile holds).length

/-- A line end at the position: the characters that stand for it, none when there is no line end,
and the position behind it. -/
def lineBreak (c : Cursor) : List Char × Cursor :=
  match c.rest with
  | '\r' :: '\n' :: _ => (['\n'], c.skip 2)
  | a :: _ =>
    if a = '\n' ∨ a = '\r' ∨ a = Char.ofNat 0x85 then (['\n'], c.next)
    else if a = Char.ofNat 0x2028 ∨ a = Char.ofNat 0x2029 then ([a], c.next)
    else ([], c)
  | [] => ([], c)

/-- Whether a marker of three characters stands at the position, with a blank behind it. -/
def atMarker (c : Cursor) (marker : List Char) : Bool :=
  startsWith marker c.rest && isEndOrBlank (c.peek 3)

/-- Whether the beginning or the end of a document is marked at the position. -/
def atDocumentMarker (c : Cursor) : Bool :=
  c.atMarker ['-', '-', '-'] || c.atMarker ['.', '.', '.']

/-- Spaces, then a comment if there is one: the position behind them. -/
def skipComment (c : Cursor) : Cursor :=
  let c := c.skipWhile (· == ' ')
  if c.peek 0 = some '#' then c.skipWhile fun a => !isBreak a else c

/-- The end of a line with nothing on it but spaces and a comment. -/
def endOfLine (c : Cursor) : Except Fault Cursor :=
  let c := c.skipComment
  if isEndOrBreak (c.peek 0) then .ok c.lineBreak.2 else .error .yaml

/-! ### Quoted scalars -/

/-- Line ends and the blanks around them inside quotes. The fuel bounds the number of lines. -/
def quotedBreaks (c : Cursor) : (fuel : Nat) → Except Fault (List Char × Cursor)
  | 0 => .ok ([], c)
  | fuel + 1 =>
    if c.atDocumentMarker then .error .yaml
    else
      let c := c.skipWhile fun a => a == ' ' || a == '\t'
      match c.lineBreak with
      | ([], _) => .ok ([], c)
      | (br, c) => do
        let (more, c) ← c.quotedBreaks fuel
        return (br ++ more, c)

/-- Blanks inside quotes: kept as they are within a line; a line end becomes a space, further ones
stand for themselves. -/
def quotedSpaces (c : Cursor) : Except Fault (List Char × Cursor) :=
  let blanks := c.rest.takeWhile fun a => a == ' ' || a == '\t'
  let c := c.skip blanks.length
  match c.peek 0 with
  | none => .error .yaml
  | some _ =>
    match c.lineBreak with
    | ([], _) => .ok (blanks, c)
    | (br, c) => do
      let (breaks, c) ← c.quotedBreaks c.rest.length
      let folded := if br ≠ ['\n'] then br else if breaks.isEmpty then [' '] else []
      return (folded ++ breaks, c)

/-- The characters that letters behind a backslash stand for. -/
def escapes : List (Char × Nat) :=
  [('0', 0x00), ('a', 0x07), ('b', 0x08), ('t', 0x09), ('\t', 0x09), ('n', 0x0a), ('v', 0x0b),
    ('f', 0x0c), ('r', 0x0d), ('e', 0x1b), (' ', 0x20), ('"', 0x22), ('\\', 0x5c), ('/', 0x2f),
    ('N', 0x85), ('_', 0xa0), ('L', 0x2028), ('P', 0x2029)]

/-- The numbers of hexadecimal digits behind letters. -/
def escapeWidths : List (Char × Nat) :=
  [('x', 2), ('u', 4), ('U', 8)]

/-- The value of hexadecimal digits; `none` when one of the characters is none. -/
def hexNumber? (digits : List Char) : Option Nat :=
  digits.foldlM (fun n c => (hexDigit? c).map fun d => n * 16 + d) 0
where
  /-- The value of a digit. -/
  hexDigit? (c : Char) : Option Nat :=
    if '0' ≤ c ∧ c ≤ '9' then some (c.toNat - 48)
    else if 'a' ≤ c ∧ c ≤ 'f' then some (c.toNat - 87)
    else if 'A' ≤ c ∧ c ≤ 'F' then some (c.toNat - 55)
    else none

/-- What stands behind a backslash between double quotes. -/
def escapeSequence (c : Cursor) : Except Fault (List Char × Cursor) :=
  match c.peek 0 with
  | none => .error .yaml
  | some a =>
    match escapes.lookup a with
    | some n => .ok ([Char.ofNat n], c.next)
    | none =>
      match escapeWidths.lookup a with
      | some width =>
        let digits := c.next.rest.take width
        match hexNumber? digits with
        | some n =>
          if digits.length < width then .error .yaml
          else if 0x7fffffff < n then .error .overflow
          else if 0x10ffff < n then .error .value
          else .ok ([Char.ofNat n], c.next.skip width)
        | none => .error .yaml
      | none =>
        if isBreak a then c.lineBreak.2.quotedBreaks c.rest.length
        else .error .yaml

/-- The characters up to the closing quote, and the position behind it. The fuel bounds the number
of pieces. -/
def quotedText (double : Bool) (c : Cursor) : (fuel : Nat) → Except Fault (List Char × Cursor)
  | 0 => .error .yaml
  | fuel + 1 =>
    let piece := c.rest.takeWhile fun a =>
      !(a == '\'' || a == '"' || a == '\\' || a == ' ' || a == '\t' || isBreak a)
    if !piece.isEmpty then do
      let (more, c) ← (c.skip piece.length).quotedText double fuel
      return (piece ++ more, c)
    else match c.peek 0 with
      | none => .error .yaml
      | some a =>
        if !double && a == '\'' && c.peek 1 == some '\'' then do
          let (more, c) ← (c.skip 2).quotedText double fuel
          return ('\'' :: more, c)
        else if a = (if double then '"' else '\'') then .ok ([], c.next)
        else if (double && a == '\'') || (!double && (a == '"' || a == '\\')) then do
          let (more, c) ← c.next.quotedText double fuel
          return (a :: more, c)
        else do
          let (piece, c) ← if a = '\\' then c.next.escapeSequence else c.quotedSpaces
          let (more, c) ← c.quotedText double fuel
          return (piece ++ more, c)

/-! ### Plain scalars -/

/-- Whether a plain scalar ends at a distance from the position. -/
def endsPlain (c : Cursor) (flow : Bool) (distance : Nat) : Bool :=
  match c.peek distance with
  | none => true
  | some a =>
    a == ' ' || a == '\t' || isBreak a
      || (a == ':' && (isEndOrBlank (c.peek (distance + 1)) ||
        (flow && (match c.peek (distance + 1) with
          | some b => b == ',' || b == '[' || b == ']' || b == '\x7b' || b == '\x7d'
          | none => false))))
      || (flow && (a == ',' || a == '?' || a == '[' || a == ']' || a == '\x7b' || a == '\x7d'))

/-- The number of characters of a plain scalar up to the next blank or its end. -/
def plainLength (c : Cursor) (flow : Bool) : (fuel distance : Nat) → Nat
  | 0, distance => distance
  | fuel + 1, distance =>
    if c.endsPlain flow distance then distance else c.plainLength flow fuel (distance + 1)

/-- Empty lines inside a plain scalar; `none` when a document marker ends the scalar. -/
def plainBreaks (c : Cursor) : (fuel : Nat) → Option (List Char) × Cursor
  | 0 => (some [], c)
  | fuel + 1 =>
    match c.peek 0 with
    | some ' ' => c.next.plainBreaks fuel
    | _ =>
      match c.lineBreak with
      | ([], _) => (some [], c)
      | (br, c) =>
        if c.atDocumentMarker then (none, c)
        else
          let (more, c) := c.plainBreaks fuel
          (more.map (br ++ ·), c)

/-- The blanks behind a part of a plain scalar, folded over lines, and whether a line end was among
them. -/
def plainSpaces (c : Cursor) : List Char × Bool × Cursor :=
  let blanks := c.rest.takeWhile (· == ' ')
  let c := c.skip blanks.length
  match c.lineBreak with
  | ([], _) => (blanks, false, c)
  | (br, c) =>
    if c.atDocumentMarker then ([], true, c)
    else
      match c.plainBreaks (c.rest.length + 1) with
      | (none, c) => ([], true, c)
      | (some breaks, c) =>
        let folded := if br ≠ ['\n'] then br else if breaks.isEmpty then [' '] else []
        (folded ++ breaks, true, c)

/-- A plain scalar from the blanks before its next part on, whether a new line began at its end, and
the position behind it. -/
def plainText (flow : Bool) (least : Nat) (blanks : List Char) (c : Cursor) (newLine : Bool) :
    (fuel : Nat) → List Char × Bool × Cursor
  | 0 => ([], newLine, c)
  | fuel + 1 =>
    let length := if c.peek 0 = some '#' then 0 else c.plainLength flow c.rest.length 0
    if length = 0 then ([], newLine, c)
    else
      let piece := c.rest.take length
      let (spaces, newLine, after) := (c.skip length).plainSpaces
      if spaces.isEmpty || after.peek 0 == some '#' || (!flow && after.column < least) then
        (blanks ++ piece, newLine, after)
      else
        let (more, newLine, after) := plainText flow least spaces after newLine fuel
        (blanks ++ piece ++ more, newLine, after)

/-! ### Block scalars -/

/-- The header of a block scalar: whether trailing line ends are kept (`some true`) or dropped
(`some false`), and its indentation if it is given. -/
def blockHeader (c : Cursor) : Except Fault (Option Bool × Option Nat × Cursor) :=
  let chomp := fun (c : Cursor) =>
    match c.peek 0 with
    | some '+' => (some true, c.next)
    | some '-' => (some false, c.next)
    | _ => (none, c)
  let indentation := fun (c : Cursor) =>
    match c.peek 0 with
    | some d => if isAsciiDigit d then (some (d.toNat - 48), c.next) else (none, c)
    | none => (none, c)
  let (chomping, c) := chomp c
  let (increment, c) := indentation c
  let (chomping, c) := if chomping.isNone && increment.isSome then chomp c else (chomping, c)
  if increment = some 0 then .error .yaml
  else if isEndOrSpace (c.peek 0) then .ok (chomping, increment, c)
  else .error .yaml

/-- The empty lines before a block scalar whose indentation is not given, and the greatest column
reached in them. -/
def blockIndentation (c : Cursor) (greatest : Nat) : (fuel : Nat) → List Char × Nat × Cursor
  | 0 => ([], greatest, c)
  | fuel + 1 =>
    match c.peek 0 with
    | some ' ' =>
      let c := c.next
      c.blockIndentation (max greatest c.column) fuel
    | _ =>
      match c.lineBreak with
      | ([], _) => ([], greatest, c)
      | (br, c) =>
        let (more, greatest, c) := c.blockIndentation greatest fuel
        (br ++ more, greatest, c)

/-- Spaces up to the indentation. -/
def skipIndent (c : Cursor) (indent : Nat) : Cursor :=
  c.skip ((c.rest.take (indent - c.column)).takeWhile (· == ' ')).length

/-- The empty lines before the next line of a block scalar. -/
def blockBreaks (c : Cursor) (indent : Nat) : (fuel : Nat) → List (List Char) × Cursor
  | 0 => ([], c)
  | fuel + 1 =>
    let c := c.skipIndent indent
    match c.lineBreak with
    | ([], _) => ([], c)
    | (br, c) =>
      let (more, c) := c.blockBreaks indent fuel
      (br :: more, c)

/-- Whether a character is not a blank. -/
def isNotBlank (c : Option Char) : Bool :=
  c != some ' ' && c != some '\t'

/-- The lines of a block scalar: its text, the line end behind its last line and the empty lines
behind that. -/
def blockLines (folded : Bool) (indent : Nat) (breaks : List (List Char)) (lineEnd : List Char)
    (c : Cursor) : (fuel : Nat) → List Char × List Char × List (List Char) × Cursor
  | 0 => ([], lineEnd, breaks, c)
  | fuel + 1 =>
    if c.column = indent ∧ (c.peek 0).isSome then
      let leading := isNotBlank (c.peek 0)
      let line := c.rest.takeWhile fun a => !isBreak a
      let (lineEnd, after) := (c.skip line.length).lineBreak
      let (next, after) := after.blockBreaks indent (after.rest.length + 1)
      if after.column = indent ∧ (after.peek 0).isSome then
        let joint :=
          if folded && lineEnd == ['\n'] && leading && isNotBlank (after.peek 0) then
            if next.isEmpty then [' '] else []
          else lineEnd
        let (more, lineEnd, last, after) := blockLines folded indent next lineEnd after fuel
        (breaks.flatten ++ line ++ joint ++ more, lineEnd, last, after)
      else (breaks.flatten ++ line, lineEnd, next, after)
    else ([], lineEnd, breaks, c)

/-- A block scalar behind its indicator, in a block of a given indentation. -/
def blockText (folded : Bool) (least : Nat) (c : Cursor) : Except Fault (List Char × Cursor) := do
  let (chomping, increment, c) ← c.blockHeader
  let c ← c.endOfLine
  let (breaks, indent, c) :=
    match increment with
    | none =>
      let (breaks, greatest, c) := c.blockIndentation 0 (c.rest.length + 1)
      ([breaks], max least greatest, c)
    | some n =>
      let indent := least + n - 1
      let (breaks, c) := c.blockBreaks indent (c.rest.length + 1)
      (breaks, indent, c)
  let breaks := breaks.filter fun br => !br.isEmpty
  let (text, lineEnd, last, c) := blockLines folded indent breaks [] c (c.rest.length + 1)
  let kept := if chomping = some false then [] else lineEnd
  let trailing := if chomping = some true then last.flatten else []
  return (text ++ kept ++ trailing, c)

end Cursor

end ResourceScript.Yaml
