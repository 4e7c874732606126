import ResourceScript.Format.Yaml.Tag
import ResourceScript.Text.Base64
import ResourceScript.Data.Conversion
/-!
# Writing YAML

Data is written in blocks: each entry of a mapping and each item of a sequence on lines of its own,
indented by two. Scalars are written plainly where that reads back as the same, else between single
or, if need be, double quotes; long ones are folded at spaces behind column 80.
-/

set_option autoImplicit false

namespace ResourceScript.Yaml

open Text

/-- Data that is to be written. -/
inductive Tree where
  /-- A scalar with its tag; `lines` asks for a block of its own. -/
  | scalar (tag : Tag) (text : List Char) (lines : Bool)
  /-- A sequence. -/
  | sequence (items : List Tree)
  /-- A mapping. -/
  | mapping (entries : List (Tree × Tree))
  /-- A set. -/
  | set (items : List Tree)
  deriving Repr, Inhabited

/-! ### Scalars -/

/-- What a scalar looks like to a reader. -/
structure Analysis where
  /-- It has no characters. -/
  empty : Bool
  /-- It holds line ends. -/
  multiline : Bool
  /-- It may be written plainly. -/
  plain : Bool
  /-- It may be written between single quotes. -/
  singleQuoted : Bool
  /-- It may be written as a block. -/
  block : Bool
  deriving DecidableEq, Repr

/-- The line ends that matter in written scalars. -/
def isWrittenBreak (c : Char) : Bool :=
  c == '\n' || c == Char.ofNat 0x85 || c == Char.ofNat 0x2028 || c == Char.ofNat 0x2029

/-- Blanks and line ends. -/
def isGap (c : Char) : Bool :=
  c == Char.ofNat 0 || c == ' ' || c == '\t' || c == '\r' || isWrittenBreak c

/-- Whether a character can only be written with an escape. -/
def isSpecial (c : Char) : Bool :=
  let n := c.toNat
  !(c == '\n' || (0x20 ≤ n && n ≤ 0x7e) ||
    ((n == 0x85 || (0xa0 ≤ n && n ≤ 0xd7ff) || (0xe000 ≤ n && n ≤ 0xfffd)
      || (0x10000 ≤ n && n < 0x10ffff)) && n != 0xfeff))

/-- Whether the characters of a text, with the character before each (`none` at the beginning),
have an indicator of the block style among them. -/
def hasIndicator (before : Option Char) : List Char → Bool
  | [] => false
  | c :: rest =>
    let followed := (rest.head?.map isGap).getD true
    (match before with
      | none =>
        "#,[]\x7b\x7d&*!|>'\"%@`".toList.contains c || ((c == '?' || c == ':' || c == '-') && followed)
      | some b => (c == ':' && followed) || (c == '#' && isGap b))
      || hasIndicator (some c) rest

/-- Whether two neighbours of a text satisfy two conditions. -/
def hasNeighbours (first second : Char → Bool) : List Char → Bool
  | a :: b :: rest => (first a && second b) || hasNeighbours first second (b :: rest)
  | _ => false

/-- The analysis of a scalar. -/
def analyze (text : List Char) : Analysis :=
  match text with
  | [] => ⟨true, false, true, true, false⟩
  | first :: _ =>
    let last := text.getLast?.getD first
    let space := (· == ' ')
    let marker := startsWith ['-', '-', '-'] text || startsWith ['.', '.', '.'] text
    let breakSpace := hasNeighbours isWrittenBreak space text
    let spaceBreak := hasNeighbours space isWrittenBreak text
    let special := text.any isSpecial
    let multiline := text.any isWrittenBreak
    let edges := space first || isWrittenBreak first || space last || isWrittenBreak last
    { empty := false
      multiline
      plain := !(edges || breakSpace || spaceBreak || special || multiline || marker
        || hasIndicator none text)
      singleQuoted := !(breakSpace || spaceBreak || special)
      block := !(space last || spaceBreak || special) }

/-- How a scalar is written. -/
inductive Style where
  | plain | singleQuoted | doubleQuoted | literal
  deriving DecidableEq, Repr

/-- The style of a scalar; `key` tells whether it is a key on one line. -/
def styleOf (tag : Tag) (text : List Char) (lines key : Bool) : Style :=
  let a := analyze text
  if !lines && Tag.ofPlain text == tag && !(key && (a.empty || a.multiline)) && a.plain then .plain
  else if lines && !key && a.block then .literal
  else if !lines && a.singleQuoted && !(key && a.multiline) then .singleQuoted
  else .doubleQuoted

/-- Whether a scalar of a style needs its tag in front. -/
def needsTag (tag : Tag) (style : Style) : Bool :=
  style != .plain && tag != .text

/-! ### The page -/

/-- What has been written so far. -/
structure Page where
  /-- The characters, the latest first. -/
  text : List Char
  /-- The column behind the last character. -/
  column : Nat
  /-- Whether the last character separates. -/
  whitespace : Bool
  /-- Whether only indentation stands on the line. -/
  indention : Bool
  /-- Whether the end of the document has to be marked. -/
  openEnded : Bool

namespace Page

/-- The empty page. -/
def empty : Page := ⟨[], 0, true, true, false⟩

/-- The column behind which lines are folded. -/
def width : Nat := 80

/-- Writes characters. -/
def put (p : Page) (text : List Char) : Page :=
  { p with text := text.reverse ++ p.text, column := p.column + text.length }

/-- Writes a line end. -/
def lineBreak (p : Page) (c : Char) : Page :=
  { p with text := c :: p.text, column := 0, whitespace := true, indention := true }

/-- Moves to a column, on a new line if the current one is in use. -/
def indentTo (p : Page) (indent : Nat) : Page :=
  let p :=
    if !p.indention || indent < p.column || (p.column == indent && !p.whitespace) then
      p.lineBreak '\n'
    else p
  if p.column < indent then
    { p.put (List.replicate (indent - p.column) ' ') with whitespace := true }
  else p

/-- Writes an indicator, behind a space if it needs one. -/
def indicator (p : Page) (mark : List Char) (separate : Bool) (whitespace indention : Bool) : Page :=
  let data := if p.whitespace || !separate then mark else ' ' :: mark
  { p.put data with whitespace, indention := p.indention && indention, openEnded := false }

/-- Writes a run of spaces inside a scalar: a single one behind the width becomes a line end. -/
def spacesRun (p : Page) (fold : Bool) (indent : Nat) (count : Nat) : Page :=
  if count = 1 ∧ width < p.column ∧ fold then p.indentTo indent
  else p.put (List.replicate count ' ')

/-- Writes line ends inside a quoted scalar. -/
def breaksRun (p : Page) (indent : Nat) (breaks : List Char) : Page :=
  let p := if breaks.head? = some '\n' then p.lineBreak '\n' else p
  (breaks.foldl lineBreak p).indentTo indent

/-- A run of like characters in a scalar. -/
inductive Run where
  | spaces (count : Nat)
  | breaks (chars : List Char)
  | chars (text : List Char)
  deriving DecidableEq, Repr

/-- The runs of spaces, of line ends and of other characters of a text. -/
def runs : List Char → List Run
  | [] => []
  | c :: rest =>
    match c == ' ', isWrittenBreak c, runs rest with
    | true, _, .spaces count :: more => .spaces (count + 1) :: more
    | true, _, more => .spaces 1 :: more
    | false, true, .breaks chars :: more => .breaks (c :: chars) :: more
    | false, true, more => .breaks [c] :: more
    | false, false, .chars text :: more => .chars (c :: text) :: more
    | false, false, more => .chars [c] :: more

/-- Writes the runs of a plain scalar. -/
def plainRuns (p : Page) (split : Bool) (indent : Nat) : List Run → Page
  | [] => p
  | .spaces count :: rest =>
    let folded := count = 1 ∧ width < p.column ∧ split
    let p := p.spacesRun split indent count
    let p := if folded then { p with whitespace := false, indention := false } else p
    p.plainRuns split indent rest
  | .breaks chars :: rest => (p.put chars).plainRuns split indent rest
  | .chars text :: rest => (p.put text).plainRuns split indent rest

/-- Writes a plain scalar. -/
def plain (p : Page) (split root : Bool) (indent : Nat) (text : List Char) : Page :=
  let p := if root then { p with openEnded := true } else p
  if text.isEmpty then p
  else
    let p := if p.whitespace then p else p.put [' ']
    { p with whitespace := false, indention := false }.plainRuns split indent (runs text)

/-- Writes the runs of a single-quoted scalar; spaces at its ends are never folded. -/
def quotedRuns (p : Page) (split : Bool) (indent : Nat) (first : Bool) : List Run → Page
  | [] => p
  | .spaces count :: rest =>
    (p.spacesRun (split && !first && !rest.isEmpty) indent count).quotedRuns split indent false rest
  | .breaks chars :: rest => (p.breaksRun indent chars).quotedRuns split indent false rest
  | .chars text :: rest =>
    (p.put (text.flatMap fun c => if c = '\'' then ['\'', '\''] else [c])).quotedRuns split indent
      false rest

/-- Writes a single-quoted scalar. -/
def singleQuoted (p : Page) (split : Bool) (indent : Nat) (text : List Char) : Page :=
  let p := p.indicator ['\''] true false false
  (p.quotedRuns split indent true (runs text)).indicator ['\''] false false false

/-- The letters behind a backslash. -/
def escapeLetters : List (Nat × Char) :=
  [(0x00, '0'), (0x07, 'a'), (0x08, 'b'), (0x09, 't'), (0x0a, 'n'), (0x0b, 'v'), (0x0c, 'f'),
    (0x0d, 'r'), (0x1b, 'e'), (0x22, '"'), (0x5c, '\\'), (0x85, 'N'), (0xa0, '_'), (0x2028, 'L'),
    (0x2029, 'P')]

/-- A number in upper case hexadecimal digits. -/
def upperHex (width n : Nat) : List Char :=
  (hexDigits width n).map fun c => if 'a' ≤ c ∧ c ≤ 'f' then Char.ofNat (c.toNat - 32) else c

/-- Whether a character stands for itself between double quotes. -/
def isClear (c : Char) : Bool :=
  let n := c.toNat
  !(c == '"' || c == '\\' || n == 0x85 || n == 0x2028 || n == 0x2029 || n == 0xfeff)
    && ((0x20 ≤ n && n ≤ 0x7e) || (0xa0 ≤ n && n ≤ 0xd7ff) || (0xe000 ≤ n && n ≤ 0xfffd))

/-- The escape of a character. -/
def escape (c : Char) : List Char :=
  match escapeLetters.lookup c.toNat with
  | some letter => ['\\', letter]
  | none =>
    if c.toNat ≤ 0xff then '\\' :: 'x' :: upperHex 2 c.toNat
    else if c.toNat ≤ 0xffff then '\\' :: 'u' :: upperHex 4 c.toNat
    else '\\' :: 'U' :: upperHex 8 c.toNat

/-- Writes the characters of a double-quoted scalar. `pending` holds the clear characters that are not
yet written, in reverse; `position` counts the characters before the rest. A line is folded at a
space, or behind an escape, when it has grown beyond the width. -/
def doubleRuns (split : Bool) (indent total : Nat) :
    (position : Nat) → (pending : List Char) → List Char → Page → Page
  | _, pending, [], p => p.put pending.reverse
  | position, pending, c :: rest, p =>
    let clear := isClear c
    let p := if clear then p else (p.put pending.reverse).put (escape c)
    let pending := if clear then pending else []
    let reached := p.column + pending.length - if clear then 0 else 1
    if 0 < position ∧ position + 1 < total ∧ (c = ' ' ∨ pending.isEmpty) ∧ width < reached ∧ split then
      let p := (p.put (pending.reverse ++ ['\\'])).indentTo indent
      let p := { p with whitespace := false, indention := false }
      let next := if clear then some c else rest.head?
      let p := if next = some ' ' then p.put ['\\'] else p
      doubleRuns split indent total (position + 1) (if clear then [c] else []) rest p
    else doubleRuns split indent total (position + 1) (if clear then c :: pending else []) rest p

/-- Writes a double-quoted scalar. -/
def doubleQuoted (p : Page) (split : Bool) (indent : Nat) (text : List Char) : Page :=
  let p := p.indicator ['"'] true false false
  (doubleRuns split indent text.length 0 [] text p).indicator ['"'] false false false

/-- The marks behind the indicator of a block: its indentation if it begins with a blank, and whether
it ends in none or in several line ends. -/
def blockHints (text : List Char) : List Char :=
  match text.head?, text.reverse with
  | some first, last :: before =>
    (if first = ' ' ∨ isWrittenBreak first then ['2'] else [])
      ++ (if !isWrittenBreak last then ['-']
          else match before with
            | [] => ['+']
            | c :: _ => if isWrittenBreak c then ['+'] else [])
  | _, _ => []

/-- Writes the lines of a block. -/
def literalRuns (p : Page) (indent : Nat) : List Run → Page
  | [] => p
  | .breaks chars :: rest =>
    let p := chars.foldl lineBreak p
    (if rest.isEmpty then p else p.indentTo indent).literalRuns indent rest
  | .spaces count :: rest =>
    let p := { p with text := List.replicate count ' ' ++ p.text }
    (if rest.isEmpty then p.lineBreak '\n' else p).literalRuns indent rest
  | .chars text :: rest =>
    let p := { p with text := text.reverse ++ p.text }
    (if rest.isEmpty then p.lineBreak '\n' else p).literalRuns indent rest

/-- Writes a block. -/
def literal (p : Page) (indent : Nat) (text : List Char) : Page :=
  let hints := blockHints text
  let p := p.indicator ('|' :: hints) true false false
  let p := if hints.getLast? = some '+' then { p with openEnded := true } else p
  let p := p.lineBreak '\n'
  let p := match text.head? with
    | some c => if isWrittenBreak c then p else p.indentTo indent
    | none => p
  p.literalRuns indent (runs text)

/-- Writes a scalar behind its tag. -/
def scalar (p : Page) (tag : Tag) (text : List Char) (lines key root : Bool) (indent : Nat) : Page :=
  let style := styleOf tag text lines key
  let p := if needsTag tag style then p.indicator tag.written.toList true false false else p
  match style with
  | .plain => p.plain (!key) root indent text
  | .singleQuoted => p.singleQuoted (!key) indent text
  | .doubleQuoted => p.doubleQuoted (!key) indent text
  | .literal => p.literal indent text

/-- An empty collection: its brackets. -/
def emptyBrackets (p : Page) (first last : Char) : Page :=
  (p.indicator [first] true true false).indicator [last] false false false

end Page

/-! ### Collections -/

/-- The tags as they count for the length of a key. -/
def tagLength (tag : Tag) : Nat :=
  tag.written.length

/-- Whether a key is written on one line in front of its colon: it is short and no collection with
parts. -/
def isSimpleKey : Tree → Bool
  | .scalar tag text _ =>
    let a := analyze text
    decide (tagLength tag + text.length < 128) && !a.empty && !a.multiline
  | .sequence items => items.isEmpty
  | .mapping entries => entries.isEmpty
  | .set items => items.isEmpty

/-- Where a tree stands. -/
inductive Place where
  /-- It is the whole document. -/
  | root
  /-- It is an item of a sequence. -/
  | item
  /-- It is a key or a value of a mapping. -/
  | entry
  /-- It is a key on one line. -/
  | simpleKey
  deriving DecidableEq, Repr

/-- The indentation of a part: `none` stands for the whole document. -/
def deeper (indent : Option Nat) : Nat :=
  match indent with
  | none => 0
  | some n => n + 2

mutual

/-- Writes a tree. -/
def writeTree (place : Place) (indent : Option Nat) (p : Page) : Tree → Page
  | .scalar tag text lines =>
    p.scalar tag text lines (place = .simpleKey) (place = .root)
      (match indent with
        | none => 2
        | some n => n + 2)
  | .sequence [] => p.emptyBrackets '[' ']'
  | .sequence (item :: items) =>
    let indentless := (place = .entry || place = .simpleKey) && !p.indention
    let inner := if indentless then indent.getD 0 else deeper indent
    writeItems inner p (item :: items)
  | .mapping [] => p.emptyBrackets '\x7b' '\x7d'
  | .mapping (entry :: entries) => writeEntries (deeper indent) p (entry :: entries)
  | .set items =>
    let p := p.indicator Tag.set.written.toList true false false
    match items with
    | [] => p.emptyBrackets '\x7b' '\x7d'
    | item :: items => writeMembers (deeper indent) p (item :: items)

/-- Writes the items of a sequence. -/
def writeItems (indent : Nat) (p : Page) : List Tree → Page
  | [] => p
  | item :: rest =>
    let p := (p.indentTo indent).indicator ['-'] true false true
    writeItems indent (writeTree .item (some indent) p item) rest

/-- Writes the entries of a mapping. -/
def writeEntries (indent : Nat) (p : Page) : List (Tree × Tree) → Page
  | [] => p
  | (key, value) :: rest =>
    let p := p.indentTo indent
    let p :=
      if isSimpleKey key then
        (writeTree .simpleKey (some indent) p key).indicator [':'] false false false
      else
        let p := p.indicator ['?'] true false true
        ((writeTree .entry (some indent) p key).indentTo indent).indicator [':'] true false true
    writeEntries indent (writeTree .entry (some indent) p value) rest

/-- Writes the items of a set: keys without values. -/
def writeMembers (indent : Nat) (p : Page) : List Tree → Page
  | [] => p
  | key :: rest =>
    let p := p.indentTo indent
    let p :=
      if isSimpleKey key then
        (writeTree .simpleKey (some indent) p key).indicator [':'] false false false
      else
        let p := p.indicator ['?'] true false true
        ((writeTree .entry (some indent) p key).indentTo indent).indicator [':'] true false true
    writeMembers indent (p.scalar .null "null".toList false false false (indent + 2)) rest

end

/-- The text of a tree as a document. -/
def writeDocument (tree : Tree) : List Char :=
  let p := (writeTree .root none .empty tree).indentTo 0
  let p := if p.openEnded then (p.indicator "...".toList true false false).indentTo 0 else p
  p.text.reverse

/-! ### Data as trees -/

/-- The text of a real: a whole number with an exponent keeps a fraction. -/
def realText (x : Double) : List Char :=
  RealFormat.yaml.text x

/-- Bytes in base64 on lines of 76 characters, each with a line end. -/
def base64Lines (bytes : List UInt8) : (fuel : Nat) → List Char
  | 0 => []
  | fuel + 1 =>
    if bytes.isEmpty then []
    else Base64.encode (bytes.take 57) ++ '\n' :: base64Lines (bytes.drop 57) fuel

/-- A scalar as a tree. -/
def scalarTree : Scalar → Except Fault Tree
  | .null => .ok (.scalar .null "null".toList false)
  | .bool b => .ok (.scalar .bool (if b then "true" else "false").toList false)
  | .int n => do return .scalar .int (← Numeral.intText n) false
  | .real x => .ok (.scalar .float (realText x) false)
  | .text s => .ok (.scalar .text s.toList false)

/-- Whether a tree can be an item of a set: no collection can. -/
def isMember : Tree → Bool
  | .scalar .. => true
  | _ => false

/-- Whether two trees are the same key. -/
def sameTree : Tree → Tree → Bool
  | .scalar tag text _, .scalar other others _ => tag == other && text == others
  | _, _ => false

/-- A set of trees, or their sequence when not all of them can be items of a set. -/
def setTree (items : List Tree) : Tree :=
  if items.all isMember then
    .set (items.foldl (fun members item =>
      if members.any (sameTree item) then members else members ++ [item]) [])
  else .sequence items

/-- The tree of data that is no collection. -/
def leafTree : Data → Except Fault Tree
  | .atom (.bytes data) => .ok (.scalar .binary (base64Lines data (data.length + 1)) true)
  | .atom (.moment m) => .ok (.scalar .timestamp (m.text ' ') false)
  | .atom (.day d) => .ok (.scalar .timestamp d.text false)
  | .cycle => .error .recursion
  | other =>
    match other.scalarKey? with
    | some scalar => scalarTree scalar
    | none => do return .scalar .text (← other.render) false

/-- The tree of a key: scalars, days and moments as they are, all else as text. -/
def keyTree : Data → Except Fault Tree
  | .atom (.moment m) => .ok (.scalar .timestamp (m.text ' ') false)
  | .atom (.day d) => .ok (.scalar .timestamp d.text false)
  | other =>
    match other.scalarKey? with
    | some scalar => scalarTree scalar
    | none => do return .scalar .text (← other.render) false

/-- Puts an entry under a key. -/
def putTree (key value : Tree) (entries : List (Tree × Tree)) : List (Tree × Tree) :=
  putEntry sameTree key value entries

mutual

/-- The tree of data. -/
def treeOf : Data → Except Fault Tree
  | .list items => do return .sequence (← treesOf items)
  | .tuple items => do return .sequence (← treesOf items)
  | .atom (.url u) => .ok (.sequence (u.parts.map fun part => .scalar .text part.toList false))
  | .set items => do return setTree (← treesOf items)
  | .frozen items => do return setTree (← treesOf items)
  | .map entries => do return .mapping (← entriesOf [] entries)
  | .page entries _ => do return .mapping (← entriesOf [] entries)
  | .scope entries => do return .mapping (← entriesOf [] entries)
  | other => leafTree other

/-- The trees of items. -/
def treesOf : List Data → Except Fault (List Tree)
  | [] => .ok []
  | item :: rest => do return (← treeOf item) :: (← treesOf rest)

/-- The trees of entries, added to those before. -/
def entriesOf (made : List (Tree × Tree)) : List (Data × Data) → Except Fault (List (Tree × Tree))
  | [] => .ok made
  | (key, value) :: rest => do entriesOf (putTree (← keyTree key) (← treeOf value) made) rest

end

/-- The text of data as a document. -/
def write (data : Data) : Except Fault (List Char) := do
  return writeDocument (← treeOf data)

end ResourceScript.Yaml
