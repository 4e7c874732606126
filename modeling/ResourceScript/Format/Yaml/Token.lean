import ResourceScript.Format.Yaml.Cursor
import ResourceScript.Text.Utf8
/-!
# Tokens of YAML text

A YAML text is a sequence of tokens. Indentation opens and closes blocks; a key of a mapping is only
known as such when the colon behind it is read, so the tokens of possible keys are remembered and
completed then.
-/

set_option autoImplicit false

namespace ResourceScript.Yaml

open Text

/-- A token. -/
inductive Token where
  /-- A directive on the version. -/
  | versionDirective (major : Nat)
  /-- A directive on tags: a handle and what it stands for. -/
  | tagDirective (handle start : String)
  /-- A directive without a meaning here. -/
  | otherDirective
  | documentStart | documentEnd
  | blockSequenceStart | blockMappingStart | blockEnd
  | flowSequenceStart | flowSequenceEnd | flowMappingStart | flowMappingEnd
  | blockEntry | flowEntry
  | key | value
  /-- A reference to an anchor. -/
  | reference (name : String)
  /-- An anchor. -/
  | anchor (name : String)
  /-- A tag: its handle, unless it is written in full, and the rest. -/
  | tag (handle : Option String) (suffix : String)
  /-- A scalar, and whether it is written plainly. -/
  | scalar (text : List Char) (plain : Bool)
  | streamEnd
  deriving DecidableEq, Repr

/-- The place of a possible key: the number of its token, its position, and whether there has to be
a key. -/
structure PossibleKey where
  /-- The number of tokens before it. -/
  token : Nat
  /-- Whether the block needs a key here. -/
  required : Bool
  /-- The number of characters before it. -/
  index : Nat
  /-- Its line. -/
  line : Nat
  /-- Its column. -/
  column : Nat
  deriving Repr

/-- A scanner between two tokens. -/
structure Scanner where
  /-- The position in the text. -/
  cursor : Cursor
  /-- The tokens so far. -/
  tokens : Array Token
  /-- The depth of brackets and braces. -/
  flow : Nat
  /-- The column of the innermost block; -1 outside of all blocks. -/
  indent : Int
  /-- The columns of the blocks around it, the innermost first. -/
  indents : List Int
  /-- Whether a key may begin here without a mark. -/
  allowKey : Bool
  /-- The possible keys by the depth of brackets. -/
  keys : List (Nat × PossibleKey)

namespace Scanner

/-- The scanner at the beginning of a text. -/
def start (text : List Char) : Scanner :=
  ⟨.start text, #[], 0, -1, [], true, []⟩

/-- Adds a token. -/
def push (s : Scanner) (token : Token) : Scanner :=
  { s with tokens := s.tokens.push token }

/-- Moves on by a number of characters. -/
def forward (s : Scanner) (count : Nat) : Scanner :=
  { s with cursor := s.cursor.skip count }

/-- Forgets the possible key at the current depth; refused when a key is required. -/
def dropKey (s : Scanner) : Except Fault Scanner :=
  match s.keys.lookup s.flow with
  | none => .ok s
  | some key =>
    if key.required then .error .yaml
    else .ok { s with keys := s.keys.filter fun entry => entry.1 != s.flow }

/-- Remembers that a key may begin here. -/
def saveKey (s : Scanner) : Except Fault Scanner := do
  if s.allowKey then
    let required := s.flow == 0 && s.indent == (s.cursor.column : Int)
    let key : PossibleKey :=
      ⟨s.tokens.size, required, s.cursor.index, s.cursor.line, s.cursor.column⟩
    let s ← s.dropKey
    return { s with keys := (s.flow, key) :: s.keys }
  else return s

/-- Forgets the possible keys that have become impossible: a key stands on one line and has at most
1024 characters. -/
def dropStale (s : Scanner) : Except Fault Scanner :=
  let isStale := fun (entry : Nat × PossibleKey) =>
    entry.2.line != s.cursor.line || 1024 < s.cursor.index - entry.2.index
  if s.keys.any fun entry => isStale entry && entry.2.required then .error .yaml
  else .ok { s with keys := s.keys.filter fun entry => !isStale entry }

/-- Closes the blocks that are further to the right than a column. -/
def unwindFrom (column : Int) (s : Scanner) : List Int → Scanner
  | [] => s
  | outer :: indents =>
    if column < s.indent then
      unwindFrom column { s.push .blockEnd with indent := outer, indents } indents
    else s

/-- Closes the blocks that are further to the right than a column; brackets hide blocks. -/
def unwind (s : Scanner) (column : Int) : Scanner :=
  if s.flow = 0 then unwindFrom column s s.indents else s

/-- Opens a block at a column if it is to the right of the current one. -/
def openBlock (s : Scanner) (column : Int) : Option Scanner :=
  if s.indent < column then some { s with indents := s.indent :: s.indents, indent := column }
  else none

/-- Skips blanks, comments and line ends up to the next token. The fuel bounds the number of lines. -/
def skipGap (s : Scanner) : (fuel : Nat) → Scanner
  | 0 => s
  | fuel + 1 =>
    let c := s.cursor.skipComment
    match c.lineBreak with
    | ([], _) => { s with cursor := c }
    | (_, c) => { s with cursor := c, allowKey := s.allowKey || s.flow == 0 }.skipGap fuel

/-! ### Names and tags -/

/-- The characters of names and handles. -/
def isNameChar (c : Char) : Bool :=
  isAsciiLetter c || isAsciiDigit c || c == '-' || c == '_'

/-- The characters of tags. -/
def isTagChar (c : Char) : Bool :=
  isAsciiLetter c || isAsciiDigit c || "-;/?:@&=+$,_.!~*'()[]%".toList.contains c

/-- An alias or an anchor: a name and then something that ends it. -/
def scanName (s : Scanner) (make : String → Token) : Except Fault Scanner :=
  let name := s.cursor.next.rest.takeWhile isNameChar
  let s := s.forward (name.length + 1)
  let ended := isEndOrBlank (s.cursor.peek 0) ||
    (match s.cursor.peek 0 with
      | some c => "?:,]\x7d%@`".toList.contains c
      | none => true)
  if name.isEmpty || !ended then .error .yaml else .ok (s.push (make (String.ofList name)))

/-- The handle of a tag: an exclamation mark, and perhaps a name and another one. -/
def scanHandle (c : Cursor) : Except Fault (String × Cursor) :=
  match c.rest with
  | '!' :: rest =>
    let name := rest.takeWhile isNameChar
    match rest.drop name.length with
    | '!' :: _ => .ok (String.ofList ('!' :: (name ++ ['!'])), c.skip (name.length + 2))
    | after =>
      if name.isEmpty && (after.head? == some ' ') then .ok ("!", c.next) else .error .yaml
  | _ => .error .yaml

/-- The characters of a tag in which escapes stand for bytes. The fuel bounds the number of
pieces. -/
def tagBytes (text : List Char) : (fuel : Nat) → Except Fault (List UInt8)
  | 0 => .ok []
  | fuel + 1 =>
    match text with
    | [] => .ok []
    | '%' :: a :: b :: rest => do
      match Cursor.hexNumber? [a, b] with
      | some n => return UInt8.ofNat n :: (← tagBytes rest fuel)
      | none => .error .yaml
    | '%' :: _ => .error .yaml
    | c :: rest => do return Utf8.encodeChar c ++ (← tagBytes rest fuel)

/-- The text of a tag or of what a handle stands for. -/
def scanTagText (c : Cursor) : Except Fault (String × Cursor) := do
  let raw := c.rest.takeWhile isTagChar
  if raw.isEmpty then .error .yaml
  else
    match Utf8.decodeStrict? (← tagBytes raw (raw.length + 1)) with
    | some text => return (String.ofList text, c.skip raw.length)
    | none => .error .yaml

/-- Whether an exclamation mark occurs before the next space. -/
def hasSecondMark (text : List Char) : Bool :=
  (text.takeWhile fun c => !(c == ' ' || isBreak c)).contains '!'

/-- A tag. -/
def scanTag (s : Scanner) : Except Fault Scanner := do
  let c := s.cursor
  let (handle, suffix, c) ←
    match c.peek 1 with
    | some '<' => do
      let (text, c) ← scanTagText (c.skip 2)
      if c.peek 0 = some '>' then pure (none, text, c.next) else .error .yaml
    | second =>
      if isEndOrBlank second then pure (none, "!", c.next)
      else if hasSecondMark c.next.rest then do
        let (handle, c) ← scanHandle c
        let (text, c) ← scanTagText c
        pure (some handle, text, c)
      else do
        let (text, c) ← scanTagText c.next
        pure (some "!", text, c)
  if isEndOrSpace (c.peek 0) then return { s with cursor := c }.push (.tag handle suffix)
  else .error .yaml

/-! ### Directives -/

/-- A version: two numbers with a point between them. -/
def scanVersion (c : Cursor) : Except Fault (Nat × Cursor) :=
  let c := c.skipWhile (· == ' ')
  let major := c.rest.takeWhile isAsciiDigit
  let afterMajor := c.skip major.length
  let minor := afterMajor.next.rest.takeWhile isAsciiDigit
  let c := afterMajor.next.skip minor.length
  if major.isEmpty || minor.isEmpty || afterMajor.peek 0 != some '.' || !isEndOrSpace (c.peek 0) then
    .error .yaml
  else .ok (major.foldl (fun n d => 10 * n + (d.toNat - 48)) 0, c)

/-- A directive on its line. -/
def scanDirective (s : Scanner) : Except Fault Scanner := do
  let name := s.cursor.next.rest.takeWhile isNameChar
  let c := s.cursor.skip (name.length + 1)
  if name.isEmpty || !isEndOrSpace (c.peek 0) then .error .yaml
  else
    let (token, c) ←
      if name = "YAML".toList then do
        let (major, c) ← scanVersion c
        pure (Token.versionDirective major, c)
      else if name = "TAG".toList then do
        let (handle, c) ← scanHandle (c.skipWhile (· == ' '))
        if c.peek 0 = some ' ' then
          let (start, c) ← scanTagText (c.skipWhile (· == ' '))
          if isEndOrSpace (c.peek 0) then pure (Token.tagDirective handle start, c)
          else .error .yaml
        else .error .yaml
      else pure (Token.otherDirective, c.skipWhile fun a => !isBreak a)
    return { s with cursor := ← c.endOfLine }.push token

/-! ### Tokens one by one -/

/-- The end of the text: all blocks are closed. -/
def fetchEnd (s : Scanner) : Except Fault Scanner := do
  let s ← (s.unwind (-1)).dropKey
  return s.push .streamEnd

/-- A directive or a document marker, outside of all blocks. -/
def outside (s : Scanner) : Except Fault Scanner := do
  let s ← (s.unwind (-1)).dropKey
  return { s with allowKey := false }

/-- A bracket or brace that opens. -/
def fetchOpen (s : Scanner) (token : Token) : Except Fault Scanner := do
  let s ← s.saveKey
  return ({ s with flow := s.flow + 1, allowKey := true }.forward 1).push token

/-- A bracket or brace that closes. -/
def fetchClose (s : Scanner) (token : Token) : Except Fault Scanner := do
  if s.flow = 0 then .error .yaml
  else
    let s ← s.dropKey
    return ({ s with flow := s.flow - 1, allowKey := false }.forward 1).push token

/-- A comma. -/
def fetchComma (s : Scanner) : Except Fault Scanner := do
  let s ← { s with allowKey := true }.dropKey
  return (s.forward 1).push .flowEntry

/-- Opens a block for an entry or a key outside of brackets, where one may begin. -/
def enterBlock (s : Scanner) (token : Token) : Except Fault Scanner :=
  if s.flow ≠ 0 then .ok s
  else if !s.allowKey then .error .yaml
  else match s.openBlock s.cursor.column with
    | some opened => .ok (opened.push token)
    | none => .ok s

/-- The mark of a sequence entry. -/
def fetchEntry (s : Scanner) : Except Fault Scanner := do
  let s ← s.enterBlock .blockSequenceStart
  let s ← { s with allowKey := true }.dropKey
  return (s.forward 1).push .blockEntry

/-- The mark of a key. -/
def fetchKey (s : Scanner) : Except Fault Scanner := do
  let s ← s.enterBlock .blockMappingStart
  let s ← { s with allowKey := s.flow == 0 }.dropKey
  return (s.forward 1).push .key

/-- Inserts tokens before the token of a possible key. -/
def insertAt (s : Scanner) (position : Nat) (tokens : List Token) : Scanner :=
  { s with tokens := (s.tokens.toList.take position ++ tokens ++ s.tokens.toList.drop position).toArray }

/-- A colon: what was a possible key becomes a key. -/
def fetchValue (s : Scanner) : Except Fault Scanner := do
  match s.keys.lookup s.flow with
  | some key =>
    let s := { s with keys := s.keys.filter fun entry => entry.1 != s.flow }
    let s :=
      match (if s.flow = 0 then s.openBlock key.column else none) with
      | some opened => opened.insertAt key.token [.blockMappingStart, .key]
      | none => s.insertAt key.token [.key]
    return ({ s with allowKey := false }.forward 1).push .value
  | none =>
    let s ← s.enterBlock .blockMappingStart
    let s ← { s with allowKey := s.flow == 0 }.dropKey
    return (s.forward 1).push .value

/-- A token that may begin a key. -/
def keyed (s : Scanner) (scan : Scanner → Except Fault Scanner) : Except Fault Scanner := do
  scan { (← s.saveKey) with allowKey := false }

/-- A block scalar. -/
def fetchBlock (s : Scanner) (folded : Bool) : Except Fault Scanner := do
  let s ← { s with allowKey := true }.dropKey
  let least := max 1 (s.indent + 1).toNat
  let (text, c) ← s.cursor.next.blockText folded least
  return { s with cursor := c }.push (.scalar text false)

/-- A quoted scalar. -/
def fetchQuoted (s : Scanner) (double : Bool) : Except Fault Scanner :=
  s.keyed fun s => do
    let (text, c) ← s.cursor.next.quotedText double (s.cursor.rest.length + 1)
    return { s with cursor := c }.push (.scalar text false)

/-- A plain scalar. -/
def fetchPlain (s : Scanner) : Except Fault Scanner :=
  s.keyed fun s =>
    let (text, newLine, c) :=
      Cursor.plainText (s.flow != 0) (s.indent + 1).toNat [] s.cursor false
        (s.cursor.rest.length + 1)
    .ok ({ s with cursor := c, allowKey := newLine }.push (.scalar text true))

/-- Whether a plain scalar can begin with a character. -/
def beginsPlain (s : Scanner) (c : Char) : Bool :=
  !("-?:,[]\x7b\x7d#&*!|>'\"%@`".toList.contains c || c == ' ' || c == '\t' || isBreak c)
    || (!isEndOrBlank (s.cursor.peek 1) && (c == '-' || (s.flow == 0 && (c == '?' || c == ':'))))

/-- Reads the next token, if the text has not ended. -/
def fetch (s : Scanner) : Except Fault (Scanner × Bool) := do
  let s := s.skipGap (s.cursor.rest.length + 1)
  let s ← s.dropStale
  let s := s.unwind s.cursor.column
  match s.cursor.peek 0 with
  | none => return (← s.fetchEnd, true)
  | some c =>
    let blank := isEndOrBlank (s.cursor.peek 1)
    let more : Except Fault Scanner :=
      if c = '%' ∧ s.cursor.column = 0 then do (← s.outside).scanDirective
      else if s.cursor.column = 0 ∧ s.cursor.atMarker ['-', '-', '-'] then do
        return ((← s.outside).forward 3).push .documentStart
      else if s.cursor.column = 0 ∧ s.cursor.atMarker ['.', '.', '.'] then do
        return ((← s.outside).forward 3).push .documentEnd
      else if c = '[' then s.fetchOpen .flowSequenceStart
      else if c = '\x7b' then s.fetchOpen .flowMappingStart
      else if c = ']' then s.fetchClose .flowSequenceEnd
      else if c = '\x7d' then s.fetchClose .flowMappingEnd
      else if c = ',' then s.fetchComma
      else if c = '-' ∧ blank then s.fetchEntry
      else if c = '?' ∧ (s.flow ≠ 0 ∨ blank) then s.fetchKey
      else if c = ':' ∧ (s.flow ≠ 0 ∨ blank) then s.fetchValue
      else if c = '*' then s.keyed fun s => s.scanName .reference
      else if c = '&' then s.keyed fun s => s.scanName .anchor
      else if c = '!' then s.keyed scanTag
      else if c = '|' ∧ s.flow = 0 then s.fetchBlock false
      else if c = '>' ∧ s.flow = 0 then s.fetchBlock true
      else if c = '\'' then s.fetchQuoted false
      else if c = '"' then s.fetchQuoted true
      else if s.beginsPlain c then s.fetchPlain
      else .error .yaml
    return (← more, false)

/-- Reads tokens up to the end of the text. The fuel bounds their number. -/
def run (s : Scanner) : (fuel : Nat) → Except Fault (Array Token)
  | 0 => .error .yaml
  | fuel + 1 => do
    let (s, ended) ← s.fetch
    if ended then return s.tokens else s.run fuel

end Scanner

/-- The characters that may occur in YAML text. -/
def isAllowed (c : Char) : Bool :=
  let n := c.toNat
  n == 0x09 || n == 0x0a || n == 0x0d || (0x20 ≤ n && n ≤ 0x7e) || n == 0x85
    || (0xa0 ≤ n && n ≤ 0xd7ff) || (0xe000 ≤ n && n ≤ 0xfffd) || 0x10000 ≤ n

/-- The tokens of a text; a byte order mark at its beginning is passed over. -/
def Token.ofText (text : List Char) : Except Fault (Array Token) :=
  if text.all isAllowed then
    let start := Scanner.start text
    let start :=
      if text.head? = some (Char.ofNat 0xfeff) then start.forward 1 else start
    start.run (text.length + 2)
  else .error .yaml

end ResourceScript.Yaml
