import ResourceScript.Fault
import ResourceScript.Text.Space
/-!
# Comma-separated values

Rows of fields between commas. A field with a comma, a quote or a line end is written between quotes
and its quotes are doubled; the only field of a row is quoted when it is empty. Reading takes line
feeds, carriage returns or both as row ends.
-/

set_option autoImplicit false

namespace ResourceScript.Csv

open Text

/-! ### Writing -/

/-- Whether a character forces quotes around its field. -/
def needsQuotes (c : Char) : Bool :=
  c == ',' || c == '"' || c == '\r' || c == '\n'

/-- A text between quotes, its own quotes doubled. -/
def quoteField (text : List Char) : List Char :=
  '"' :: (text.flatMap fun c => if c = '"' then ['"', '"'] else [c]) ++ ['"']

/-- A field of a row. -/
def writeField (text : List Char) : List Char :=
  if text.any needsQuotes then quoteField text else text

/-- A row with its end. -/
def writeRow (fields : List (List Char)) : List Char :=
  (match fields with
    | [[]] => ['"', '"']
    | fields => joinWith [','] (fields.map writeField)) ++ ['\r', '\n']

/-- The text of rows. -/
def write (rows : List (List (List Char))) : List Char :=
  rows.flatMap writeRow

/-! ### Reading -/

/-- Where the reader stands. -/
inductive State where
  /-- At the start of a row. -/
  | rowStart
  /-- At the start of a field. -/
  | fieldStart
  /-- In a field without quotes. -/
  | inField
  /-- Between quotes. -/
  | inQuotes
  /-- Behind a quote that was between quotes. -/
  | afterQuote
  /-- Behind the end of a row. -/
  | rowEnd
  deriving DecidableEq, Repr

/-- A row that is being read: its fields so far and the current field, both in reverse. -/
structure Partial where
  /-- The state. -/
  state : State
  /-- The fields that are complete, the latest first. -/
  fields : List (List Char)
  /-- The characters of the current field, the latest first. -/
  field : List Char
  deriving Repr

namespace Partial

/-- At the start of a row. -/
def start : Partial := ⟨.rowStart, [], []⟩

/-- Completes the current field. -/
def save (p : Partial) (state : State) : Partial :=
  ⟨state, p.field.reverse :: p.fields, []⟩

/-- Adds a character to the current field. -/
def add (p : Partial) (state : State) (c : Char) : Partial :=
  { p with state, field := c :: p.field }

/-- Whether a character ends a row. -/
def isRowEnd (c : Char) : Bool :=
  c == '\n' || c == '\r'

/-- One character at the start of a field. -/
def startField (p : Partial) (c : Char) : Partial :=
  if isRowEnd c then p.save .rowEnd
  else if c = '"' then { p with state := .inQuotes }
  else if c = ',' then p.save .fieldStart
  else p.add .inField c

/-- Reads one character. -/
def step (p : Partial) (c : Char) : Except Fault Partial :=
  match p.state with
  | .rowStart => .ok (if isRowEnd c then { p with state := .rowEnd } else p.startField c)
  | .fieldStart => .ok (p.startField c)
  | .inField =>
    .ok (if isRowEnd c then p.save .rowEnd
      else if c = ',' then p.save .fieldStart else p.add .inField c)
  | .inQuotes => .ok (if c = '"' then { p with state := .afterQuote } else p.add .inQuotes c)
  | .afterQuote =>
    .ok (if c = '"' then p.add .inQuotes c
      else if isRowEnd c then p.save .rowEnd
      else if c = ',' then p.save .fieldStart else p.add .inField c)
  | .rowEnd => if isRowEnd c then .ok p else .error .csv

/-- Reads the end of a line. -/
def endLine (p : Partial) : Partial :=
  match p.state with
  | .rowStart => p
  | .fieldStart | .inField | .afterQuote => p.save .rowStart
  | .inQuotes => p
  | .rowEnd => { p with state := .rowStart }

/-- The row of a finished reading. -/
def row (p : Partial) : List (List Char) :=
  p.fields.reverse

end Partial

/-- The greatest number of characters of a field. -/
def maxField : Nat := 131072

/-- Refuses a row with a field that is too long. -/
def checkRow (row : List (List Char)) : Except Fault (List (List Char)) :=
  if row.all fun field => field.length ≤ maxField then .ok row else .error .csv

/-- Reads the rows of a text from a row that is being read. A line ends at a line feed; a row may
span lines between quotes, and the end of the text closes quotes. -/
def readFrom (p : Partial) : List Char → Except Fault (List (List (List Char)))
  | [] =>
    let last := p.endLine
    if p.state = .rowStart then .ok []
    else if last.state = .rowStart then do return [← checkRow last.row]
    else do return [← checkRow (last.save .rowStart).row]
  | c :: rest => do
    let next ← p.step c
    if c = '\n' then
      let ended := next.endLine
      if ended.state = .rowStart then do
        return (← checkRow ended.row) :: (← readFrom .start rest)
      else readFrom ended rest
    else readFrom next rest

/-- The rows of a text. -/
def read (text : List Char) : Except Fault (List (List (List Char))) :=
  readFrom .start text

end ResourceScript.Csv
