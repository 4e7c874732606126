import ResourceScript.Fault
import ResourceScript.Text.Space
import ResourceScript.Text.Quoted
/-!
# Property lists

Lines of a key and a value between which stands an equals sign, a colon or white space. Characters
that would be taken for something else are escaped by a backslash; a backslash at the end of a line
continues it on the next.
-/

set_option autoImplicit false

namespace ResourceScript.Properties

open Text

/-! ### Escapes -/

/-- One character of a key or a value; `first` tells whether it is the first. -/
def escapeChar (key first : Bool) (c : Char) : List Char :=
  if c = '\\' then ['\\', '\\']
  else if c = '\n' then ['\\', 'n']
  else if c = '\r' then ['\\', 'r']
  else if c = '\t' then ['\\', 't']
  else if key && (c == '=' || c == ':' || c == '#' || c == '!') then ['\\', c]
  else if c = ' ' ∧ (key || first) then ['\\', ' ']
  else [c]

/-- A key or a value with its special characters escaped. -/
def escape (key : Bool) : List Char → List Char
  | [] => []
  | c :: rest => escapeChar key true c ++ rest.flatMap (escapeChar key false)

/-- The character that a letter behind a backslash stands for. -/
def escaped (c : Char) : Char :=
  if c = 't' then '\t'
  else if c = 'n' then '\n'
  else if c = 'r' then '\r'
  else if c = 'f' then Char.ofNat 0x0c
  else c

/-- Four hexadecimal digits at the beginning of a text, and the rest of it. -/
def codeUnit? : List Char → Option (Nat × List Char)
  | a :: b :: c :: d :: rest => do
    return ((((← hexValue? a) * 16 + (← hexValue? b)) * 16 + (← hexValue? c)) * 16
      + (← hexValue? d), rest)
  | _ => none

theorem codeUnit?_length {text rest : List Char} {n : Nat} (h : codeUnit? text = some (n, rest)) :
    rest.length < text.length := by
  unfold codeUnit? at h
  split at h
  · simp only [Option.bind_eq_bind, Option.bind_eq_some_iff, Option.pure_def, Option.some.injEq,
      Prod.mk.injEq] at h
    obtain ⟨_, _, _, _, _, _, _, _, _, rfl⟩ := h
    simp only [List.length_cons]
    omega
  · simp at h

/-- A key or a value with its escapes undone. A letter u behind a backslash needs four hexadecimal
digits, which are one character whatever stands behind them; a line feed is never escaped. -/
def unescape : List Char → Except Fault (List Char)
  | [] => .ok []
  | c :: rest =>
    if c = '\\' then
      match rest with
      | [] => .ok ['\\']
      | e :: more =>
        if e = 'u' then
          match _hunit : codeUnit? more with
          | some (n, after) => do return unitChar n :: (← unescape after)
          | none => .error .value
        else if e = '\n' then do return '\\' :: '\n' :: (← unescape more)
        else do return escaped e :: (← unescape more)
    else do return c :: (← unescape rest)
termination_by text => text.length
decreasing_by
  all_goals simp only [List.length_cons]
  · have := codeUnit?_length _hunit
    omega
  all_goals omega

/-! ### Lines -/

/-- The white space of property lists: space, tabulator and form feed. -/
def isGap (c : Char) : Bool :=
  c == ' ' || c == '\t' || c == Char.ofNat 0x0c

/-- The key of a line, escapes included, and the text from its separator on. -/
def cutKey : List Char → List Char × List Char
  | [] => ([], [])
  | '\\' :: c :: rest => let (key, after) := cutKey rest; ('\\' :: c :: key, after)
  | c :: rest =>
    if c = '=' ∨ c = ':' ∨ isGap c then ([], c :: rest)
    else let (key, after) := cutKey rest; (c :: key, after)

/-- The key and the value of a line, escapes included. -/
def split (line : List Char) : List Char × List Char :=
  let (key, after) := cutKey line
  let after := trimStartBy isGap after
  match after with
  | c :: rest => if c = '=' ∨ c = ':' then (key, trimStartBy isGap rest) else (key, after)
  | [] => (key, [])

/-- Whether a line goes on with the next: it ends in an odd number of backslashes. -/
def continues (line : List Char) : Bool :=
  (line.reverse.takeWhile (· == '\\')).length % 2 == 1

/-- Whether a line holds no property: it is blank or a comment. -/
def isSkipped (line : List Char) : Bool :=
  match line with
  | [] => true
  | c :: _ => c == '#' || c == '!'

/-- The properties of lines as they are written; `pending` holds the text of continued lines. -/
def logicalLines (pending : List Char) : List (List Char) → List (List Char)
  | [] => if pending.isEmpty then [] else [pending]
  | raw :: rest =>
    let line := trimStartBy isGap raw
    if pending.isEmpty && isSkipped line then logicalLines pending rest
    else if continues line then logicalLines (pending ++ line.dropLast) rest
    else (pending ++ line) :: logicalLines [] rest

/-- The entry of a property. -/
def entry (line : List Char) : Except Fault (List Char × List Char) := do
  let (key, value) := split line
  return (← unescape key, ← unescape value)

/-- The entries of a text in order. -/
def read (text : List Char) : Except Fault (List (List Char × List Char)) :=
  (logicalLines [] (lines text)).mapM entry

/-- The line of an entry. -/
def writeEntry (key value : List Char) : List Char :=
  escape true key ++ '=' :: escape false value ++ ['\n']

/-- The text of entries. -/
def write (entries : List (List Char × List Char)) : List Char :=
  entries.flatMap fun (key, value) => writeEntry key value

end ResourceScript.Properties
