import ResourceScript.Task
/-!
# What scripts do

The tasks that all others are made of: reading and changing the store, writing and warning, and
adding data to the store.
-/

set_option autoImplicit false

namespace ResourceScript

namespace Script

/-- Stops with a failure. -/
def fail {α : Type} (cause : Fault) : Task α :=
  throw (.fault cause)

/-- A computation on plain data as a task. -/
def ofExcept {α : Type} : Except Fault α → Task α
  | .ok value => pure value
  | .error cause => fail cause

/-- The store. -/
def store : Task Store :=
  Task.query .store

/-- Replaces the store. -/
def setStore (store : Store) : Task Unit :=
  Task.query (.setStore store)

/-- The surroundings. -/
def surroundings : Task Surroundings :=
  Task.query .surroundings

/-- The file system. -/
def files : Task FileSystem :=
  Task.query .files

/-- Replaces the entries of the file system. The working directory and the home directory stay. -/
def setFiles (files : FileSystem) : Task Unit :=
  Task.query (.setFiles files)

/-- What the modules of the host hold by name. -/
def held : Task (List (String × Value)) :=
  Task.query .held

/-- Writes to the output. -/
def write (text : String) : Task Unit :=
  Task.query (.write text)

/-- Writes a line to the output, if that takes its text. -/
def writeLine (text : String) : Task Unit := do
  if (← surroundings).takes text then write (text ++ "\n") else fail .encoding

/-- Writes an error. -/
def writeError (text : String) : Task Unit :=
  Task.query (.writeError text)

/-- Warns. -/
def warn (warning : Warning) : Task Unit :=
  Task.query (.warn warning)

/-- Compiles; the traces are left also when it fails. -/
def compiling {α : Type} (c : Compiler α) : Task α := do
  let (result, traces) := c (← surroundings)
  Task.query (.note traces)
  ofExcept result

/-- What a value shows at present. -/
def view (value : Value) : Task Data := do
  return (← store).view value

/-- Adds a container. -/
def newCell (content : Cell) : Task Value := do
  let (store, value) := (← store).addCell content
  setStore store
  return value

/-- Adds a list. -/
def newList (items : List Value) : Task Value :=
  newCell (.list items)

/-- Adds a map. -/
def newMap (entries : List (Value × Value)) : Task Value :=
  newCell (.map entries)

/-- The content of a container. -/
def cell (n : Nat) : Task Cell := do
  return (← store).cell n

/-- Replaces the content of a container. -/
def setCell (n : Nat) (content : Cell) : Task Unit := do
  setStore ((← store).setCell n content)

/-- Adds a resource with a known location. -/
def addResource (record : ResourceRecord) : Task Nat := do
  let (store, n) := (← store).addResource record
  setStore store
  return n

/-- The text that a value counts as. -/
def textOf (value : Value) : Task String := do
  ofExcept (← view value).toText

/-- Plain data as a value. -/
def ofScalar : Scalar → Value
  | .null => .null
  | .bool b => .bool b
  | .int n => .int n
  | .real x => .real x
  | .text s => .text s

mutual

/-- Adds plain data to the store. -/
def ofPlain : Plain → Task Value
  | .scalar s => pure (ofScalar s)
  | .list items => do newList (← ofPlainItems items)
  | .map entries => do newMap (← ofPlainEntries entries)

/-- Adds plain items to the store. -/
def ofPlainItems : List Plain → Task (List Value)
  | [] => pure []
  | item :: rest => do return (← ofPlain item) :: (← ofPlainItems rest)

/-- Adds plain entries to the store. -/
def ofPlainEntries : List (Scalar × Plain) → Task (List (Value × Value))
  | [] => pure []
  | (key, value) :: rest => do return (ofScalar key, ← ofPlain value) :: (← ofPlainEntries rest)

end

mutual

/-- Adds data to the store as a new value. What only refers to something else cannot be made
anew. -/
def ofData : Data → Task Value
  | .atom a => pure (.atom a)
  | .tuple items => do return .tuple (← ofDataItems items)
  | .frozen items => do return .frozen (← ofDataItems items)
  | .call f params => do return .call f (← ofDataItems params)
  | .list items => do newList (← ofDataItems items)
  | .map entries => do newMap (← ofDataEntries entries)
  | .page entries source => do newCell (.page (← ofDataEntries entries) source)
  | .set items => do newCell (.set (← ofDataItems items))
  | .buffer bytes => newCell (.buffer bytes)
  | .object info fields => do newCell (.object info (← ofDataFields fields))
  | .side .. | .resource .. | .scope _ | .cycle => fail .type

/-- Adds items to the store. -/
def ofDataItems : List Data → Task (List Value)
  | [] => pure []
  | item :: rest => do return (← ofData item) :: (← ofDataItems rest)

/-- Adds entries to the store. -/
def ofDataEntries : List (Data × Data) → Task (List (Value × Value))
  | [] => pure []
  | (key, value) :: rest => do return (← ofData key, ← ofData value) :: (← ofDataEntries rest)

/-- Adds fields to the store. -/
def ofDataFields : List (String × Data) → Task (List (String × Value))
  | [] => pure []
  | (name, value) :: rest => do return (name, ← ofData value) :: (← ofDataFields rest)

end

end Script

end ResourceScript
