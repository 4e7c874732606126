import ResourceScript.Scope.Current
/-!
# Sessions

A session runs scripts one after the other in a root scope of its own. A failure of a script becomes
its report; leaving the program ends the session. The command line runs a script resource or its
arguments as one line, or reads lines.
-/

set_option autoImplicit false

namespace ResourceScript

open Text

/-- What comes of a script that a session runs. -/
inductive Outcome where
  /-- A value. -/
  | value (v : Value)
  /-- The report of a failure. -/
  | report (text : String)

namespace Store

/-- The text of what a session is to run: source text itself, or the display of a call. -/
def sourceText (s : Store) : Value → Except Fault String
  | .text text => .ok text
  | source => ((s.view source).cut Data.freeFrames).display

/-- The printed form of a value, with two spaces for a level. -/
def printed (s : Store) (value : Value) : Except Fault String :=
  ((s.view value).cut Data.freeFrames).print 2

end Store

namespace Script

/-- Opens a session: its scope has the arguments as the constant `args`, under the given
constants. -/
def openSession (constants changeable : List (Value × Value)) (arguments : List Value) :
    Script Nat := do
  let args ← newList arguments
  let s ← store
  let merged := constants.foldl (fun map entry => putEntry s.same entry.1 entry.2 map)
    [(.text "args", args)]
  newScope ⟨none, merged, changeable, arguments⟩

/-- The next number of a resource of source text. -/
def nextWritten (text uri : String) : StateM Nat ResourceRef := fun n =>
  (.written n text uri, n + 1)

/-- Numbers the resources of compiled source text, following those numbered before. -/
def number (program : Value) : Script Value := do
  let (program, written) := program.load nextWritten (← get).written
  modify fun w => { w with written }
  return program

/-- Compiles source text for a session. -/
def prepare (source : String) : Script Value := do
  number (← compiling (Compiler.compile source))

/-- Runs source text, or a call that is compiled already, in the scope of a session; jobs may nest
to a depth. -/
def runSourceAt (depth scope : Nat) (source : Value) : Script Value := do
  let program ← match source with
    | .text text => prepare text
    | .call .. => pure source
    | _ => throw (.fault .noAttribute)
  within scope ((execute program).runAt depth)

/-- Runs source text, or a call that is compiled already, in the scope of a session. -/
def runSource (scope : Nat) (source : Value) : Script Value :=
  runSourceAt Job.maxDepth scope source

/-- The text of what a session is to run. -/
def sourceText (source : Value) : Script String := do
  ofExcept ((← store).sourceText source)

/-- The report of a failed script. -/
def report (cause : Fault) : Script Outcome := do
  return .report (← ofExcept cause.reported)

/-- Runs source text or a call; a failure becomes its report. The text of the source is made first,
outside of what is caught. -/
def handle (scope : Nat) (source : Value) : Script Outcome := do
  discard (sourceText source)
  tryCatch (do return .value (← runSource scope source)) fun stop =>
    match stop with
    | .fault cause => report cause
    | .exhausted => report .recursion
    | .exit _ => throw stop

/-- Writes a line with the printed form of a value behind a lead. -/
def writeValue (lead : String) (value : Value) : Script Unit := do
  let text ← ofExcept ((← store).printed value)
  writeLine (lead ++ text)

/-! ### The command line -/

/-- The places that scripts are loaded from. -/
def isScriptPlace (place : Place) : Bool :=
  place == .file || place == .server || place == .inline

/-- The resource of a script that an argument denotes. -/
def scriptResource? (argument : String) : Script (Option Nat) := do
  let n ← newResource (.text argument)
  match (← resource n).uri with
  | none => return none
  | some uri =>
    if isScriptPlace (Location.place uri) then
      return if (← mimetypeOf n) == some Media.script.name then some n else none
    else return none

/-- Writes what comes of a script and answers the status. -/
def writeOutcome : Outcome → Script Int
  | .report text => do
    writeError (text ++ "\n")
    return 1
  | .value v => do
    if !v.isNull then writeValue "" v
    return 0

/-- Runs the script of the first argument with the others as its arguments, or all arguments as one
line. -/
def runArguments (first : String) (rest : List String) : Script Int := do
  match ← scriptResource? first with
  | some n => do
    let scope ← openSession [] [] (rest.map .text)
    let program ← getData n
    if program.isNull then
      let label := ((← store).resource n).label (← store).view
      writeError ("Error: cannot load script " ++ label ++ "\n")
      return 1
    else writeOutcome (← handle scope program)
  | none => do
    let arguments := first :: rest
    let scope ← openSession [] [] (arguments.map .text)
    writeOutcome (← handle scope (.text (" ".intercalate arguments)))

/-- Greets the reader of a line session. -/
def greet : Script Unit := do
  write "REXL REPL v0.1\n"
  write "Type 'quit' or press Ctrl+D to quit.\n"

/-- Asks for a line. -/
def prompt : Script Unit :=
  write "? "

/-- Takes leave when there are no more lines. -/
def takeLeave : Script Unit :=
  write "\nExiting.\n"

/-- The source text of a line: what is left without the white space around it. -/
def lineSource (line : String) : String :=
  String.ofList (trim line.toList)

/-- The words that end a line session. -/
def farewells : List String :=
  ["quit", "exit"]

/-- Answers a line of a line session; the answer tells whether the session goes on. -/
def answerLine (scope : Nat) (line : String) : Script Bool := do
  if lineSource line = "" then return true
  else if lineSource line ∈ farewells then return false
  else do
    match ← handle scope (.text (lineSource line)) with
    | .report text => writeError (text ++ "\n")
    | .value v => writeValue "= " v
    return true

/-- Answers lines one after the other. -/
def answerLines (scope : Nat) : List String → Script Unit
  | [] => do
    prompt
    takeLeave
  | line :: rest => do
    prompt
    if ← answerLine scope line then answerLines scope rest

/-- Runs the command line: its arguments, or a line session without any. The answer is the
status. -/
def commandLine (arguments lines : List String) : Script Int := do
  match arguments with
  | first :: rest => runArguments first rest
  | [] => do
    let scope ← openSession [] [] []
    greet
    answerLines scope lines
    return 0

end Script

end ResourceScript
