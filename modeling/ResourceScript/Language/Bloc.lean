import ResourceScript.Language.Call
import ResourceScript.Language.Token
/-!
# Blocs of lines

Source text of several lines is compiled line by line. The line of a bloc function opens a bloc,
which collects the calls of the following lines up to the `end` line that closes it. An `end` line
with a name closes the innermost open bloc of that name and all blocs inside it; without a name it
closes the innermost one. What is open at the end of the text is closed there.
-/

set_option autoImplicit false

namespace ResourceScript

open Text

/-- A bloc that is being collected: its function and its parameters so far. -/
structure OpenBloc where
  /-- The function of the bloc. -/
  function : Function
  /-- The tokens of its header and the calls of its lines, in order. -/
  params : List Value
  deriving Repr

/-- The blocs open at a line, the innermost first, over the calls outside of all blocs. -/
structure Outline where
  /-- The open blocs, the innermost first. -/
  blocs : List OpenBloc
  /-- The calls outside of all blocs, in order. -/
  calls : List Value
  deriving Repr

namespace Outline

/-- The outline before the first line. -/
def empty : Outline := ⟨[], []⟩

/-- Adds a call to the innermost bloc, or outside of all blocs when none is open. -/
def add (o : Outline) (call : Value) : Outline :=
  match o.blocs with
  | [] => { o with calls := o.calls ++ [call] }
  | bloc :: outer => { o with blocs := { bloc with params := bloc.params ++ [call] } :: outer }

/-- Opens a bloc. -/
def openBloc (o : Outline) (f : Function) (header : List Value) : Outline :=
  { o with blocs := ⟨f, header⟩ :: o.blocs }

/-- Closes the innermost bloc: it becomes a call of the bloc around it. -/
def closeBloc (o : Outline) : Outline :=
  match o.blocs with
  | [] => o
  | bloc :: outer => { o with blocs := outer }.add (.call (some bloc.function) bloc.params)

/-- Closes a number of blocs, from the innermost outward. -/
def closeBlocs (o : Outline) : (count : Nat) → Outline
  | 0 => o
  | count + 1 => o.closeBloc.closeBlocs count

/-- The number of blocs inside the innermost bloc of a name; without a name none. -/
def inside? (o : Outline) (name : Option String) : Option Nat :=
  o.blocs.findIdx? fun bloc =>
    match name with
    | some name => bloc.function.name == name
    | none => true

/-- The program of a finished outline. -/
def program (o : Outline) : Value :=
  .call (some Builtin.evalFunction) (o.closeBlocs o.blocs.length).calls

end Outline

namespace Store

/-- The name of the bloc that a token after `end` stands for, if it stands for one. -/
def blocName (s : Store) (token : Value) : Except Fault (Option String) :=
  match token with
  | .function f => .ok (some f.name)
  | .call f _ => .ok (f.map Function.name)
  | .resource r => .ok (((s.resource r).uri.map Location.segments).bind List.head?)
  | token => (s.view token).toText.map some

end Store

namespace Compiler

/-- The name of the bloc that the tokens after `end` stand for, if there are any. They refer to
nothing in a store. -/
def closedName (params : List Value) : Compiler (Option String) :=
  match params with
  | [] => return none
  | token :: _ => ofExcept (Store.empty.blocName token)

/-- Reports the closing of a bloc. -/
def reportClosing (o : Outline) (name : Option String) (inside : Nat) : Compiler Unit :=
  let names := o.blocs.reverse.map fun bloc => quoted bloc.function.name.toList
  let depth := o.blocs.length - 1 - inside
  report ("[DBG] CLOSE " ++ name.getD "None" ++ " depth " ++ toString depth ++ " open ["
    ++ String.ofList (commaJoin names) ++ "]\n")

/-- Closes the bloc that an `end` line names. -/
def closeNamed (number : Nat) (text : String) (params : List Value) (o : Outline) :
    Compiler Outline := do
  let name ← closedName params
  match o.inside? name with
  | none => fail (.parse (.noOpenBloc number text))
  | some inside => do
    reportClosing o name inside
    return o.closeBlocs (inside + 1)

/-- Adds a compiled line to an outline. -/
def addLine (number : Nat) (text : String) (call : Value) (o : Outline) : Compiler Outline :=
  match call with
  | .call (some f) params =>
    if f.isBloc && f.name == "end" then closeNamed number text params o
    else if f.isBloc then return o.openBloc f params
    else return o.add call
  | _ => return o.add call

/-- Compiles a line of source text. -/
def compileLine (line : String) : Compiler Value := do
  return Call.ofTokens (← tokenize line)

/-- Compiles lines from a line number on; blank lines and comments are passed over. -/
def compileFrom (number : Nat) (o : Outline) : List String → Compiler Outline
  | [] => return o
  | line :: rest => do
    let text := trim line.toList
    if text.isEmpty || text.head? = some '#' then compileFrom (number + 1) o rest
    else
      let text := String.ofList text
      compileFrom (number + 1) (← addLine number text (← compileLine text) o) rest

/-- Compiles lines to a program that runs them one after the other. -/
def compileLines (lines : List String) : Compiler Value := do
  return (← compileFrom 1 .empty lines).program

/-- Compiles source text of one or of several lines. -/
def compile (source : String) : Compiler Value :=
  match lines (trim source.toList) with
  | [] => compileLine ""
  | [line] => compileLine (String.ofList line)
  | several => compileLines (several.map String.ofList)

end Compiler

end ResourceScript
