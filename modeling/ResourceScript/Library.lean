import ResourceScript.Language.Load
import ResourceScript.Member
import ResourceScript.Shell
/-!
# The built-in functions

What each built-in function does with its parameters. Parameters are not evaluated beforehand: a
function executes those that it needs, by a runner that is given to it. The standard runner orders
these jobs from the world, where they nest to a limited depth.
-/

set_option autoImplicit false

namespace ResourceScript

/-- How functions run what they are given. -/
structure Runner where
  /-- Runs calls and fetches resources until a plain value remains. -/
  execute : Value → Task Value
  /-- Runs a single call. -/
  perform : Option Function → List Value → Task Value

namespace Library

/-- The parameter at a position, null when it is missing. -/
def parameter (params : List Value) (position : Nat) : Value :=
  (params[position]?).getD .null

/-- A call is run until a value that is no call remains; `bound` limits the number of calls. -/
def settle (r : Runner) : (bound : Nat) → Value → Task Value
  | 0, _ => Script.fail .unfinished
  | bound + 1, value =>
    match value with
    | .call f params => do settle r bound (← r.perform f params)
    | _ => return value

/-- The resource that a parameter designates, which is not fetched. -/
def resourceOf (r : Runner) (value : Value) : Task ResourceRef := do
  match ← settle r ((← Script.surroundings).rounds + 1) value with
  | .resource n => return n
  | other => Script.newResource other

/-- The key that a parameter spells: a variable by its name, a function by its name, other
resources by their data. A bound limits the number of steps. -/
def keyWithin (r : Runner) : (bound : Nat) → Value → Task Value
  | 0, _ => throw .exhausted
  | bound + 1, value => do
    match value with
    | .null => return .text ""
    | .text s => return .text s
    | .resource n =>
      match (← Script.resource n).uri with
      | none => return .null
      | some uri =>
        if Location.place uri = .variable then return .text uri
        else keyWithin r bound (← Script.getData n)
    | .call f params => do keyWithin r bound (← r.perform f params)
    | .function f => return .text f.name
    | other => return .text (← Script.textOf other)

/-- The depth to which looking for a key nests: each step is a call within the one before. -/
def keySteps : Nat := 1000

/-- The key that a parameter spells. -/
def key (r : Runner) (value : Value) : Task Value :=
  keyWithin r keySteps value

/-- The truth value of a parameter. -/
def truth (r : Runner) (value : Value) : Task Bool := do
  Script.ofExcept (← Script.view (← r.execute value)).truth

/-- The order of two parameters. -/
def order (r : Runner) (a b : Value) : Task Ordering := do
  let x ← r.execute a
  let y ← r.execute b
  Script.ofExcept ((← Script.view x).order (← Script.view y))

/-! ### Resources -/

/-- Puts the value of the second parameter into the resource of the first. -/
def put (r : Runner) (params : List Value) : Task Value := do
  let n ← resourceOf r (parameter params 0)
  discard (Script.putData r.execute n (← r.execute (parameter params 1)))
  return .resource n

/-- Posts the values of the other parameters to the resource of the first. -/
def post (r : Runner) (params : List Value) : Task Value := do
  let n ← resourceOf r (parameter params 0)
  (params.drop 1).foldlM (fun _ value => do
    Script.postData r.execute n (← r.execute value)) .null

/-! ### Constructors -/

/-- The moment that the parameters describe; the present one without parameters. -/
def date (r : Runner) (params : List Value) : Task Value := do
  let now := (← Script.surroundings).now
  let data ← (← params.mapM r.execute).mapM Script.view
  let moment ← match data with
    | [] => pure (some now)
    | [value] => Script.ofExcept (value.toMoment now)
    | values => Script.ofExcept ((Data.list values).toMoment now)
  return (moment.map fun m => Value.atom (.moment m)).getD .null

/-- The map of keys and values in turn. -/
def mapOfPairs (r : Runner) (entries : List (Value × Value)) : List Value → Task Value
  | [] => Script.newMap entries
  | [name] => do
    let name ← key r name
    Script.newMap (putEntry (← Script.store).same name .null entries)
  | name :: value :: rest => do
    let name ← key r name
    let value ← r.execute value
    mapOfPairs r (putEntry (← Script.store).same name value entries) rest

/-- A new map: a copy of the map that a single parameter counts as, or the map of keys and values in
turn. -/
def map (r : Runner) (params : List Value) : Task Value := do
  match params with
  | [single] => do Script.newMap (← Script.entriesOf (← r.execute single))
  | params => mapOfPairs r [] params

/-! ### Sums -/

/-- The first value of a sum: tuples and sets become lists. -/
def sumStart (value : Value) : Task Value := do
  match (← Script.store).kindOf value with
  | .tuple | .set | .url => Script.newList (← Script.itemsOf value)
  | _ => return value

/-- A sum with one more value. What was there decides: null gives way, truth values are combined,
numbers are added, texts are joined, and all else is joined as lists. -/
def sumStep (sum value : Value) : Task Value := do
  match sum with
  | .null => sumStart value
  | .bool b => do
    if b then return .bool (← Script.ofExcept (← Script.view value).truth) else return .bool false
  | .text s => do return .text (s ++ (← Script.textOf value))
  | .int n => do
    let m ← Script.ofExcept (← Script.view value).toNumber
    return .ofNumber (← Script.ofExcept ((Number.int n).add m))
  | .real x => do
    let m ← Script.ofExcept (← Script.view value).toNumber
    return .ofNumber (← Script.ofExcept ((Number.real x).add m))
  | _ => do
    let items ← Script.itemsOf sum
    Script.newList (items ++ (← Script.itemsOf value))

/-- The sum of the parameters. -/
def add (r : Runner) (params : List Value) : Task Value :=
  params.foldlM (fun sum param => do sumStep sum (← r.execute param)) .null

/-! ### Relations and states -/

/-- Follows the keys of all parameters but the last, from the last to the first, from the value of
the last. -/
def of (r : Runner) (params : List Value) : Task Value := do
  match params.getLast? with
  | none => return .null
  | some last =>
    params.dropLast.reverse.foldlM (fun value name => do
      Script.getValue value (← key r name)) (← r.execute last)

/-- The kinds that the names of constructors stand for in the test `is`. -/
def kindsOf : Builtin → Option (List Kind)
  | .string => some [.text]
  | .number => some [.int, .real]
  | .real => some [.real]
  | .integer => some [.int]
  | .boolean => some [.bool]
  | .date => some [.moment]
  | .list => some [.list]
  | .set => some [.set]
  | .map => some [.map, .page, .scope]
  | .uri => some [.resource]
  | _ => none

/-- A state that is a bare function stands for that function. -/
def bareFunction? : Value → Option Function
  | .function f => some f
  | .call (some f) [] => some f
  | _ => none

/-- Whether a value is in a state that is no kind: a truth value is compared with the truth of the
value, all else for equality. -/
def isState (r : Runner) (subject state : Value) : Task Bool := do
  match ← r.execute state with
  | .bool expected => return (← Script.ofExcept (← Script.view subject).truth) == expected
  | expected => do
    let o ← Script.ofExcept ((← Script.view subject).order (← Script.view expected))
    return o == .eq

/-- Whether a value is of the kind that a function makes, or in a state. -/
def is (r : Runner) (params : List Value) : Task Bool := do
  let subject ← r.execute (parameter params 0)
  let state := parameter params 1
  let found := (← Script.store).kindOf subject
  match bareFunction? state with
  | none => isState r subject state
  | some f =>
    match f.action with
    | .construct info => return found == .host info
    | .builtin b =>
      match kindsOf b with
      | some kinds => return kinds.contains found
      | none => isState r subject (.function f)
    | _ => isState r subject (.function f)

/-! ### Commands -/

/-- Writes the texts of the parameters as a line. -/
def print (r : Runner) (params : List Value) : Task Value := do
  let texts ← params.mapM fun param => do Script.textOf (← r.execute param)
  let text := String.join texts
  Script.writeLine text
  return .text text

/-- Runs the parameters one after the other; a text is compiled first. -/
def eval (r : Runner) (params : List Value) : Task Value :=
  params.foldlM (fun _ param => do
    match param with
    | .text source => do r.execute (← Script.compile source)
    | other => r.execute other) .null

/-- Calls a member of the value of the first parameter. -/
def member (r : Runner) (params : List Value) : Task Value := do
  let subject ← r.execute (parameter params 0)
  let name ← key r (parameter params 1)
  let arguments ← (params.drop 2).mapM r.execute
  match name with
  | .text name => do r.execute (← Script.callMember r.execute subject name arguments)
  | _ => Script.fail .type

/-- Runs a shell command and answers its status. -/
def shell (r : Runner) (params : List Value) : Task Value := do
  let texts ← params.mapM fun param => do Script.textOf (← r.execute param)
  let command := " ".intercalate texts
  if (← Script.surroundings).debug then
    Script.writeError ("[DBG] SHELL " ++ command ++ "\n")
  let (files, status) := (← Script.files).shell command
  Script.setFiles files
  return .int status

/-- Leaves the program. -/
def exit (r : Runner) (params : List Value) : Task Value := do
  match parameter params 0 with
  | .null => throw (.exit 0)
  | value => do
    let status ← Script.ofExcept (← Script.view (← r.execute value)).toInt
    throw (.exit status)

/-! ### Blocs -/

/-- Whether a parameter of a bloc is one of its lines. -/
def isLine : Value → Bool
  | .call .. => true
  | _ => false

/-- The header of a bloc and its lines, as they stand among its parameters. -/
def splitBloc (params : List Value) : List Value × List Value :=
  (params.filter fun p => !isLine p, params.filter isLine)

/-- Runs the lines of a bloc; the answer is that of the last, or the one before when there are
none. -/
def runLines (r : Runner) (lines : List Value) (before : Value) : Task Value :=
  lines.foldlM (fun _ line => r.execute line) before

/-- Runs the lines of a bloc for each item of a list, from a position on, as long as the list has
items. -/
def eachFrom (r : Runner) (n : Nat) (target : ResourceRef) (lines : List Value) :
    (rounds position : Nat) → Value → Task Value
  | 0, _, _ => Script.fail .unfinished
  | rounds + 1, position, result => do
    match ← Script.cell n with
    | .list items =>
      match items[position]? with
      | none => return result
      | some item => do
        discard (Script.putData r.execute target item)
        eachFrom r n target lines rounds (position + 1) (← runLines r lines result)
    | _ => return result

/-- The resource of the variable of a loop: that of a word, or one made by a key. -/
def loopVariable (r : Runner) : Value → Task ResourceRef
  | .resource n => return n
  | name => do Script.newResource (← key r name)

/-- Runs the lines for each item of a collection, which is put into a variable. A list can be gone
through whatever its length: its own items do not count as rounds. -/
def each (r : Runner) (params : List Value) : Task Value := do
  let header := (splitBloc params).1
  let lines := (splitBloc params).2
  match header.getLast? with
  | none => Script.fail (.dispatch .eachWithoutVariable)
  | some name => do
    let target ← loopVariable r name
    let list ← Script.toList (← r.execute (Call.ofTokens header.dropLast))
    let items ← Script.itemsOf list
    match list with
    | .cell n => do
      let rounds := (← Script.surroundings).rounds
      eachFrom r n target lines (items.length + rounds + 1) 0 .null
    | _ => return .null

/-- Runs the lines as long as a condition holds. -/
def whileFrom (r : Runner) (condition : Value) (lines : List Value) :
    (rounds : Nat) → Value → Task Value
  | 0, _ => Script.fail .unfinished
  | rounds + 1, result => do
    if ← truth r condition then
      whileFrom r condition lines rounds (← runLines r lines result)
    else return result

/-- Runs the lines as long as the condition of the header holds. -/
def repeatWhile (r : Runner) (params : List Value) : Task Value := do
  let rounds := (← Script.surroundings).rounds
  whileFrom r (Call.ofTokens (splitBloc params).1) (splitBloc params).2 (rounds + 1) .null

/-! ### All functions -/

/-- The greatest number of parameters of a function; `none` when it takes any number. -/
def most : Builtin → Option Nat
  | .get | .delete | .uri | .string | .number | .real | .integer | .boolean | .not | .exit => some 1
  | .put | .equal | .less | .more | .and | .or | .is | .has => some 2
  | _ => none

/-- Runs a built-in function on its parameters. -/
def runBuiltin (r : Runner) (which : Builtin) (params : List Value) : Task Value := do
  if let some count := most which then
    if count < params.length then Script.fail .type
  let first := parameter params 0
  let second := parameter params 1
  match which with
  | .get | .uri => do return .resource (← resourceOf r first)
  | .put => put r params
  | .post => post r params
  | .delete => do return .bool (← Script.deleteData (← resourceOf r first))
  | .string => do
    match first with
    | .null => return .text ""
    | value => do return .text (← Script.textOf (← r.execute value))
  | .number => do
    return .ofNumber (← Script.ofExcept (← Script.view (← r.execute first)).toNumber)
  | .real => do return .real (← Script.ofExcept (← Script.view (← r.execute first)).toReal)
  | .integer => do return .int (← Script.ofExcept (← Script.view (← r.execute first)).toInt)
  | .boolean => do return .bool (← truth r first)
  | .date => date r params
  | .list => do Script.newList (← params.mapM r.execute)
  | .set => do Script.setOf .list (← params.mapM r.execute)
  | .map => map r params
  | .add => add r params
  | .equal => do return .bool ((← order r first second) == .eq)
  | .less => do return .bool ((← order r first second) == .lt)
  | .more => do return .bool ((← order r first second) == .gt)
  | .of => of r params
  | .and => do if ← truth r first then return .bool (← truth r second) else return .bool false
  | .or => do if ← truth r first then return .bool true else return .bool (← truth r second)
  | .not => do return .bool (!(← truth r first))
  | .is => do return .bool (← is r params)
  | .has => do
    let container ← r.execute first
    return .bool (!(← Script.getValue container (← key r second)).isNull)
  | .print => print r params
  | .eval => eval r params
  | .member => member r params
  | .shell => shell r params
  | .exit => exit r params
  | .each => each r params
  | .while => repeatWhile r params
  | .endBloc => Script.fail (.dispatch .strayEnd)

/-- Runs a function on its parameters. -/
def runFunction (r : Runner) (f : Function) (params : List Value) : Task Value := do
  match f.action with
  | .builtin which => runBuiltin r which params
  | .construct info =>
    match ← Script.classOf? info with
    | none => Script.fail .type
    | some c => do
      let arguments ← params.mapM r.execute
      let overloads := c.constructors.map (Overload.ofMethod .null)
      (← Overload.select info.name overloads arguments).call r.execute arguments
  | .static info name =>
    match ← Script.staticMembers info name with
    | o :: _ => do o.call r.execute (← params.mapM r.execute)
    | [] => Script.fail .type
  | .tally => return .text (f.name ++ ":" ++ toString params.length)

/-- Runs a call without a function: nothing without parameters, the value of a single one, or the
list of their values. -/
def runPlain (r : Runner) (params : List Value) : Task Value := do
  let value := fun (param : Value) => match param with
    | .call f inner => r.perform f inner
    | other => pure other
  match params with
  | [] => return .null
  | [single] => value single
  | several => do Script.newList (← several.mapM value)

/-- Runs a call. -/
def perform (r : Runner) (f : Option Function) (params : List Value) : Task Value :=
  match f with
  | some f => runFunction r f params
  | none => runPlain r params

/-- Runs a value until it is plain: calls are run, resources are fetched, and paths become
resources. -/
def execute (r : Runner) (value : Value) : Task Value := do
  match value with
  | .call f params => do r.execute (← perform r f params)
  | .resource n => do r.execute (← Script.getData n)
  | .atom (.path path) => do r.execute (.resource (← Script.newResource (.atom (.path path))))
  | other => return other

end Library

namespace Runner

/-- The runner of scripts: what functions run is ordered from the world. -/
def standard : Runner :=
  ⟨fun value => Task.job (.execute value), fun f params => Task.job (.perform f params)⟩

end Runner

namespace Job

/-- The task that a job is. -/
def task : Job → Task Value
  | execute value => Library.execute .standard value
  | perform f params => Library.perform .standard f params

/-- Does a job, within which jobs may nest to a depth. -/
def run : (depth : Nat) → Job → Script Value
  | 0, _ => throw .exhausted
  | depth + 1, job => job.task.run (run depth)

/-- The depth to which jobs may nest. -/
def maxDepth : Nat := 245

end Job

namespace Task

/-- Runs a task within which jobs may nest to a depth. -/
def runAt {α : Type} (depth : Nat) (x : Task α) : Script α :=
  x.run (Job.run depth)

instance : MonadLift Task Script where
  monadLift := runAt Job.maxDepth

/-- A family of tasks is also a family of scripts. -/
instance {α β : Type} : Coe (α → Task β) (α → Script β) where
  coe tasks := fun a => (tasks a).runAt Job.maxDepth

end Task

namespace Script

/-- Runs a value until it is plain. -/
def execute (value : Value) : Task Value :=
  Runner.standard.execute value

end Script

end ResourceScript
