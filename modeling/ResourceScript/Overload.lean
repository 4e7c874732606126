import ResourceScript.Answer
import ResourceScript.Resource
/-!
# Conversion and overloads

Values are converted to kinds, and calls of members and constructors choose among overloads: by the
number of arguments, then by their kinds, then in order. The arguments of the chosen overload are
converted to the kinds of its parameters.
-/

set_option autoImplicit false

namespace ResourceScript

open Text

namespace Store

/-- Whether a value is of a kind: truth values are also integers, and pages are also maps. -/
def isA (s : Store) (value : Value) (target : Kind) : Bool :=
  let found := s.kindOf value
  match target with
  | .object | .anything => true
  | .int => found == .int || found == .bool
  | .number => found == .int || found == .bool || found == .real
  | .map => found == .map || found == .page
  | .mapping => found == .map || found == .page || found == .scope
  | .tuple => found == .tuple || found == .url
  | .day => found == .day || found == .moment
  | .kind => found == .kind || found == .abstractKind
  | .function => found == .function || found == .constructor
  | .collection =>
    [.text, .bytes, .buffer, .list, .tuple, .url, .set, .frozenSet, .map, .page, .scope,
      .side .keys, .side .values, .side .items].contains found
  | other => found == other

end Store

namespace Script

/-- The resource that a value counts as: a resource itself, the location that a text denotes, and
for all else a location that holds the value. -/
def toResource (execute : Value → Task Value) (value : Value) : Task Value := do
  match value with
  | .resource _ => return value
  | .null => return .resource (← newResource (.text ResourceRecord.nullLocation))
  | .text s =>
    let n ← newResource (.text s)
    if (← resource n).uri.isSome then return .resource n
    else holding "data:text/plain," value
  | _ => holding ResourceRecord.nullLocation value
where
  /-- A resource made from a location that holds the value. -/
  holding (location : String) (value : Value) : Task Value := do
    let n ← newResource (.text location)
    discard (putData execute n value)
    return .resource n

/-- What a data value becomes as a value of a kind without parts; `none` for kinds that keep
references. -/
def convertData? (data : Data) : Kind → Task (Option Value)
  | .text => do return some (.text (← ofExcept data.toText))
  | .bytes => do return some (.atom (.bytes (← ofExcept data.toBytes)))
  | .int => do return some (.int (← ofExcept data.toInt))
  | .real => do return some (.real (← ofExcept data.toReal))
  | .number => do return some (.ofNumber (← ofExcept data.toNumber))
  | .bool => do return some (.bool (← ofExcept data.truth))
  | .moment => do
    match ← ofExcept (data.toMoment (← surroundings).now) with
    | some m => return some (.atom (.moment m))
    | none => return some .null
  | _ => return none

/-- Converts a value to a kind without constructors; `none` when nothing converts to it. -/
def convertPlain? (execute : Value → Task Value) (value : Value) (target : Kind) :
    Task (Option Value) := do
  match target with
  | .resource => return some (← toResource execute value)
  | .map | .mapping => return some (← toMap value)
  | .list => return some (← toList value)
  | .tuple => return some (.tuple (← itemsOf value))
  | .set => return some (← toSet value)
  | .collection => return some (← toCollection value)
  | _ => convertData? (← view value) target

/-- Refuses to convert a value to a kind. -/
def refuseConversion {α : Type} (value : Value) (target : Kind) : Task α := do
  fail (.conversion (.noConverter ((← store).kindOf value).name target.name))

/-- Whether a failure of a constructor lets the next one be tried. -/
def isRejection : Fault → Bool
  | .type | .value | .conversion _ | .json | .base64 | .encoding | .decoding => true
  | _ => false

/-- Calls a constructor with one value: with nothing when the value is null and nothing is required,
otherwise with the value as its only parameter. The answer is `none` when it takes no single
value. -/
def constructFrom? (execute : Value → Task Value) (m : HostMethod) (value : Value) :
    Task (Option Value) := do
  match m.parameters with
  | none => return none
  | some parameters =>
    if value.isNull && !parameters.any HostParameter.required then
      return some (← answer .null [] m.answer)
    else match parameters with
      | [parameter] =>
        let argument ← match parameter.target with
          | some target =>
            if (← store).isA value target then pure value
            else do pure ((← convertPlain? execute value target).getD value)
          | none => pure value
        return some (← answer .null [argument] m.answer)
      | _ => return none

/-- The object that the first constructor which accepts a value makes of it. -/
def constructFirst (execute : Value → Task Value) (target : Kind) (value : Value) :
    List HostMethod → Task Value
  | [] => refuseConversion value target
  | m :: rest => do
    let made ← tryCatch (constructFrom? execute m value) fun stop =>
      match stop with
      | .fault cause => if isRejection cause then return none else throw stop
      | _ => throw stop
    match made with
    | some object => return object
    | none => constructFirst execute target value rest

/-- Converts a value to a kind. -/
def convert (execute : Value → Task Value) (value : Value) (target : Kind) : Task Value := do
  if (← store).isA value target then return value
  match target with
  | .host info =>
    match ← classOf? info with
    | some c => constructFirst execute target value c.constructors
    | none => refuseConversion value target
  | _ =>
    match ← convertPlain? execute value target with
    | some converted => return converted
    | none => refuseConversion value target

end Script

/-- A way to call a member or constructor: its parameters, unless any number of arguments is taken,
and what it does. -/
structure Overload where
  /-- The parameters; `none` when any number of arguments is taken. -/
  parameters : Option (List HostParameter)
  /-- What a call with converted arguments does. -/
  run : List Value → Task Value

namespace Overload

/-- The overload of a host method of an object. -/
def ofMethod (self : Value) (m : HostMethod) : Overload :=
  ⟨m.parameters, fun arguments => Script.answer self arguments m.answer⟩

/-- Whether a number of arguments fits; any number fits an overload without parameters, but such an
overload comes last. -/
def fits (o : Overload) (count : Nat) : Bool :=
  (o.parameters.map fun parameters => HostMethod.fits parameters count).getD false

/-- Whether the arguments are of the kinds of the parameters; null is of every kind. -/
def accepts (s : Store) (o : Overload) (arguments : List Value) : Bool :=
  ((o.parameters.getD []).zip arguments).all fun (parameter, argument) =>
    match parameter.target with
    | some target => argument.isNull || s.isA argument target
    | none => true

/-- The overload for arguments: of those that their number fits the first that accepts them, else
the first of them, else the first that takes any number. -/
def select? (s : Store) (overloads : List Overload) (arguments : List Value) : Option Overload :=
  let fitting := overloads.filter fun o => o.fits arguments.length
  match fitting.find? fun o => o.accepts s arguments with
  | some o => some o
  | none =>
    match fitting with
    | o :: _ => some o
    | [] => overloads.find? fun o => o.parameters.isNone

/-- Converts arguments to the kinds of parameters. Arguments beyond the parameters stay as they
are. -/
def convertAll (execute : Value → Task Value) :
    List HostParameter → List Value → Task (List Value)
  | parameter :: parameters, argument :: arguments => do
    let converted ← match parameter.target with
      | some target => Script.convert execute argument target
      | none => pure argument
    return converted :: (← convertAll execute parameters arguments)
  | _, arguments => return arguments

/-- Calls an overload. -/
def call (execute : Value → Task Value) (o : Overload) (arguments : List Value) :
    Task Value := do
  match o.parameters with
  | none => o.run arguments
  | some parameters => do
    let arguments ← convertAll execute parameters arguments
    if HostMethod.fits parameters arguments.length then o.run arguments else Script.fail .type

/-- Chooses among overloads of a name. -/
def select (name : String) (overloads : List Overload) (arguments : List Value) :
    Task Overload := do
  match select? (← Script.store) overloads arguments with
  | some o => return o
  | none => Script.fail (.dispatch (.noOverload name arguments.length))

end Overload

end ResourceScript
