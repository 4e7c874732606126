import ResourceScript.Member.Collection
import ResourceScript.Member.Text
/-!
# Members

The members of a value by name: the overloads that an object of a host class shows, the static
members of a host class, and the members that built-in kinds have. Names that begin with a low line
are hidden.

Members that change something, and those that answer one of the values shared by reference, are all
spelled out. What is left to the interpreter are members of texts, bytes, numbers and dates: their
answers are new data, and they come with the surroundings of a script (`Script.nativeMembers`).
-/

set_option autoImplicit false

namespace ResourceScript

open Text

namespace Member

/-- The number of binary digits of an integer without its sign. -/
def bitLength (n : Int) : Nat :=
  if n = 0 then 0 else Nat.log2 n.natAbs + 1

/-- The members of integers and truth values that are spelled out. -/
def integerMember? (n : Int) (name : String) : Option Overload :=
  match name with
  | "bit_length" => some (plain (pure (.int (bitLength n))))
  | "bit_count" => some (plain (pure (.int ((List.range (bitLength n)).countP n.natAbs.testBit))))
  | "as_integer_ratio" => some (plain (pure (.tuple [.int n, .int 1])))
  | "conjugate" => some (checked 0 0 fun _ => return .int n)
  | _ => none

/-- The members of doubles that are spelled out. -/
def realMember? (x : Double) (name : String) : Option Overload :=
  match name with
  | "is_integer" => some (plain (pure (.bool (x.isFinite && x.isWhole))))
  | "conjugate" => some (plain (pure (.real x)))
  | _ => none

/-- The precision of a name. -/
def precision : List Char → Task TimeOfDay.Precision
  | name =>
    match String.ofList name with
    | "auto" => return .needed
    | "hours" => return .hours
    | "minutes" => return .minutes
    | "seconds" => return .seconds
    | "milliseconds" => return .milliseconds
    | "microseconds" => return .microseconds
    | _ => Script.fail .value

/-- The members of moments that are spelled out. -/
def momentMember? (m : Moment) (name : String) : Option Overload :=
  match name with
  | "isoformat" => some (checked 0 2 fun arguments => do
      let separator ← optional oneChar arguments 0
      let name ← optional text arguments 1
      let precision ← precision (name.getD ['a', 'u', 't', 'o'])
      return ofText (m.textTo (separator.getD 'T') precision))
  | "weekday" => some (checked 0 0 fun _ => return .int m.day.weekday)
  | "isoweekday" => some (checked 0 0 fun _ => return .int (m.day.weekday + 1))
  | "date" => some (checked 0 0 fun _ => return .atom (.day m.day))
  | "time" => some (checked 0 0 fun _ => return .atom (.time m.time))
  | _ => none

/-- The members of days that are spelled out. -/
def dayMember? (d : Day) (name : String) : Option Overload :=
  match name with
  | "isoformat" => some (checked 0 0 fun _ => return ofText d.text)
  | "weekday" => some (checked 0 0 fun _ => return .int d.weekday)
  | "isoweekday" => some (checked 0 0 fun _ => return .int (d.weekday + 1))
  | _ => none

/-- The members of a value without parts that are spelled out. -/
def atomMember? (a : Atom) (name : String) : Option Overload :=
  match a with
  | .bool b => integerMember? (if b then 1 else 0) name
  | .int n => integerMember? n name
  | .real x => realMember? x name
  | .text s => textMember? s.toList name
  | .bytes data => bytesMember? data name
  | .moment m => momentMember? m name
  | .day d => dayMember? d name
  | .url u => tupleMember? (u.parts.map .text) name
  | _ => none

/-- The members of what the cell at a place holds, host objects apart. -/
def cellMember? (n : Nat) (content : Cell) (name : String) : Option Overload :=
  match content with
  | .list _ => listMember? n name
  | .map _ => mapMember? n name
  | .page .. => mapMember? n name
  | .set _ => setMember? n name
  | _ => none

end Member

namespace Script

/-- The overloads of a member of a host object. -/
def hostMembers (self : Value) (info : ClassInfo) (name : String) : Task (List Overload) := do
  if info.access ≠ .exposed then return []
  match ← classOf? info with
  | some c => return ((c.members.lookup name).getD []).map (Overload.ofMethod self)
  | none => return []

/-- The static member of a host class. -/
def staticMembers (info : ClassInfo) (name : String) : Task (List Overload) := do
  match ← classOf? info with
  | some c => return ((c.statics.lookup name).map (Overload.ofMethod .null)).toList
  | none => return []

/-- The overload of a member of an atom that is left to the interpreter. -/
def nativeMembers (a : Atom) (name : String) : Task (List Overload) := do
  if a.kindOf.isNative then
    return (((← surroundings).natives a.kindOf name).map (Member.ofNative a)).toList
  else return []

/-- The overloads of a member of a value. -/
def members (target : Value) (name : String) : Task (List Overload) := do
  if name.toList.head? = some '_' then return []
  match target with
  | .atom (.kind (.host info)) => staticMembers info name
  | .atom a =>
    match Member.atomMember? a name with
    | some o => return [o]
    | none => nativeMembers a name
  | .tuple items => return (Member.tupleMember? items name).toList
  | .frozen items => return (Member.frozenMember? items name).toList
  | .cell n =>
    match ← cell n with
    | .object info _ => hostMembers target info name
    | content => return (Member.cellMember? n content name).toList
  | _ => return []

/-- Calls a member of a value: the arguments are executed to choose the overload, and again for the
call. -/
def callMember (execute : Value → Task Value) (target : Value) (name : String)
    (arguments : List Value) : Task Value := do
  let overloads ← members target name
  if overloads.isEmpty then
    fail (.dispatch (.noMember ((← store).kindOf target).name name))
  let chosen ← Overload.select name overloads (← arguments.mapM execute)
  chosen.call execute (← arguments.mapM execute)

end Script

end ResourceScript
