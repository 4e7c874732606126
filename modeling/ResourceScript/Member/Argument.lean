import ResourceScript.Overload
/-!
# Arguments of built-in members

The members of built-in kinds take their arguments as they are and refuse arguments of the wrong
kind. Some of them declare how many arguments they take, others refuse a wrong number themselves.
A member of the interpreter that is not spelled out is given what its arguments show
(`Member.ofNative`).
-/

set_option autoImplicit false

namespace ResourceScript.Member

/-- A parameter that is taken as it is. -/
def parameter (required : Bool) : HostParameter :=
  ⟨none, required⟩

/-- A member that declares the least and the greatest number of its arguments. -/
def declared (least most : Nat) (run : List Value → Task Value) : Overload :=
  ⟨some (List.replicate least (parameter true) ++ List.replicate (most - least) (parameter false)),
    run⟩

/-- A member that checks the number of its arguments itself. -/
def checked (least most : Nat) (run : List Value → Task Value) : Overload :=
  ⟨none, fun arguments =>
    if least ≤ arguments.length && arguments.length ≤ most then run arguments
    else Script.fail .type⟩

/-- A member without arguments. -/
def plain (value : Task Value) : Overload :=
  declared 0 0 fun _ => value

/-- The argument at a position, null when it is missing. -/
def argument (arguments : List Value) (position : Nat) : Value :=
  (arguments[position]?).getD .null

/-- An argument that has to be a text. -/
def text : Value → Task (List Char)
  | .text s => return s.toList
  | _ => Script.fail .type

/-- An argument that has to be an integer. -/
def integer : Value → Task Int
  | .int n => return n
  | .bool b => return if b then 1 else 0
  | _ => Script.fail .type

/-- An argument that has to be an integer of 64 bits. -/
def size (value : Value) : Task Int := do
  let n ← integer value
  if n < -9223372036854775808 || 9223372036854775807 < n then Script.fail .overflow
  return n

/-- An argument that has to be an integer of 32 bits. -/
def shortSize (value : Value) : Task Int := do
  let n ← integer value
  if n < -2147483648 || 2147483647 < n then Script.fail .overflow
  return n

/-- An argument that has to be a text of one character. -/
def oneChar (value : Value) : Task Char := do
  match ← text value with
  | [c] => return c
  | _ => Script.fail .type

/-- An argument that may be missing. -/
def optional {α : Type} (read : Value → Task α) (arguments : List Value) (position : Nat) :
    Task (Option α) := do
  match arguments[position]? with
  | none => return none
  | some value => return some (← read value)

/-- An argument that may be null or missing. -/
def nullable {α : Type} (read : Value → Task α) (arguments : List Value) (position : Nat) :
    Task (Option α) := do
  match arguments[position]? with
  | none | some .null => return none
  | some value => return some (← read value)

/-- A text as a value. -/
def ofText (chars : List Char) : Value :=
  .text (String.ofList chars)

/-- A position counted from the end when it is negative, within a length. -/
def clamp (length : Nat) (position : Int) : Nat :=
  let fromStart := if position < 0 then position + length else position
  min fromStart.toNat length

/-- Stops because a map or set does not have a key. The message is the literal form of the key, if it
has one. -/
def missingKey {α : Type} (key : Value) : Task α := do
  match (← Script.view key).literal with
  | .ok _ => Script.fail .key
  | .error cause => Script.fail (.unspokenKey cause)

/-- The items that a value yields one after the other. -/
def iterated (value : Value) : Task (List Value) := do
  let s ← Script.store
  match s.elements? value, s.entries? value with
  | some items, _ => return items
  | none, some entries => return entries.map Prod.fst
  | none, none => Script.fail .type

/-- The overload of a member of the interpreter: its answer is made anew. -/
def ofNative (self : Atom) (m : NativeMember) : Overload :=
  let run := fun arguments => do
    let held ← Script.held
    let s ← Script.store
    let shown := held.map fun field => (field.1, s.view field.2)
    Script.ofData (← Script.ofExcept (m.answer shown self (arguments.map s.view)))
  match m.counts with
  | some (least, most) => declared least most run
  | none => ⟨none, run⟩

end ResourceScript.Member
