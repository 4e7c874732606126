import ResourceScript.Access
/-!
# What host methods answer

The terms that describe the methods of host classes are evaluated over the object and the arguments
of a call.
-/

set_option autoImplicit false

namespace ResourceScript

namespace Value

/-- The number that a value counts as in arithmetic; texts are none. -/
def number? : Value → Option Number
  | .atom a => a.number?
  | _ => none

end Value

namespace Script

/-- The class of a name. -/
def classNamed? (name : String) : Task (Option HostClass) := do
  return (← surroundings).classes.find? fun c => c.info.name == name

/-- The class of its description. -/
def classOf? (info : ClassInfo) : Task (Option HostClass) := do
  return (← surroundings).classes.find? fun c => c.info == info

/-- The sum of numbers, or texts or lists joined. -/
def plus (a b : Value) : Task Value := do
  match a.number?, b.number? with
  | some x, some y => return .ofNumber (← ofExcept (x.add y))
  | _, _ =>
    match a, b with
    | .text s, .text t => return .text (s ++ t)
    | .cell n, .cell m =>
      match ← cell n, ← cell m with
      | .list items, .list others => newList (items ++ others)
      | _, _ => fail .type
    | _, _ => fail .type

/-- The product of two numbers. -/
def times (a b : Value) : Task Value := do
  match a.number?, b.number? with
  | some (.int n), some (.int m) => return .int (n * m)
  | some x, some y => do
    return .real (Double.mul (← ofExcept x.toDouble) (← ofExcept y.toDouble))
  | _, _ => fail .type

/-- A number, or a text that spells one, as a double. -/
def double (a : Value) : Task Value := do
  match a.number?, a with
  | some x, _ => return .real (← ofExcept x.toDouble)
  | none, .text s =>
    match Numeral.freeReal? s.toList with
    | some x => return .real x
    | none => fail .value
  | none, _ => fail .type

/-- A field of an object. -/
def fieldOf (self : Value) (name : String) : Task Value := do
  match self with
  | .cell n =>
    match ← cell n with
    | .object _ fields =>
      match fields.lookup name with
      | some value => return value
      | none => fail .noAttribute
    | _ => fail .noAttribute
  | _ => fail .noAttribute

mutual

/-- The value of a term over an object and arguments. -/
def answer (self : Value) (arguments : List Value) : HostTerm → Task Value
  | .constant value => return .atom value
  | .field name => fieldOf self name
  | .argument position missing => return (arguments[position]?).getD (.atom missing)
  | .count => return .int arguments.length
  | .arguments => newList arguments
  | .plus a b => do
    let x ← answer self arguments a
    plus x (← answer self arguments b)
  | .times a b => do
    let x ← answer self arguments a
    times x (← answer self arguments b)
  | .double a => do double (← answer self arguments a)
  | .display a => do
    return .text (← ofExcept (← view (← answer self arguments a)).display)
  | .textOnly a => do
    match ← answer self arguments a with
    | .text s => return .text s
    | _ => fail .value
  | .new name fields => do
    match ← classNamed? name with
    | some c => newCell (.object c.info (← answers self arguments fields))
    | none => fail .noAttribute

/-- The values of the fields of a new object. -/
def answers (self : Value) (arguments : List Value) :
    List (String × HostTerm) → Task (List (String × Value))
  | [] => return []
  | (name, term) :: rest => do
    let value ← answer self arguments term
    return (name, value) :: (← answers self arguments rest)

end

end Script

end ResourceScript
