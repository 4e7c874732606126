import ResourceScript.Function
import ResourceScript.Value
/-!
# Host classes

A host gives scripts classes of its own. A class is a record of what it shows: constructors, members
that share a name when they are overloads of one another, and static members. What a method answers
is a term over the fields of the object and the arguments of the call.

Texts, bytes, numbers and dates have the members that the interpreter of the host gives them. Those
that are not spelled out are functions of data (`NativeMember`). Some of them, like the formatting of
a text with fields in it, follow the attributes of their arguments from one thing to the next, and so
get to whatever the modules of the host hold. This is what they are given besides their arguments.
-/

set_option autoImplicit false

namespace ResourceScript

/-- What a method of the host answers. -/
inductive HostTerm where
  /-- A fixed value. -/
  | constant (value : Atom)
  /-- A field of the object. -/
  | field (name : String)
  /-- The argument at a position, or a fixed value when it is missing. -/
  | argument (position : Nat) (missing : Atom)
  /-- The number of arguments. -/
  | count
  /-- All arguments as a list. -/
  | arguments
  /-- A sum, or two texts joined. -/
  | plus (a b : HostTerm)
  /-- A product of numbers. -/
  | times (a b : HostTerm)
  /-- A number as a double. -/
  | double (a : HostTerm)
  /-- The display of a value. -/
  | display (a : HostTerm)
  /-- A value that has to be a text. -/
  | textOnly (a : HostTerm)
  /-- A new object of a class with its fields. -/
  | new (name : String) (fields : List (String × HostTerm))
  deriving Repr, Inhabited

/-- A parameter of a method. -/
structure HostParameter where
  /-- The kind that arguments are converted to; `none` when they are taken as they are. -/
  target : Option Kind
  /-- Whether a call has to give the argument. -/
  required : Bool
  deriving DecidableEq, Repr, Inhabited

/-- A method: its parameters, unless it takes any number of arguments, and its answer. -/
structure HostMethod where
  /-- The parameters; `none` when any number of arguments is taken. -/
  parameters : Option (List HostParameter)
  /-- What the method answers. -/
  answer : HostTerm
  deriving Repr, Inhabited

/-- A host class. -/
structure HostClass where
  /-- The class by name, and what its objects show. -/
  info : ClassInfo
  /-- The constructors. -/
  constructors : List HostMethod
  /-- The members of its objects: overloads under one name. -/
  members : List (String × List HostMethod)
  /-- The static members that scripts may call. -/
  statics : List (String × HostMethod)
  deriving Repr, Inhabited

/-- A member of a native kind that the interpreter has and that is not spelled out. -/
structure NativeMember where
  /-- The least and the greatest number of arguments, unless the member declares none. -/
  counts : Option (Nat × Nat)
  /-- The answer, which is new data: over what the modules of the host hold by name, the value
  itself and the arguments. -/
  answer : (held : List (String × Data)) → (self : Atom) → (arguments : List Data) →
    Except Fault Data

/-- The members of native kinds that are not spelled out, by the kind of the value and their
name. -/
abbrev NativeMembers := Kind → String → Option NativeMember

namespace HostMethod

/-- The number of arguments, unless any number is taken. -/
def arity (m : HostMethod) : Option Nat :=
  m.parameters.map List.length

/-- Whether a number of arguments fits the parameters of a method that has some. -/
def fits (parameters : List HostParameter) (count : Nat) : Bool :=
  (parameters.filter HostParameter.required).length ≤ count && count ≤ parameters.length

end HostMethod

namespace HostClass

/-- The function under which scripts construct objects: its arity is the greatest of those of the
constructors. -/
def constructor (c : HostClass) (name : String) : Function :=
  let arities := c.constructors.map HostMethod.arity
  let arity :=
    if arities.any Option.isNone then none
    else some (arities.foldl (fun most arity => max most (arity.getD 0)) 0)
  ⟨name, .command, arity, .construct c.info⟩

/-- The function of a static member. -/
def static? (c : HostClass) (name member : String) : Option Function :=
  (c.statics.find? fun entry => entry.1 == member).map fun (_, method) =>
    ⟨name, .command, method.arity, .static c.info member⟩

end HostClass

end ResourceScript
