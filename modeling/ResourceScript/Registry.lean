import ResourceScript.World
/-!
# The registry of functions

Functions are found by name. The first registration of a name holds. A name of the form
`module.Class` or `module.Class#member` that is not registered is looked for among the classes of
the host, and what is found is registered under that name.
-/

set_option autoImplicit false

namespace ResourceScript

open Text

namespace Builtin

/-- The registry of the built-in functions, each under its name and its aliases. -/
def registry : List (String × Function) :=
  table.flatMap fun row =>
    (row.2.1, function row) :: row.2.2.2.2.map fun name => (name, function row)

end Builtin

namespace Registry

/-- Whether a text is a name: a letter or low line and then word characters. -/
def isName : List Char → Bool
  | [] => false
  | c :: rest => (isAsciiLetter c || c == '_') && rest.all isWordChar

/-- The module, class and member of a qualified name. -/
def qualifiedName? (name : String) : Option (String × String × Option String) :=
  let (path, member) : List Char × Option (List Char) :=
    match cutAt '#' name.toList with
    | some (path, member) => (path, some member)
    | none => (name.toList, none)
  let parts := splitOn '.' path
  if 2 ≤ parts.length && parts.all isName && (member.map isName).getD true then
    some (String.ofList (joinWith ['.'] parts.dropLast), String.ofList (parts.getLast?.getD []),
      member.map String.ofList)
  else none

/-- The function of the host that a qualified name denotes. -/
def hostFunction? (classes : List HostClass) (name : String) : Option Function := do
  let (module, className, member) ← qualifiedName? name
  let found ← classes.find? fun c =>
    c.info.module == module && c.info.name == className && c.info.access == .exposed
  match member with
  | none => some (found.constructor name)
  | some member => found.static? name member

/-- A registry that has looked for a name: a function of the host is registered when it is first
found. -/
def seek (classes : List HostClass) (registry : List (String × Function)) (name : String) :
    List (String × Function) :=
  match registry.lookup name, hostFunction? classes name with
  | none, some f => registry ++ [(name, f)]
  | _, _ => registry

end Registry

/-- The name that a class is registered under: the given one, unless it is empty, or else its own in
lower case. -/
def HostClass.registeredName (c : HostClass) (name : Option String) : String :=
  match name with
  | none | some "" => String.ofList (lower c.info.name.toList)
  | some name => name

namespace World

/-- The function of a name: the registered one, or else one of the host. -/
def find (w : World) (name : String) : Option Function :=
  (w.registry.lookup name).or (Registry.hostFunction? w.classes name)

end World

namespace Script

/-- Registers a function under a name; refused when the name is taken. -/
def register (name : String) (f : Function) : Script Bool := do
  let w ← get
  if (w.registry.lookup name).isSome then return false
  set { w with registry := w.registry ++ [(name, f)] }
  return true

/-- The function of a name. -/
def findFunction (name : String) : Script (Option Function) := do
  let w ← get
  set { w with registry := Registry.seek w.classes w.registry name }
  return w.find name

/-- Registers the constructor of a host class; refused when the name is taken. -/
def registerClass (c : HostClass) (name : Option String) : Script (Option Function) := do
  let f := c.constructor (c.registeredName name)
  return if ← register f.name f then some f else none

/-- A world without files in which only the built-in functions are known. -/
def builtinWorld : World where
  store := (Store.empty.addScope ⟨none, [], [], []⟩).1
  registry := Builtin.registry
  classes := []
  current := none
  files := ⟨[], [], []⟩
  replies := []
  requests := []
  output := []
  errors := []
  warnings := []
  debug := false
  now := Moment.epoch

end Script

end ResourceScript
