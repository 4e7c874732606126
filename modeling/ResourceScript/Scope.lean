import ResourceScript.Script
/-!
# Scopes

A scope binds keys to values, by constants and by variables, and looks up the rest in its parent.
-/

set_option autoImplicit false

namespace ResourceScript

namespace Store

/-- The value of the innermost binding of a key seen from a scope. -/
def lookup (s : Store) (n : Nat) (key : Value) : Option Value :=
  findEntry s.same key (s.bindings n)

/-- Whether a scope itself binds a key. -/
def binds (s : Store) (n : Nat) (key : Value) : Bool :=
  (findEntry s.same key (s.scope n).constants).isSome ||
    (findEntry s.same key (s.scope n).changeable).isSome

/-- The number of scopes that are passed on the way outward to one that binds a key. -/
def passed (s : Store) (n : Nat) (key : Value) : Nat :=
  ((s.chain n).takeWhile fun m => !s.binds m key).length

/-- The outermost scope around a scope. -/
def root (s : Store) (n : Nat) : Nat :=
  (s.chain n).getLast?.getD n

/-- Whether the innermost binding of a key is a constant. -/
def isConstant (s : Store) (n : Nat) (key : Value) : Bool :=
  ((s.chain n).findSome? fun m =>
    if (findEntry s.same key (s.scope m).constants).isSome then some true
    else if (findEntry s.same key (s.scope m).changeable).isSome then some false
    else none).getD false

/-- Binds a variable of a scope and answers the value that it had. A constant of the scope under
the same key wins and is answered unchanged. -/
def bind (s : Store) (n : Nat) (key value : Value) : Store × Value :=
  let scope := s.scope n
  match findEntry s.same key scope.constants with
  | some constant => (s, constant)
  | none =>
    (s.setScope n { scope with changeable := putEntry s.same key value scope.changeable },
      (findEntry s.same key scope.changeable).getD .null)

/-- Drops a variable of a scope and answers its value; `none` when the scope has no such variable
of its own. -/
def unbind? (s : Store) (n : Nat) (key : Value) : Option (Store × Value) :=
  let scope := s.scope n
  (findEntry s.same key scope.changeable).map fun value =>
    (s.setScope n { scope with changeable := dropEntry s.same key scope.changeable }, value)

end Store

namespace Data

mutual

/-- The kind of the part that keeps data from being a key: containers that can change, calls and
scopes. -/
def unhashable? : Data → Option Kind
  | list _ => some .list
  | map _ => some .map
  | page .. => some .page
  | set _ => some .set
  | side .values _ => none
  | side which _ => some (.side which)
  | buffer _ => some .buffer
  | call .. => some .expression
  | scope _ => some .scope
  | cycle => some .list
  | tuple items => unhashableItem? items
  | object info fields =>
    match info.access with
    | .record => some (.host info)
    | .frozenRecord => unhashableField? fields
    | _ => none
  | _ => none

/-- The kind of the first part of items that cannot be a key. -/
def unhashableItem? : List Data → Option Kind
  | [] => none
  | item :: rest =>
    match unhashable? item with
    | some k => some k
    | none => unhashableItem? rest

/-- The kind of the first part of fields that cannot be a key. -/
def unhashableField? : List (String × Data) → Option Kind
  | [] => none
  | (_, value) :: rest =>
    match unhashable? value with
    | some k => some k
    | none => unhashableField? rest

end

end Data

namespace Script

/-- Refuses a value that cannot be a key. -/
def requireKey (key : Value) : Task Unit := do
  if ((← view key).unhashable?).isSome then fail .type

/-- Adds a scope. -/
def newScope (scope : Scope) : Task Nat := do
  let (store, n) := (← store).addScope scope
  setStore store
  return n

/-- The scope in use; an empty one is made and used when there is none. -/
def currentScope : Task Nat :=
  Task.query .scope

/-- Binds a variable of a scope. -/
def bind (n : Nat) (key value : Value) : Task Value := do
  requireKey key
  let (store, previous) := (← store).bind n key value
  setStore store
  return previous

end Script

end ResourceScript
