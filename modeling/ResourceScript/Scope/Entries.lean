import ResourceScript.Scope
import ResourceScript.Data.Display
/-!
# Scopes as maps

The operations of a map on a scope: reading sees the bindings of the scopes around it, changes are
made to the variables of the scope itself. A key that cannot be a key is refused.

A key is looked for in one scope after the other, and each of them asks the one around it. So a scope
that is too far out is not reached, though it is listed: listing goes from scope to scope by itself.
-/

set_option autoImplicit false

namespace ResourceScript

namespace Script

/-- Goes outward from a scope to one that binds a key. Each scope that is passed takes a frame of the
interpreter. -/
def reach (n : Nat) (key : Value) : Task Unit := do
  if Data.freeFrames < (← store).passed n key then fail .recursion

/-- The value of a key, if it is bound. -/
def binding? (n : Nat) (key : Value) : Task (Option Value) := do
  requireKey key
  reach n key
  return (← store).lookup n key

/-- The value of a key that has to be bound. -/
def binding (n : Nat) (key : Value) : Task Value := do
  match ← binding? n key with
  | some value => return value
  | none => fail .key

/-- Whether the innermost binding of a key is a constant. -/
def isConstant (n : Nat) (key : Value) : Task Bool := do
  requireKey key
  reach n key
  return (← store).isConstant n key

/-- The number of bindings in view. -/
def bindingCount (n : Nat) : Task Nat := do
  return ((← store).visible n).length

/-- Drops a variable of a scope and answers its value, if there was one. -/
def unbind? (n : Nat) (key : Value) : Task (Option Value) := do
  requireKey key
  match (← store).unbind? n key with
  | some (s, value) => do
    setStore s
    return some value
  | none => return none

/-- Drops a variable that the scope has to have. -/
def unbind (n : Nat) (key : Value) : Task Value := do
  match ← unbind? n key with
  | some value => return value
  | none => fail .key

/-- Takes a binding out of a scope: its value is answered, and the variable is dropped. A key that
is not bound answers the given value. -/
def takeBinding (n : Nat) (key : Value) (missing : Option Value) : Task Value := do
  match ← binding? n key, missing with
  | some value, _ => do
    discard (unbind n key)
    return value
  | none, some value => return value
  | none, none => fail .key

/-- The value of a key; one that is not bound is bound first. -/
def bindMissing (n : Nat) (key value : Value) : Task Value := do
  match ← binding? n key with
  | some bound => return bound
  | none => do
    discard (bind n key value)
    return value

/-- Binds the entries of a map. -/
def bindAll (n : Nat) (entries : List (Value × Value)) : Task Unit :=
  entries.forM fun (key, value) => discard (bind n key value)

/-- Drops the first variables in view, until one is met that is not of the scope itself; `count`
limits their number. -/
def unbindFirst (n : Nat) : (count : Nat) → Task Unit
  | 0 => return
  | count + 1 => do
    match (← store).visible n with
    | [] => return
    | (key, _) :: _ => do
      reach n key
      if (← unbind? n key).isSome then unbindFirst n count

/-- Empties a scope as far as its first binding in view is a variable of its own. -/
def unbindAll (n : Nat) : Task Unit := do
  unbindFirst n ((← store).scope n).changeable.length

end Script

namespace Store

/-- The display of a scope: the number of scopes around it and its keys. -/
def scopeDisplay (s : Store) (n : Nat) : Except Fault String := do
  let keys := fun (entries : List (Value × Value)) =>
    (Data.list (entries.map fun entry => s.view entry.1)).literal
  return "<Context depth=" ++ toString ((s.chain n).length - 1)
    ++ " constants=" ++ (← keys (s.scope n).constants)
    ++ " variables=" ++ (← keys (s.scope n).changeable) ++ ">"

end Store

end ResourceScript
