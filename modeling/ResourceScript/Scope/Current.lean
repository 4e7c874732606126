import ResourceScript.Library
/-!
# The current scope

At most one scope is current. A child is opened from the current scope and becomes current; closing
it makes its parent current again.
-/

set_option autoImplicit false

namespace ResourceScript

namespace Script

/-- Makes a scope current, or none. -/
def setCurrent (current : Option Nat) : Script Unit :=
  modify fun w => { w with current }

/-- Makes a root scope and makes it current; refused when there is a current scope. -/
def initScope (constants changeable : List (Value × Value)) (arguments : List Value) :
    Script Nat := do
  if (← get).current.isSome then throw (.fault (.scope .alreadyInitialized))
  let n ← newScope ⟨none, constants, changeable, arguments⟩
  setCurrent (some n)
  return n

/-- Refuses an action on a scope that is not current. -/
def requireCurrent (n : Nat) (action : String) : Script Unit := do
  if (← get).current ≠ some n then throw (.fault (.scope (.notCurrent action)))

/-- Opens a child of the current scope and makes it current. Without arguments of its own it has
those of its parent. -/
def openChild (n : Nat) (constants changeable : List (Value × Value))
    (arguments : Option (List Value)) : Script Nat := do
  requireCurrent n "open a child context"
  let child ← newScope
    ⟨some n, constants, changeable, arguments.getD ((← store).scope n).arguments⟩
  setCurrent (some child)
  return child

/-- Closes the current scope: its parent becomes current. -/
def closeScope (n : Nat) : Script Unit := do
  requireCurrent n "close context"
  setCurrent ((← store).scope n).parent

section

variable (n : Nat) (constants changeable : List (Value × Value)) (w : World)

theorem initScope_apply (arguments : List Value) : initScope constants changeable arguments w =
    match w.current with
    | some _ => (.error (.fault (.scope .alreadyInitialized)), w)
    | none => (.ok w.store.scopes.size,
      { w with
        store := (w.store.addScope ⟨none, constants, changeable, arguments⟩).1
        current := some w.store.scopes.size }) := by
  rw [initScope, bind_of_ok (get_apply w)]
  rcases w.current with _ | m <;> rfl

theorem requireCurrent_apply (action : String) : requireCurrent n action w =
    if w.current = some n then (.ok (), w)
    else (.error (.fault (.scope (.notCurrent action))), w) := by
  rw [requireCurrent, bind_of_ok (get_apply w)]
  by_cases hcurrent : w.current = some n
  · rw [if_pos hcurrent, if_neg (not_not_intro hcurrent)]
    rfl
  · rw [if_neg hcurrent, if_pos hcurrent]
    rfl

theorem openChild_apply (arguments : Option (List Value)) :
    openChild n constants changeable arguments w =
      if w.current = some n then
        (.ok w.store.scopes.size,
          { w with
            store := (w.store.addScope ⟨some n, constants, changeable,
              arguments.getD (w.store.scope n).arguments⟩).1
            current := some w.store.scopes.size })
      else (.error (.fault (.scope (.notCurrent "open a child context"))), w) := by
  rw [openChild, bind_apply, requireCurrent_apply]
  by_cases hcurrent : w.current = some n
  · rw [if_pos hcurrent, if_pos hcurrent]
    rfl
  · rw [if_neg hcurrent, if_neg hcurrent]

theorem closeScope_apply : closeScope n w =
    if w.current = some n then (.ok (), { w with current := (w.store.scope n).parent })
    else (.error (.fault (.scope (.notCurrent "close context"))), w) := by
  rw [closeScope, bind_apply, requireCurrent_apply]
  by_cases hcurrent : w.current = some n
  · rw [if_pos hcurrent, if_pos hcurrent]
    rfl
  · rw [if_neg hcurrent, if_neg hcurrent]

end

/-- Runs a script in a scope. Whatever happens inside, the scope that was current before is current
again afterwards. -/
def within {α : Type} (n : Nat) (body : Script α) : Script α := fun w =>
  let (result, after) := body { w with current := some n }
  (result, { after with current := w.current })

end Script

end ResourceScript
