import ResourceScript.Registry
import Mathlib.Data.List.Basic
/-!
# The registry only grows

Functions are registered by the host, for its classes, and by looking for a name, which registers
what is found among the classes of the host. Whatever the order of these calls, the registry is only
ever extended at its end. A name therefore denotes the same entry for good once it has been found,
and a name that is taken is refused. The classes of the host may change between any two calls: what
has been found does not depend on them any more.

## Main statements

* `World.registry_afterCalls`: a history of calls only adds entries at the end of the registry.
* `World.registry_monotone`: what a name denotes stays, calls change at most the binding of their
  own name, and an alias of a built-in function stays the function of its main name.
-/

set_option autoImplicit false

namespace ResourceScript

open Script (register registerClass findFunction)

/-- What is done to the registry. -/
inductive RegistryCall where
  /-- A function is registered under a name. -/
  | register (name : String) (f : Function)
  /-- The constructor of a class is registered, under a name or that of the class. -/
  | registerClass (c : HostClass) (name : Option String)
  /-- A name is looked for. -/
  | find (name : String)
  /-- The host has other classes from now on. -/
  | load (classes : List HostClass)

namespace Builtin

/-- The built-in functions are found under their names and under their aliases. -/
theorem lookup_registry : ∀ row ∈ table, ∀ name ∈ row.2.1 :: row.2.2.2.2,
    registry.lookup name = some (function row) := by
  decide +kernel

end Builtin

namespace World

/-- A world with a further entry at the end of the registry. -/
def entered (w : World) (name : String) (f : Function) : World :=
  { w with registry := w.registry ++ [(name, f)] }

/-- The world after a call. -/
def afterCall (w : World) : RegistryCall → World
  | .register name f => (register name f w).2
  | .registerClass c name => (registerClass c name w).2
  | .find name => (findFunction name w).2
  | .load classes => { w with classes }

/-- The world after one call after the other. -/
def afterCalls (w : World) (calls : List RegistryCall) : World :=
  calls.foldl afterCall w

variable {w : World} {name other : String} {f g : Function}

/-! ### What a new entry changes -/

theorem lookup_entered_self (h : w.registry.lookup name = none) :
    (w.entered name f).registry.lookup name = some f := by
  show (w.registry ++ [(name, f)]).lookup name = some f
  simp [List.lookup_append, h]

theorem lookup_entered_ne (h : other ≠ name) :
    (w.entered name f).registry.lookup other = w.registry.lookup other := by
  have hother : (other == name) = false := beq_false_of_ne h
  show (w.registry ++ [(name, f)]).lookup other = w.registry.lookup other
  simp [List.lookup_append, List.lookup_cons, hother]

/-- The bindings that a registry has are those of every extension of it. -/
theorem lookup_of_isPrefix {shorter longer : List (String × Function)} (h : shorter <+: longer)
    (hlookup : shorter.lookup name = some f) : longer.lookup name = some f := by
  obtain ⟨added, rfl⟩ := h
  simp [List.lookup_append, hlookup]

/-- The entry of a bound name has the same place in every extension of a registry. -/
theorem exists_place {registry : List (String × Function)} (h : registry.lookup name = some f) :
    ∃ place : Nat, ∀ longer, registry <+: longer → longer[place]? = some (name, f) := by
  obtain ⟨front, back, rfl, -⟩ := List.lookup_eq_some_iff.mp h
  refine ⟨front.length, ?_⟩
  rintro _ ⟨added, rfl⟩
  simp

/-! ### What a call does -/

theorem register_of_taken (h : w.registry.lookup name = some g) :
    register name f w = (.ok false, w) := by
  simp only [register, Script.bind_apply, Script.get_apply, h]
  rfl

theorem register_of_free (h : w.registry.lookup name = none) :
    register name f w = (.ok true, w.entered name f) := by
  simp only [register, Script.bind_apply, Script.get_apply, h]
  rfl

theorem registerClass_of_taken {c : HostClass} {given : Option String}
    (h : w.registry.lookup (c.registeredName given) = some g) :
    registerClass c given w = (.ok none, w) := by
  simp only [registerClass, Script.bind_apply, HostClass.constructor, register_of_taken h]
  rfl

theorem registerClass_of_free {c : HostClass} {given : Option String}
    (h : w.registry.lookup (c.registeredName given) = none) :
    registerClass c given w =
      (.ok (some (c.constructor (c.registeredName given))),
        w.entered (c.registeredName given) (c.constructor (c.registeredName given))) := by
  simp only [registerClass, Script.bind_apply, HostClass.constructor, register_of_free h]
  rfl

theorem findFunction_of_taken (h : w.registry.lookup name = some f) :
    findFunction name w = (.ok (some f), w) := by
  have hseek : Registry.seek w.classes w.registry name = w.registry := by
    simp only [Registry.seek, h]
  have hfind : w.find name = some f := by simp only [find, h, Option.some_or]
  simp only [findFunction, Script.bind_apply, Script.get_apply, hseek, hfind]
  rfl

/-- What is found among the classes of the host is entered under the name looked for. -/
theorem findFunction_of_host (h : w.registry.lookup name = none)
    (hhost : Registry.hostFunction? w.classes name = some f) :
    findFunction name w = (.ok (some f), w.entered name f) := by
  have hseek : Registry.seek w.classes w.registry name = w.registry ++ [(name, f)] := by
    simp only [Registry.seek, h, hhost]
  have hfind : w.find name = some f := by simp only [find, h, hhost, Option.none_or]
  simp only [findFunction, Script.bind_apply, Script.get_apply, hseek, hfind]
  rfl

theorem findFunction_of_missing (h : w.registry.lookup name = none)
    (hhost : Registry.hostFunction? w.classes name = none) :
    findFunction name w = (.ok none, w) := by
  have hseek : Registry.seek w.classes w.registry name = w.registry := by
    simp only [Registry.seek, h, hhost]
  have hfind : w.find name = none := by simp only [find, h, hhost, Option.none_or]
  simp only [findFunction, Script.bind_apply, Script.get_apply, hseek, hfind]
  rfl

/-- A function that has been found is registered under the name, whether it was before or is now. -/
theorem findFunction_eq_some {v : World} (h : findFunction name w = (.ok (some f), v)) :
    v.registry.lookup name = some f ∧
      (v = w ∨ w.registry.lookup name = none ∧ v = w.entered name f) := by
  cases hlookup : w.registry.lookup name with
  | some g =>
    rw [findFunction_of_taken hlookup] at h
    cases h
    exact ⟨hlookup, .inl rfl⟩
  | none =>
    cases hhost : Registry.hostFunction? w.classes name with
    | some g =>
      rw [findFunction_of_host hlookup hhost] at h
      cases h
      exact ⟨lookup_entered_self hlookup, .inr ⟨rfl, rfl⟩⟩
    | none =>
      rw [findFunction_of_missing hlookup hhost] at h
      cases h

/-- A search without success changes nothing. -/
theorem findFunction_eq_none {v : World} (h : findFunction name w = (.ok none, v)) : v = w := by
  cases hlookup : w.registry.lookup name with
  | some g =>
    rw [findFunction_of_taken hlookup] at h
    cases h
  | none =>
    cases hhost : Registry.hostFunction? w.classes name with
    | some g =>
      rw [findFunction_of_host hlookup hhost] at h
      cases h
    | none =>
      rw [findFunction_of_missing hlookup hhost] at h
      cases h
      rfl

/-! ### Histories of calls -/

theorem registry_prefix_entered (w : World) (name : String) (f : Function) :
    w.registry <+: (w.entered name f).registry :=
  ⟨[(name, f)], rfl⟩

theorem registry_prefix_of_eq {v : World} (h : v = w) : w.registry <+: v.registry :=
  h ▸ List.prefix_rfl

/-- A call leaves the registry as it is or adds an entry at its end. -/
theorem registry_afterCall (w : World) (call : RegistryCall) :
    w.registry <+: (w.afterCall call).registry := by
  cases call with
  | register name f =>
    cases hlookup : w.registry.lookup name with
    | some g => exact registry_prefix_of_eq (congrArg Prod.snd (register_of_taken hlookup))
    | none =>
      rw [afterCall, register_of_free hlookup]
      exact registry_prefix_entered w name f
  | registerClass c given =>
    cases hlookup : w.registry.lookup (c.registeredName given) with
    | some g => exact registry_prefix_of_eq (congrArg Prod.snd (registerClass_of_taken hlookup))
    | none =>
      rw [afterCall, registerClass_of_free hlookup]
      exact registry_prefix_entered w _ _
  | find name =>
    cases hlookup : w.registry.lookup name with
    | some g => exact registry_prefix_of_eq (congrArg Prod.snd (findFunction_of_taken hlookup))
    | none =>
      cases hhost : Registry.hostFunction? w.classes name with
      | some f =>
        rw [afterCall, findFunction_of_host hlookup hhost]
        exact registry_prefix_entered w name f
      | none =>
        exact registry_prefix_of_eq (congrArg Prod.snd (findFunction_of_missing hlookup hhost))
  | load classes => exact List.prefix_rfl

/-- A history of calls only adds entries at the end of the registry. -/
theorem registry_afterCalls (w : World) (calls : List RegistryCall) :
    w.registry <+: (w.afterCalls calls).registry := by
  induction calls generalizing w with
  | nil => exact List.prefix_rfl
  | cons call rest ih => exact (registry_afterCall w call).trans (ih (w.afterCall call))

/-- A name that is bound is found to be so after every history, which does not change the world any
more. -/
theorem findFunction_afterCalls (h : w.registry.lookup name = some f)
    (calls : List RegistryCall) :
    findFunction name (w.afterCalls calls) = (.ok (some f), w.afterCalls calls) :=
  findFunction_of_taken (lookup_of_isPrefix (registry_afterCalls w calls) h)

/-- After any history of calls that starts from the built-in functions: a function that is found
under a name is an entry of the registry that stays in its place, and every later search answers
it, whatever else is called in between; a name that is taken is refused for a function and for a
class, and nothing changes; registering under a free name binds that name and no other; a search
without success changes nothing, and one with success binds at most its own name; and every alias of
a built-in function denotes the function of its main name. -/
theorem registry_monotone (w : World) (calls : List RegistryCall) :
    let v := { w with registry := Builtin.registry }.afterCalls calls
    (∀ name f u, findFunction name v = (.ok (some f), u) → ∃ place : Nat, ∀ later,
      (u.afterCalls later).registry[place]? = some (name, f) ∧
        findFunction name (u.afterCalls later) = (.ok (some f), u.afterCalls later)) ∧
    (∀ name, (v.registry.lookup name).isSome →
      (∀ f, register name f v = (.ok false, v)) ∧
      ∀ c given, HostClass.registeredName c given = name →
        registerClass c given v = (.ok none, v)) ∧
    (∀ name, v.registry.lookup name = none →
      (∀ f, ∃ u, register name f v = (.ok true, u) ∧ u.registry.lookup name = some f ∧
        ∀ other, other ≠ name → u.registry.lookup other = v.registry.lookup other) ∧
      ∀ c given, HostClass.registeredName c given = name →
        ∃ f u, registerClass c given v = (.ok (some f), u) ∧ u.registry.lookup name = some f ∧
          ∀ other, other ≠ name → u.registry.lookup other = v.registry.lookup other) ∧
    (∀ name u, findFunction name v = (.ok none, u) → u = v) ∧
    (∀ name f u, findFunction name v = (.ok (some f), u) →
      ∀ other, other ≠ name → u.registry.lookup other = v.registry.lookup other) ∧
    ∀ row ∈ Builtin.table, ∀ name ∈ row.2.1 :: row.2.2.2.2,
      findFunction name v = (.ok (some (Builtin.function row)), v) := by
  intro v
  refine ⟨?stays, ?refused, ?binds, fun _ _ h ↦ findFunction_eq_none h, ?found, ?aliases⟩
  case stays =>
    intro name f u h
    have hbound : u.registry.lookup name = some f := (findFunction_eq_some h).1
    obtain ⟨place, hplace⟩ := exists_place hbound
    refine ⟨place, fun later ↦ ⟨?_, findFunction_afterCalls hbound later⟩⟩
    exact hplace _ (registry_afterCalls u later)
  case refused =>
    intro name h
    obtain ⟨g, hbound⟩ := Option.isSome_iff_exists.mp h
    refine ⟨fun f ↦ register_of_taken hbound, ?_⟩
    rintro c given rfl
    exact registerClass_of_taken hbound
  case binds =>
    intro name h
    refine ⟨fun f ↦ ⟨_, register_of_free h, lookup_entered_self h, ?_⟩, ?_⟩
    · intro other hother
      exact lookup_entered_ne hother
    · rintro c given rfl
      refine ⟨_, _, registerClass_of_free h, lookup_entered_self h, ?_⟩
      intro other hother
      exact lookup_entered_ne hother
  case found =>
    intro name f u h other hother
    obtain rfl | ⟨-, rfl⟩ := (findFunction_eq_some h).2
    · rfl
    · exact lookup_entered_ne hother
  case aliases =>
    intro row hrow name hname
    exact findFunction_afterCalls (Builtin.lookup_registry row hrow name hname) calls

end World

end ResourceScript
