import ResourceScript.Proofs.Session.Steps
import ResourceScript.Proofs.Task.Alike
/-!
# Preparing source text

A session compiles source text, which leaves traces in the world, and numbers the resources in it.
Values that are numbered together get the numbers that they get one after the other, and a program
stays a program of its trees. So what a session runs is known from what its source text compiles to
(`Script.prepare_of_compile`), and scripts cannot tell the world in which it is run from the world
before (`Script.endsAlike_runSourceAt`).
-/

set_option autoImplicit false

namespace ResourceScript

/-! ### Numbering -/

namespace Value

open Script (nextWritten)

theorem loadAll_append {m : Type → Type} [Monad m] [LawfulMonad m]
    (identify : (word uri : String) → m ResourceRef) (first second : List Value) :
    loadAll identify (first ++ second) = do
      return (← loadAll identify first) ++ (← loadAll identify second) := by
  induction first with
  | nil => simp [loadAll]
  | cons value rest ih => simp [loadAll, ih]

/-- The numbering of values one after the other. -/
theorem loadAll_nextWritten_append (first second : List Value) (n : Nat) :
    loadAll nextWritten (first ++ second) n =
      ((loadAll nextWritten first n).1 ++
          (loadAll nextWritten second (loadAll nextWritten first n).2).1,
        (loadAll nextWritten second (loadAll nextWritten first n).2).2) := by
  rw [loadAll_append]
  rfl

theorem loadAll_nextWritten_cons (value : Value) (rest : List Value) (n : Nat) :
    loadAll nextWritten (value :: rest) n =
      ((value.load nextWritten n).1 ::
          (loadAll nextWritten rest (value.load nextWritten n).2).1,
        (loadAll nextWritten rest (value.load nextWritten n).2).2) := by
  rw [loadAll]
  rfl

theorem isLine_load (value : Value) (n : Nat) :
    Library.isLine (value.load nextWritten n).1 = Library.isLine value := by
  unfold load
  split <;> rfl

theorem isLine_loadAll {values : List Value} (hvalues : ∀ c ∈ values, Library.isLine c = true)
    (n : Nat) : ∀ c ∈ (loadAll nextWritten values n).1, Library.isLine c = true := by
  induction values generalizing n with
  | nil =>
    rw [loadAll]
    exact hvalues
  | cons value rest ih =>
    rw [loadAll_nextWritten_cons]
    refine List.forall_mem_cons.2 ⟨?_, ?_⟩
    · rw [isLine_load]
      exact hvalues value List.mem_cons_self
    · exact ih (fun c hc ↦ hvalues c (List.mem_cons_of_mem value hc)) _

theorem loadAll_ne_nil {values : List Value} (hvalues : values ≠ []) (n : Nat) :
    (loadAll nextWritten values n).1 ≠ [] := by
  cases values with
  | nil => exact absurd rfl hvalues
  | cons value rest =>
    rw [loadAll_nextWritten_cons]
    exact List.cons_ne_nil _ _

end Value

namespace IsProgram

variable {program : Value} {trees : List Value}

open Script (nextWritten)

/-- A program of numbered trees is the numbered program. -/
theorem load (h : IsProgram program trees) (n : Nat) :
    IsProgram (program.load nextWritten n).1 (Value.loadAll nextWritten trees n).1 := by
  cases h with
  | single htree =>
    rw [Value.loadAll_nextWritten_cons, Value.loadAll]
    exact .single ((Value.isLine_load program n).trans htree)
  | several htrees =>
    rw [Value.load]
    exact .several (Value.isLine_loadAll htrees n)
  | nothing =>
    rw [Value.load, Value.loadAll]
    exact .nothing

/-- A program takes as many numbers as its trees. -/
theorem load_snd (h : IsProgram program trees) (n : Nat) :
    (program.load nextWritten n).2 = (Value.loadAll nextWritten trees n).2 := by
  cases h with
  | single htree =>
    rw [Value.loadAll_nextWritten_cons, Value.loadAll]
    rfl
  | several htrees =>
    rw [Value.load]
    rfl
  | nothing =>
    rw [Value.load, Value.loadAll]
    rfl

end IsProgram

/-- A joint program that is numbered is that of the programs numbered one after the other. -/
theorem IsJoint.load {first second joint : Value} {firstTrees secondTrees : List Value}
    (h : IsJoint first second (firstTrees ++ secondTrees) joint)
    (hfirst : IsProgram first firstTrees) (n : Nat) :
    IsJoint (first.load Script.nextWritten n).1
      (second.load Script.nextWritten (first.load Script.nextWritten n).2).1
      ((Value.loadAll Script.nextWritten firstTrees n).1 ++
        (Value.loadAll Script.nextWritten secondTrees (first.load Script.nextWritten n).2).1)
      (joint.load Script.nextWritten n).1 := by
  cases h with
  | several htrees =>
    rw [hfirst.load_snd, Value.load]
    have hall := Value.isLine_loadAll htrees n
    rw [Value.loadAll_nextWritten_append] at hall
    have hload : (Value.loadAll Script.nextWritten (firstTrees ++ secondTrees) n).1 = _ :=
      congrArg Prod.fst (Value.loadAll_nextWritten_append firstTrees secondTrees n)
    show IsJoint _ _ _ (.call (some Builtin.evalFunction)
      (Value.loadAll Script.nextWritten (firstTrees ++ secondTrees) n).1)
    rw [hload]
    exact .several hall
  | behindNothing hnothing =>
    subst hnothing
    have hload : (Value.call none []).load Script.nextWritten n = (.call none [], n) := by
      rw [Value.load, Value.loadAll]
      rfl
    rw [hload]
    exact .behindNothing rfl

/-! ### Preparing -/

namespace World.Alike

variable {w v : World}

theorem numbered (w : World) (n : Nat) : w.Alike { w with written := n } :=
  ⟨rfl, rfl, rfl, rfl, rfl, rfl, rfl, rfl, fun _ ↦ rfl, rfl, rfl, rfl, rfl, rfl, rfl, rfl⟩

theorem inScope (h : w.Alike v) (current : Option Nat) :
    World.Alike { w with current } { v with current } :=
  { h with current := rfl }

end World.Alike

/-- What ends like a script ends like those that extend it, unless it is exhausted. -/
theorem EndsAlike.of_extends {α : Type} {x y : Script α} {w : World}
    {run other : Except Stop α × World} (hx : EndsAlike (x w) run) (hy : EndsAlike (y w) other)
    (h : Script.Extends x y) (hrun : run.1 ≠ .error .exhausted) : EndsAlike run other := by
  rcases h w with hexhausted | hsame
  · exact absurd (hx.result.trans hexhausted) hrun
  · rw [hsame] at hy
    exact hx.symm.trans hy

namespace Script

variable {w : World} {source : String} {program : Value} {t : Traces}

theorem runAt_compiling {α : Type} {c : Compiler α} {result : Except Fault α}
    (h : c w.surroundings = (result, t)) (depth : Nat) :
    (compiling c).runAt depth w = (result.mapError .fault, w.note t) := by
  have hrun : (compiling c).runAt depth w =
      ((ofExcept (c w.surroundings).1).runAt depth) (w.note (c w.surroundings).2) := rfl
  rw [hrun, h]
  cases result <;> rfl

/-- What a session prepares for source text that compiles. -/
theorem prepare_of_compile (h : Compiler.compile source w.surroundings = (.ok program, t)) :
    prepare source w = (.ok (program.load nextWritten w.written).1,
      { w.note t with written := (program.load nextWritten w.written).2 }) :=
  bind_of_ok (runAt_compiling h Job.maxDepth) number

theorem runSourceAt_of_compile (h : Compiler.compile source w.surroundings = (.ok program, t))
    (depth scope : Nat) :
    runSourceAt depth scope (.text source) w =
      within scope ((execute (program.load nextWritten w.written).1).runAt depth)
        { w.note t with written := (program.load nextWritten w.written).2 } :=
  bind_of_ok (prepare_of_compile h) _

theorem respects_within {α : Type} {x : Script α} (hx : Respects x) (scope : Nat) :
    Respects (within scope x) := by
  intro w v h
  have hends := hx _ _ (h.inScope (some scope))
  refine ⟨hends.result, ?_⟩
  show World.Alike _ { (x { v with current := some scope }).2 with current := v.current }
  rw [h.current]
  exact hends.world.inScope w.current

theorem within_of_eq {α : Type} {x : Script α} {scope : Nat} {result : Except Stop α} {v : World}
    (h : x { w with current := some scope } = (result, v)) :
    within scope x w = (result, { v with current := w.current }) := by
  unfold within
  rw [h]

/-- A scope may be left and entered again, if it is current at that point. -/
theorem within_bind {α β : Type} {x : Script α} {scope : Nat}
    (hx : Keeps (fun w ↦ w.current = some scope) x) (next : α → Script β) (w : World) :
    within scope (x >>= next) w = (within scope x >>= fun a ↦ within scope (next a)) w := by
  have hcurrent := hx { w with current := some scope } rfl
  rcases hrun : x { w with current := some scope } with ⟨stop | a, v⟩
  · rw [bind_of_error (within_of_eq hrun), within_of_eq (bind_of_error hrun next)]
  · rw [hrun] at hcurrent
    have hagain : { v with current := some scope } = v := by
      cases v
      cases hcurrent
      rfl
    rcases hnext : next a v with ⟨result, u⟩
    have hnextAgain : next a { v with current := some scope } = (result, u) := by
      rw [hagain, hnext]
    rw [bind_of_ok (within_of_eq hrun), within_of_eq ((bind_of_ok hrun next).trans hnext)]
    exact (within_of_eq (w := { v with current := w.current }) hnextAgain).symm

theorem Extends.within {α : Type} {x y : Script α} (h : Extends x y) (scope : Nat) :
    Extends (within scope x) (within scope y) := by
  intro w
  rcases hrun : x { w with current := some scope } with ⟨result, v⟩
  rcases h { w with current := some scope } with hexhausted | hy
  · exact Or.inl hexhausted
  · rw [within_of_eq hrun, within_of_eq (hy.trans hrun)]
    exact Or.inr rfl

/-- A session runs its program as if it were there already. -/
theorem endsAlike_runSourceAt (h : Compiler.compile source w.surroundings = (.ok program, t))
    (depth scope : Nat) :
    EndsAlike (within scope ((execute (program.load nextWritten w.written).1).runAt depth) w)
      (runSourceAt depth scope (.text source) w) := by
  rw [runSourceAt_of_compile h]
  exact respects_within (Task.respects_runAt depth _) scope _ _
    ((World.Alike.note w t).trans (World.Alike.numbered _ _))

/-- After running source text the surroundings are as before, and the resources in the source text
are numbered. -/
theorem settled_runSourceAt (h : Compiler.compile source w.surroundings = (.ok program, t))
    (depth scope : Nat) :
    (runSourceAt depth scope (.text source) w).2.surroundings = w.surroundings ∧
      (runSourceAt depth scope (.text source) w).2.written =
        (program.load nextWritten w.written).2 := by
  rw [runSourceAt_of_compile h]
  have hsettled := Task.keeps_runAt World.isSettled_answer depth
    (execute (program.load nextWritten w.written).1)
    { w.note t with
      written := (program.load nextWritten w.written).2
      current := some scope }
    ⟨w.surroundings_note t, rfl, rfl⟩
  exact ⟨hsettled.1, hsettled.2.1⟩

end Script

end ResourceScript
