import ResourceScript.Session
import ResourceScript.Proofs.Language.Program
import ResourceScript.Proofs.Task.Depth
/-!
# Running programs step by step

Running a program is executing its trees one after the other (`Script.sequence`). `execute` does
more than that: it runs `eval` over the trees, and executes once more what comes out of it. The
second round does nothing, since what executing answers is plain (`Job.answers_isPlain`). The first costs
a level of depth, so a program and the sequence of its trees extend each other up to one level
(`IsProgram.extends_sequence` and `IsProgram.sequence_extends`). Sequences of trees can be cut
anywhere, so programs can be, too: two programs one after the other do what their joint program does
(`IsJoint.extends_parts`), which does what they do one level deeper (`IsJoint.parts_extend`).
-/

set_option autoImplicit false

namespace ResourceScript

namespace Value

/-! ### Deciding results

Values have no decidable equality, but whether one is a given container, integer or text can be
decided. So what a closed run answers can be evaluated.
-/

instance (result : Except Stop Value) (value : Value) [∀ found : Value, Decidable (found = value)] :
    Decidable (result = .ok value) :=
  match result with
  | .ok found => decidable_of_iff (found = value) (by simp)
  | .error _ => isFalse (by simp)

instance (result : Except Stop Value) (stop : Stop) : Decidable (result = .error stop) :=
  match result with
  | .ok _ => isFalse (by simp)
  | .error cause => decidable_of_iff (cause = stop) (by simp)

instance (value : Value) (n : Nat) : Decidable (value = .cell n) :=
  match value with
  | .cell m => decidable_of_iff (m = n) (by simp)
  | .atom _ | .tuple _ | .frozen _ | .call _ _ | .resource _ | .scope _ => isFalse (by simp)

instance (value : Value) (n : Int) : Decidable (value = .int n) :=
  match value with
  | .int m => decidable_of_iff (m = n) (by simp)
  | .null | .bool _ | .real _ | .text _ | .function _ => isFalse (by simp)
  | .atom (.bytes _) | .atom (.moment _) | .atom (.day _) | .atom (.time _) | .atom (.kind _)
  | .atom (.path _) | .atom (.url _) | .atom (.document _) => isFalse (by simp)
  | .tuple _ | .frozen _ | .call _ _ | .cell _ | .resource _ | .scope _ => isFalse (by simp)

instance (value : Value) (text : String) : Decidable (value = .text text) :=
  match value with
  | .text found => decidable_of_iff (found = text) (by simp)
  | .null | .bool _ | .int _ | .real _ | .function _ => isFalse (by simp)
  | .atom (.bytes _) | .atom (.moment _) | .atom (.day _) | .atom (.time _) | .atom (.kind _)
  | .atom (.path _) | .atom (.url _) | .atom (.document _) => isFalse (by simp)
  | .tuple _ | .frozen _ | .call _ _ | .cell _ | .resource _ | .scope _ => isFalse (by simp)

/-! ### Plain answers -/

/-- Whether executing a value answers the value itself. -/
def IsPlain : Value → Prop
  | .call .. => False
  | .resource _ => False
  | .atom (.path _) => False
  | _ => True

end Value

namespace Script

variable {α β : Type}

/-- When the result of a run is known, the run is known up to the world in which it ends. -/
theorem exists_eq_of_fst {x : Script α} {w : World} {result : Except Stop α}
    (h : (x w).1 = result) : ∃ v, x w = (result, v) :=
  ⟨_, Prod.ext h rfl⟩

/-- Whether all that a script answers has a property. -/
def Answers (P : α → Prop) (x : Script α) : Prop :=
  ∀ w a v, x w = (.ok a, v) → P a

namespace Answers

theorem pure {P : α → Prop} {a : α} (ha : P a) : Answers P (pure a : Script α) := by
  intro w b v h
  cases h
  exact ha

theorem bind {P : β → Prop} (x : Script α) {next : α → Script β} (hnext : ∀ a, Answers P (next a)) :
    Answers P (x >>= next) := by
  intro w b v h
  obtain ⟨a, u, -, hafter⟩ := bind_eq_ok_iff.1 h
  exact hnext a u b v hafter

end Answers

end Script

namespace Job

/-- Executing a plain value does nothing. -/
theorem run_execute_of_isPlain {value : Value} (hvalue : value.IsPlain) (depth : Nat) :
    (execute value).run (depth + 1) = pure value := by
  cases value with
  | atom a => cases a <;> first | rfl | exact hvalue.elim
  | call => exact hvalue.elim
  | resource => exact hvalue.elim
  | _ => rfl

/-- What executing answers is plain. -/
theorem answers_isPlain (depth : Nat) (value : Value) :
    Script.Answers Value.IsPlain ((execute value).run depth) := by
  induction depth generalizing value with
  | zero =>
    intro w a v h
    cases h
  | succ depth ih =>
    have hnext : ∀ {α : Type} (x : Task α) (target : α → Value), Script.Answers Value.IsPlain
        ((x >>= fun a ↦ Runner.standard.execute (target a)).run (Job.run depth)) := by
      intro α x target
      rw [Task.run_bind]
      exact .bind _ fun a ↦ (Task.run_job (.execute (target a))).symm ▸ ih (target a)
    cases value with
    | call f params => exact hnext (Library.perform .standard f params) id
    | resource n => exact hnext (Script.getData n) id
    | atom a =>
      cases a with
      | path path =>
        exact hnext (Script.newResource (.atom (.path path))) fun n ↦ .resource n
      | _ => exact .pure trivial
    | _ => exact .pure trivial

end Job

/-! ### Sequences of trees -/

namespace Script

/-- Executes trees one after the other; the answer is that of the last, or what was there before
when there are none. -/
def sequence (before : Value) (trees : List Value) : Task Value :=
  trees.foldlM (fun _ tree => execute tree) before

theorem sequence_append (before : Value) (first second : List Value) :
    sequence before (first ++ second) = sequence before first >>= fun v => sequence v second :=
  List.foldlM_append

/-- What was there before does not matter when there are trees. -/
theorem sequence_of_ne_nil {trees : List Value} (htrees : trees ≠ []) (before before' : Value) :
    sequence before trees = sequence before' trees := by
  cases trees with
  | nil => exact absurd rfl htrees
  | cons tree rest => rfl

theorem sequence_singleton (before tree : Value) : sequence before [tree] = execute tree :=
  bind_pure _

theorem runAt_execute (depth : Nat) (value : Value) :
    (execute value).runAt depth = (Job.execute value).run depth :=
  Task.run_job _

theorem runAt_execute_of_isPlain {value : Value} (hvalue : value.IsPlain) (depth : Nat)
    (w : World) : (execute value).runAt (depth + 1) w = (.ok value, w) := by
  rw [runAt_execute, Job.run_execute_of_isPlain hvalue]
  rfl

/-- Executing a plain value leaves the world as it is. -/
theorem world_execute_of_isPlain {value : Value} (hvalue : value.IsPlain) (depth : Nat) (w : World) :
    ((execute value).runAt depth w).2 = w := by
  cases depth with
  | zero => rfl
  | succ depth => rw [runAt_execute_of_isPlain hvalue]

/-- What a sequence answers is plain, if what was there before is. -/
theorem answers_sequence {before : Value} (hbefore : before.IsPlain) (depth : Nat)
    (trees : List Value) : Answers Value.IsPlain ((sequence before trees).runAt depth) := by
  induction trees generalizing before with
  | nil => exact .pure hbefore
  | cons tree rest ih =>
    have hcons : (sequence before (tree :: rest)).runAt depth =
        (execute tree).runAt depth >>= fun v ↦ (sequence v rest).runAt depth :=
      Task.run_bind _ _
    rw [hcons, runAt_execute]
    intro w a v h
    obtain ⟨b, u, htree, hrest⟩ := bind_eq_ok_iff.1 h
    exact ih (Job.answers_isPlain depth tree w b u htree) u a v hrest

/-- `eval` runs lines as a sequence. -/
theorem eval_of_lines {trees : List Value} (htrees : ∀ c ∈ trees, Library.isLine c = true) :
    Library.eval .standard trees = sequence .null trees := by
  unfold Library.eval sequence
  generalize Value.null = before
  induction trees generalizing before with
  | nil => rfl
  | cons tree rest ih =>
    rw [List.foldlM_cons, List.foldlM_cons]
    have hhead : ∃ f params, tree = .call f params := by
      have hline := htrees tree List.mem_cons_self
      cases tree with
      | call f params => exact ⟨f, params, rfl⟩
      | _ => cases hline
    obtain ⟨f, params, rfl⟩ := hhead
    exact congrArg _ (funext (ih fun c hc ↦ htrees c (List.mem_cons_of_mem _ hc)))

theorem runAt_execute_eval {trees : List Value} (htrees : ∀ c ∈ trees, Library.isLine c = true)
    (depth : Nat) :
    (execute (.call (some Builtin.evalFunction) trees)).runAt (depth + 1) =
      (sequence .null trees).runAt depth >>= fun v ↦ (execute v).runAt depth := by
  rw [runAt_execute, ← eval_of_lines htrees]
  exact Task.run_bind _ _

/-- A tree that stops stops all that are run under `eval` behind it. -/
theorem runAt_eval_of_stop {tree : Value} {rest : List Value} {depth : Nat} {w v : World}
    {stop : Stop} (htrees : ∀ c ∈ tree :: rest, Library.isLine c = true)
    (h : (execute tree).runAt depth w = (.error stop, v)) :
    (execute (.call (some Builtin.evalFunction) (tree :: rest))).runAt (depth + 1) w =
      (.error stop, v) := by
  have hsequence : (sequence .null (tree :: rest)).runAt depth =
      (execute tree).runAt depth >>= fun a ↦ (sequence a rest).runAt depth := Task.run_bind _ _
  rw [runAt_execute_eval htrees, hsequence]
  exact bind_of_error (bind_of_error h _) _

/-- Running trees under `eval` is running them as a sequence, one level deeper. -/
theorem runAt_execute_eval_succ {trees : List Value}
    (htrees : ∀ c ∈ trees, Library.isLine c = true) (depth : Nat) :
    (execute (.call (some Builtin.evalFunction) trees)).runAt (depth + 2) =
      (sequence .null trees).runAt (depth + 1) := by
  funext w
  rw [runAt_execute_eval htrees]
  rcases hrun : (sequence .null trees).runAt (depth + 1) w with ⟨stop | v, u⟩
  · rw [bind_of_error hrun]
  · have hnull : Value.null.IsPlain := trivial
    have hplain : v.IsPlain := answers_sequence hnull (depth + 1) trees w v u hrun
    rw [bind_of_ok hrun, runAt_execute, Job.run_execute_of_isPlain hplain]
    rfl

end Script

/-! ### Programs as sequences -/

namespace IsProgram

variable {program : Value} {trees : List Value}

open Script

/-- A program does what the sequence of its trees does, wherever it is not exhausted. -/
theorem extends_sequence (h : IsProgram program trees) (depth : Nat) :
    Extends ((execute program).runAt depth) ((sequence .null trees).runAt depth) := by
  cases h with
  | single htree =>
    rw [sequence_singleton]
    exact .refl _
  | several htrees =>
    rcases depth with _ | _ | depth
    · exact fun w ↦ Or.inl rfl
    · rw [runAt_execute_eval htrees]
      cases trees <;> exact fun w ↦ Or.inl rfl
    · rw [runAt_execute_eval_succ htrees]
      exact Task.extends_runAt (Nat.le_succ _) _
  | nothing =>
    rcases depth with _ | _ | depth
    · exact fun w ↦ Or.inl rfl
    · exact fun w ↦ Or.inl rfl
    · exact .refl _

/-- The sequence of the trees of a program does what the program does a level deeper. -/
theorem sequence_extends (h : IsProgram program trees) (depth : Nat) :
    Extends ((sequence .null trees).runAt (depth + 1)) ((execute program).runAt (depth + 2)) := by
  cases h with
  | single htree =>
    rw [sequence_singleton]
    exact Task.extends_runAt (Nat.le_succ _) _
  | several htrees =>
    rw [runAt_execute_eval_succ htrees]
    exact .refl _
  | nothing => exact .refl _

end IsProgram

namespace IsJoint

variable {first second joint : Value} {firstTrees secondTrees : List Value}

open Script

/-- Two programs one after the other do what their joint program does. -/
theorem extends_parts (h : IsJoint first second (firstTrees ++ secondTrees) joint)
    (hfirst : IsProgram first firstTrees) (hsecond : IsProgram second secondTrees)
    (hne : secondTrees ≠ []) (depth : Nat) :
    Extends ((execute joint).runAt (depth + 2))
      ((execute first).runAt (depth + 2) >>= fun _ ↦ (execute second).runAt (depth + 2)) := by
  cases h with
  | several htrees =>
    rw [runAt_execute_eval_succ htrees, sequence_append, Task.runAt, Task.run_bind]
    refine (hfirst.sequence_extends depth).bind fun v ↦ ?_
    rw [sequence_of_ne_nil hne v .null]
    exact hsecond.sequence_extends depth
  | behindNothing hnothing =>
    subst hnothing
    exact .refl _

/-- The joint program of two programs does what they do one after the other, a level deeper. -/
theorem parts_extend (h : IsJoint first second (firstTrees ++ secondTrees) joint)
    (hfirst : IsProgram first firstTrees) (hsecond : IsProgram second secondTrees)
    (hne : secondTrees ≠ []) (depth : Nat) :
    Extends ((execute first).runAt (depth + 2) >>= fun _ ↦ (execute second).runAt (depth + 2))
      ((execute joint).runAt (depth + 3)) := by
  cases h with
  | several htrees =>
    rw [runAt_execute_eval_succ htrees, sequence_append]
    have hsequence : (sequence .null firstTrees >>= fun v ↦ sequence v secondTrees).runAt
        (depth + 2) = (sequence .null firstTrees).runAt (depth + 2) >>= fun v ↦
          (sequence v secondTrees).runAt (depth + 2) := Task.run_bind _ _
    rw [hsequence]
    refine (hfirst.extends_sequence (depth + 2)).bind fun v ↦ ?_
    rw [sequence_of_ne_nil hne v .null]
    exact hsecond.extends_sequence (depth + 2)
  | behindNothing hnothing =>
    subst hnothing
    exact Task.extends_runAt (Nat.le_succ _) _

end IsJoint

end ResourceScript
