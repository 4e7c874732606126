import ResourceScript.Library
/-!
# More depth

Jobs nest to a depth, beyond which a task is exhausted. A greater depth changes nothing else: a run
that is not exhausted is the same run at every greater depth (`Task.extends_runAt`). The order in
which a script extends another, when they agree wherever the first is not exhausted, is kept by
every step of a task, so it passes from the jobs to the task and, by induction on the depth, to the
jobs that are one level deeper.
-/

set_option autoImplicit false

namespace ResourceScript

namespace Script

variable {α β : Type}

/-- Whether the second script does what the first does wherever that is not exhausted. -/
def Extends (x y : Script α) : Prop :=
  ∀ w, (x w).1 = .error .exhausted ∨ y w = x w

namespace Extends

theorem refl (x : Script α) : Extends x x :=
  fun _ ↦ Or.inr rfl

theorem trans {x y z : Script α} (hxy : Extends x y) (hyz : Extends y z) : Extends x z := by
  intro w
  rcases hxy w with hexhausted | hy
  · exact Or.inl hexhausted
  · rw [← hy]
    exact hyz w

theorem bind {x y : Script α} {f g : α → Script β} (hxy : Extends x y)
    (hfg : ∀ a, Extends (f a) (g a)) : Extends (x >>= f) (y >>= g) := by
  intro w
  rcases hx : x w with ⟨stop | a, v⟩
  · rcases hxy w with hexhausted | hy
    · rw [hx] at hexhausted
      obtain rfl := Except.error.inj hexhausted
      exact Or.inl (congrArg Prod.fst (bind_of_error hx f))
    · rw [bind_of_error hx, bind_of_error (hy.trans hx)]
      exact Or.inr rfl
  · rcases hxy w with hexhausted | hy
    · rw [hx] at hexhausted
      cases hexhausted
    · rw [bind_of_ok hx, bind_of_ok (hy.trans hx)]
      exact hfg a v

end Extends

end Script

theorem Task.extends_run {α : Type} {jobs jobs' : Job → Script Value}
    (hjobs : ∀ j, Script.Extends (jobs j) (jobs' j)) (x : Task α) :
    Script.Extends (x.run jobs) (x.run jobs') := by
  intro w
  induction x generalizing w with
  | done result => exact Or.inr rfl
  | ask q next ih => exact ih _ _
  | order j next ih =>
    rcases hjob : jobs j w with ⟨result, v⟩
    by_cases hresult : result = .error .exhausted
    · subst hresult
      exact Or.inl (congrArg Prod.fst (run_order_of_exhausted hjob next))
    · have hjob' : jobs' j w = (result, v) := by
        rcases hjobs j w with hexhausted | hsame
        · rw [hjob] at hexhausted
          exact absurd hexhausted hresult
        · exact hsame.trans hjob
      rw [run_order_of_ne hjob hresult, run_order_of_ne hjob' hresult]
      exact ih _ _

theorem Job.extends_run_succ (depth : Nat) (j : Job) :
    Script.Extends (j.run depth) (j.run (depth + 1)) := by
  induction depth generalizing j with
  | zero => exact fun w ↦ Or.inl rfl
  | succ depth ih => exact Task.extends_run ih j.task

theorem Job.extends_run {depth depth' : Nat} (h : depth ≤ depth') (j : Job) :
    Script.Extends (j.run depth) (j.run depth') := by
  induction h with
  | refl => exact Script.Extends.refl _
  | step _ ih => exact ih.trans (Job.extends_run_succ _ j)

/-- A run of a task that is not exhausted is the same at every greater depth. -/
theorem Task.extends_runAt {α : Type} {depth depth' : Nat} (h : depth ≤ depth') (x : Task α) :
    Script.Extends (x.runAt depth) (x.runAt depth') :=
  Task.extends_run (Job.extends_run h) x

end ResourceScript
