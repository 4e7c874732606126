import ResourceScript.Library
/-!
# The jobs of a run

While a task is run it has jobs done, one after the other (`Task.orders`). The jobs of one task after
another are those of the first and then, if it has not stopped, those of the second
(`Task.orders_bind`). A task that only reads has no jobs and leaves the world as it is
(`Task.Reads`).

Values are executed one after the other by as many jobs (`ExecutesEach`). If one of them stops, the
jobs up to that one have been done (`Task.orders_executeAll_prefix`), and otherwise all of them, once
each and in order (`ExecutesEach.orders_eq`).
-/

set_option autoImplicit false

namespace ResourceScript

namespace Task

variable {α β : Type} {jobs : Job → Script Value} {w v : World}

/-! ### The jobs of tasks -/

/-- The jobs that a task has had done when it has been run, in order. -/
def orders (jobs : Job → Script Value) : Task α → World → List Job
  | done _, _ => []
  | ask q next, w => (next (w.answer q).1).orders jobs (w.answer q).2
  | order j next, w =>
    match jobs j w with
    | (.error .exhausted, _) => [j]
    | (result, v) => j :: (next result).orders jobs v

@[simp] theorem orders_pure (a : α) (w : World) : (pure a : Task α).orders jobs w = [] := rfl

theorem orders_order_of_exhausted {j : Job} (hjob : jobs j w = (.error .exhausted, v))
    (next : Except Stop Value → Task α) : (order j next).orders jobs w = [j] := by
  simp only [orders, hjob]

theorem orders_order_of_ne {j : Job} {result : Except Stop Value} (hjob : jobs j w = (result, v))
    (hresult : result ≠ .error .exhausted) (next : Except Stop Value → Task α) :
    (order j next).orders jobs w = j :: (next result).orders jobs v := by
  simp only [orders, hjob]

@[simp] theorem orders_job (j : Job) (w : World) : (job j).orders jobs w = [j] := by
  rcases hjob : jobs j w with ⟨result, v⟩
  by_cases hresult : result = .error .exhausted
  · subst hresult
    exact orders_order_of_exhausted hjob done
  · exact orders_order_of_ne hjob hresult done

/-- The jobs of one task after another. -/
theorem orders_bind (x : Task α) (next : α → Task β) (w : World) :
    (x >>= next).orders jobs w = x.orders jobs w ++
      match x.run jobs w with
      | (.ok a, v) => (next a).orders jobs v
      | (.error _, _) => [] := by
  show (x.andThen next).orders jobs w = _
  induction x generalizing w with
  | done result => cases result <;> rfl
  | ask q more ih => exact ih (w.answer q).1 (w.answer q).2
  | order j more ih =>
    show (order j fun result ↦ (more result).andThen next).orders jobs w = _
    rcases hjob : jobs j w with ⟨result, v⟩
    by_cases hresult : result = .error .exhausted
    · subst hresult
      rw [orders_order_of_exhausted hjob, orders_order_of_exhausted hjob,
        run_order_of_exhausted hjob]
      rfl
    · rw [orders_order_of_ne hjob hresult, orders_order_of_ne hjob hresult,
        run_order_of_ne hjob hresult, ih, List.cons_append]

theorem orders_bind_of_ok {x : Task α} {a : α} (hx : x.run jobs w = (.ok a, v))
    (next : α → Task β) :
    (x >>= next).orders jobs w = x.orders jobs w ++ (next a).orders jobs v := by
  rw [orders_bind, hx]

theorem orders_bind_of_error {x : Task α} {stop : Stop} (hx : x.run jobs w = (.error stop, v))
    (next : α → Task β) : (x >>= next).orders jobs w = x.orders jobs w := by
  rw [orders_bind, hx, List.append_nil]

/-! ### Tasks that only read -/

/-- Whether a task only reads: it ends with a result, has no jobs, and leaves the world as it is. -/
def Reads (x : Task α) : Prop :=
  ∀ jobs w, ∃ a, x.run jobs w = (.ok a, w) ∧ x.orders jobs w = []

namespace Reads

theorem pure (a : α) : Reads (pure a : Task α) :=
  fun _ _ ↦ ⟨a, rfl, rfl⟩

theorem bind {x : Task α} {next : α → Task β} (hx : Reads x) (hnext : ∀ a, Reads (next a)) :
    Reads (x >>= next) := by
  intro jobs w
  obtain ⟨a, hrun, horders⟩ := hx jobs w
  obtain ⟨b, hafter, hnone⟩ := hnext a jobs w
  refine ⟨b, ?_, ?_⟩
  · rw [run_bind, Script.bind_of_ok hrun, hafter]
  · rw [orders_bind_of_ok hrun, horders, hnone, List.append_nil]

theorem store : Reads Script.store :=
  fun _ w ↦ ⟨w.store, rfl, rfl⟩

theorem surroundings : Reads Script.surroundings :=
  fun _ w ↦ ⟨w.surroundings, rfl, rfl⟩

end Reads

end Task

/-! ### Values executed one after the other -/

section ExecuteAll

variable {jobs : Job → Script Value} {value result : Value} {values results : List Value}
  {w u v : World} {stop : Stop}

/-- Whether values are executed one after the other, each once, and all answer. -/
inductive ExecutesEach (jobs : Job → Script Value) :
    List Value → World → List Value → World → Prop
  /-- There is nothing to execute. -/
  | nil (w : World) : ExecutesEach jobs [] w [] w
  /-- A value is executed before the others. -/
  | cons {value result : Value} {values results : List Value} {w u v : World}
    (hfirst : jobs (.execute value) w = (.ok result, u))
    (hrest : ExecutesEach jobs values u results v) :
    ExecutesEach jobs (value :: values) w (result :: results) v

namespace Task

/-- Executes values one after the other. -/
def executeAll (values : List Value) : Task (List Value) :=
  values.mapM Script.execute

theorem executeAll_cons (value : Value) (values : List Value) :
    executeAll (value :: values) = (do
      let result ← job (.execute value)
      let results ← executeAll values
      return result :: results) :=
  List.mapM_cons

theorem run_executeAll_cons_of_error (hfirst : jobs (.execute value) w = (.error stop, u))
    (values : List Value) :
    (executeAll (value :: values)).run jobs w = (.error stop, u) ∧
      (executeAll (value :: values)).orders jobs w = [.execute value] := by
  have hjob : (job (.execute value)).run jobs w = (.error stop, u) := by rw [run_job, hfirst]
  rw [executeAll_cons, run_bind, Script.bind_of_error hjob, orders_bind_of_error hjob, orders_job]
  exact ⟨rfl, rfl⟩

theorem run_executeAll_cons_of_ok (hfirst : jobs (.execute value) w = (.ok result, u))
    (values : List Value) :
    (executeAll (value :: values)).run jobs w =
        ((executeAll values).run jobs >>= fun results ↦ pure (result :: results)) u ∧
      (executeAll (value :: values)).orders jobs w =
        .execute value :: (executeAll values).orders jobs u := by
  have hjob : (job (.execute value)).run jobs w = (.ok result, u) := by rw [run_job, hfirst]
  rw [executeAll_cons, run_bind, Script.bind_of_ok hjob, orders_bind_of_ok hjob, orders_job, run_bind,
    orders_bind]
  refine ⟨rfl, ?_⟩
  rcases (executeAll values).run jobs u with ⟨stop | results, v⟩ <;>
    simp

theorem run_executeAll_eq_ok_iff :
    (executeAll values).run jobs w = (.ok results, v) ↔ ExecutesEach jobs values w results v := by
  constructor
  · intro h
    induction values generalizing w results with
    | nil =>
      cases h
      exact .nil _
    | cons value rest ih =>
      rcases hfirst : jobs (.execute value) w with ⟨stop | result, u⟩
      · rw [(run_executeAll_cons_of_error hfirst rest).1] at h
        cases h
      · rw [(run_executeAll_cons_of_ok hfirst rest).1] at h
        obtain ⟨others, t, hothers, hpure⟩ := Script.bind_eq_ok_iff.1 h
        cases hpure
        exact .cons hfirst (ih hothers)
  · intro h
    induction h with
    | nil w => rfl
    | cons hfirst _ ih =>
      rw [(run_executeAll_cons_of_ok hfirst _).1, Script.bind_of_ok ih]
      rfl

/-- If the execution of a value stops, the jobs up to that one have been done. -/
theorem orders_executeAll_prefix (jobs : Job → Script Value) (values : List Value) (w : World) :
    (executeAll values).orders jobs w <+: values.map .execute := by
  induction values generalizing w with
  | nil => exact List.prefix_rfl
  | cons value rest ih =>
    rcases hfirst : jobs (.execute value) w with ⟨stop | result, u⟩
    · rw [(run_executeAll_cons_of_error hfirst rest).2]
      exact List.prefix_append [_] _
    · rw [(run_executeAll_cons_of_ok hfirst rest).2]
      exact (List.prefix_cons_inj _).2 (ih u)

end Task

namespace ExecutesEach

variable (h : ExecutesEach jobs values w results v)

include h

theorem run_eq : (Task.executeAll values).run jobs w = (.ok results, v) :=
  Task.run_executeAll_eq_ok_iff.2 h

/-- All values have been executed, once each and in order. -/
theorem orders_eq : (Task.executeAll values).orders jobs w = values.map .execute := by
  induction h with
  | nil w => rfl
  | cons hfirst _ ih => rw [(Task.run_executeAll_cons_of_ok hfirst _).2, ih, List.map_cons]

end ExecutesEach

end ExecuteAll

end ResourceScript
