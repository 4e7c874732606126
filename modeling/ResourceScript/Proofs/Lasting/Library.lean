import ResourceScript.Library
import ResourceScript.Proofs.Lasting.Member
/-!
# Running scripts keeps resources

Every function keeps resources when what it runs does. The jobs that it runs are one level deeper,
so by induction on the depth every job keeps resources (`Job.keepsResources_run`), and with it every
task (`Task.keepsResources_runAt`): a resource that was made by running is never lost, and its
location never becomes another, unless its data stands in the location and other data is put there.
-/

set_option autoImplicit false

namespace ResourceScript

open Script (Keeping keeping_bind)

namespace Library

section

variable {r : Runner} [hexecute : ∀ value, Keeping (r.execute value)]
  [hperform : ∀ f params, Keeping (r.perform f params)]

/-! ### Parameters -/

instance (bound : Nat) (value : Value) : Keeping (settle r bound value) := by
  induction bound generalizing value with
  | zero => exact inferInstanceAs (Keeping (Script.fail .unfinished : Task Value))
  | succ bound ih =>
    unfold settle
    split <;> infer_instance

instance (value : Value) : Keeping (resourceOf r value) := by
  unfold resourceOf
  refine keeping_bind fun s ↦ keeping_bind fun settled ↦ ?_
  split <;> infer_instance

instance (bound : Nat) (value : Value) : Keeping (keyWithin r bound value) := by
  induction bound generalizing value with
  | zero => exact inferInstanceAs (Keeping (throw .exhausted : Task Value))
  | succ bound ih =>
    unfold keyWithin
    split
    case h_3 =>
      refine keeping_bind fun record ↦ ?_
      split <;> infer_instance
    all_goals infer_instance

instance (value : Value) : Keeping (key r value) := by
  unfold key
  infer_instance

instance (value : Value) : Keeping (truth r value) := by
  unfold truth
  infer_instance

instance (a b : Value) : Keeping (order r a b) := by
  unfold order
  infer_instance

/-! ### Functions -/

instance (params : List Value) : Keeping (put r params) := by
  unfold put
  infer_instance

instance (params : List Value) : Keeping (post r params) := by
  unfold post
  infer_instance

instance (params : List Value) : Keeping (date r params) := by
  unfold date
  refine keeping_bind fun s ↦ ?_
  dsimp only
  refine keeping_bind fun values ↦ keeping_bind fun data ↦ ?_
  split <;> infer_instance

instance (entries : List (Value × Value)) (params : List Value) :
    Keeping (mapOfPairs r entries params) := by
  fun_induction mapOfPairs r entries params <;> infer_instance

instance (params : List Value) : Keeping (map r params) := by
  unfold map
  split <;> infer_instance

instance (value : Value) : Keeping (sumStart value) := by
  unfold sumStart
  refine keeping_bind fun s ↦ ?_
  split <;> infer_instance

instance (sum value : Value) : Keeping (sumStep sum value) := by
  unfold sumStep
  split <;> infer_instance

instance (params : List Value) : Keeping (add r params) := by
  unfold add
  infer_instance

instance (params : List Value) : Keeping (of r params) := by
  unfold of
  split <;> infer_instance

instance (subject state : Value) : Keeping (isState r subject state) := by
  unfold isState
  refine keeping_bind fun expected ↦ ?_
  split <;> infer_instance

instance (params : List Value) : Keeping (is r params) := by
  unfold is
  refine keeping_bind fun subject ↦ ?_
  dsimp only
  refine keeping_bind fun s ↦ ?_
  split
  · infer_instance
  · split
    · infer_instance
    · split <;> infer_instance
    · infer_instance

instance (params : List Value) : Keeping (print r params) := by
  unfold print
  infer_instance

instance (params : List Value) : Keeping (eval r params) := by
  have hstep (param : Value) : Keeping (match param with
      | .text source => do r.execute (← Script.compile source)
      | other => r.execute other) := by
    split <;> infer_instance
  unfold eval
  infer_instance

instance (params : List Value) : Keeping (member r params) := by
  unfold member
  refine keeping_bind fun subject ↦ keeping_bind fun name ↦ keeping_bind fun arguments ↦ ?_
  split <;> infer_instance

instance (params : List Value) : Keeping (shell r params) := by
  unfold shell
  infer_instance

instance (params : List Value) : Keeping (exit r params) := by
  unfold exit
  split <;> infer_instance

/-! ### Blocs -/

instance (lines : List Value) (before : Value) : Keeping (runLines r lines before) := by
  unfold runLines
  infer_instance

instance (n : Nat) (target : ResourceRef) (lines : List Value) (rounds position : Nat)
    (result : Value) : Keeping (eachFrom r n target lines rounds position result) := by
  induction rounds generalizing position result with
  | zero => exact inferInstanceAs (Keeping (Script.fail .unfinished : Task Value))
  | succ rounds ih =>
    unfold eachFrom
    refine keeping_bind fun content ↦ ?_
    split
    · split <;> infer_instance
    · infer_instance

instance (name : Value) : Keeping (loopVariable r name) := by
  unfold loopVariable
  split <;> infer_instance

instance (params : List Value) : Keeping (each r params) := by
  unfold each
  dsimp only
  split
  · infer_instance
  · refine keeping_bind fun target ↦ keeping_bind fun value ↦ keeping_bind fun list ↦
      keeping_bind fun items ↦ ?_
    split <;> infer_instance

instance (condition : Value) (lines : List Value) (rounds : Nat) (result : Value) :
    Keeping (whileFrom r condition lines rounds result) := by
  induction rounds generalizing result with
  | zero => exact inferInstanceAs (Keeping (Script.fail .unfinished : Task Value))
  | succ rounds ih =>
    unfold whileFrom
    infer_instance

instance (params : List Value) : Keeping (repeatWhile r params) := by
  unfold repeatWhile
  infer_instance

/-! ### All functions -/

instance (which : Builtin) (params : List Value) : Keeping (runBuiltin r which params) := by
  cases which <;> unfold runBuiltin <;> dsimp only [most]
  case string =>
    have htext : Keeping (match parameter params 0 with
        | .null => return .text ""
        | value => do return .text (← Script.textOf (← r.execute value)) : Task Value) := by
      split <;> infer_instance
    infer_instance
  all_goals infer_instance

omit hperform in
/-- A constructor is one of the overloads of its class, all of which keep resources. -/
theorem keepsFrom_construct (s : Store) (c : HostClass) (name : String) (arguments : List Value) :
    Script.KeepsFrom s (do
      (← Overload.select name (c.constructors.map (Overload.ofMethod .null)) arguments).call
        r.execute arguments) fun _ ↦ True := by
  have hoverloads : ∀ o ∈ c.constructors.map (Overload.ofMethod .null), o.Keeps := by
    intro o ho
    obtain ⟨m, -, rfl⟩ := List.mem_map.mp ho
    infer_instance
  exact (Overload.keepsFrom_select name hoverloads arguments).bind fun _ chosen _ hchosen ↦
    .of_keeping

omit hperform in
theorem keepsFrom_callStatic (s : Store) (info : ClassInfo) (name : String)
    (params : List Value) :
    Script.KeepsFrom s (do
      match ← Script.staticMembers info name with
      | o :: _ => do o.call r.execute (← params.mapM r.execute)
      | [] => Script.fail .type) fun _ ↦ True := by
  refine (Script.keepsFrom_staticMembers s info name).bind fun t overloads _ hoverloads ↦ ?_
  cases overloads with
  | nil => exact .of_keeping
  | cons o rest =>
    have ho := hoverloads o List.mem_cons_self
    exact .of_keeping

instance (f : Function) (params : List Value) : Keeping (runFunction r f params) := by
  unfold runFunction
  split
  · infer_instance
  · refine keeping_bind fun c ↦ ?_
    split
    · infer_instance
    · rename_i c
      exact keeping_bind fun arguments ↦ ⟨fun s ↦ keepsFrom_construct s c _ arguments⟩
  · exact ⟨fun s ↦ keepsFrom_callStatic s _ _ params⟩
  · infer_instance

instance (params : List Value) : Keeping (runPlain r params) := by
  have hvalue (param : Value) : Keeping (match param with
      | .call f inner => r.perform f inner
      | other => pure other) := by
    split <;> infer_instance
  unfold runPlain
  dsimp only
  split <;> infer_instance

instance (f : Option Function) (params : List Value) : Keeping (perform r f params) := by
  unfold perform
  split <;> infer_instance

instance (value : Value) : Keeping (execute r value) := by
  unfold execute
  split <;> infer_instance

end

end Library

/-! ### Runs -/

variable {α : Type}

/-- A task keeps resources when it is run, if its jobs do. -/
theorem Task.keepsResources_run {jobs : Job → Script Value}
    (hjobs : ∀ j, Script.KeepsResources (jobs j)) (x : Task α) [hx : Keeping x] :
    Script.KeepsResources (x.run jobs) :=
  fun w ↦ (hx.keepsFrom w.store jobs hjobs w rfl).1

instance (value : Value) : Keeping (Runner.standard.execute value) :=
  inferInstanceAs (Keeping (Task.job (.execute value)))

instance (f : Option Function) (params : List Value) : Keeping (Runner.standard.perform f params) :=
  inferInstanceAs (Keeping (Task.job (.perform f params)))

instance (value : Value) : Keeping (Script.execute value) :=
  inferInstanceAs (Keeping (Runner.standard.execute value))

instance (j : Job) : Keeping j.task := by
  unfold Job.task
  split <;> infer_instance

/-- Jobs keep resources, however deeply they nest. -/
theorem Job.keepsResources_run (depth : Nat) (j : Job) : Script.KeepsResources (j.run depth) := by
  induction depth generalizing j with
  | zero => exact fun w ↦ .refl w.store
  | succ depth ih => exact Task.keepsResources_run ih j.task

/-- Every run of a keeping task keeps resources. -/
theorem Task.keepsResources_runAt (depth : Nat) (x : Task α) [Keeping x] :
    Script.KeepsResources (x.runAt depth) :=
  Task.keepsResources_run (Job.keepsResources_run depth) x

/-- A resource that was made by running is still there after every run, at the same location or, if
its data stands in the location, at one that holds other data. -/
theorem Task.stays_runAt (depth : Nat) {n : Nat} {uri : String} (x : Task α) [Keeping x]
    {w : World} (huri : (w.store.resource (.made n)).uri = some uri) :
    Location.Stays (some uri) ((x.runAt depth w).2.store.resource (.made n)).uri := by
  rw [← huri]
  exact (Task.keepsResources_runAt depth x w).stays n (Store.has_of_uri huri)

end ResourceScript
