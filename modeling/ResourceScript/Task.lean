import ResourceScript.Language.Compiler
/-!
# Tasks

A task is what a script does: it asks the world one thing after another, has values and calls run,
and ends with a value or stops. Tasks only reach the world through what they ask. The running of
values is left open here: it is given to a task when it is run.
-/

set_option autoImplicit false

namespace ResourceScript

/-- What a task asks of the world. -/
inductive Query where
  /-- The store. -/
  | store
  /-- Replaces the store. -/
  | setStore (store : Store)
  /-- The surroundings. -/
  | surroundings
  /-- Leaves the traces of compiling. -/
  | note (traces : Traces)
  /-- The scope in use; an empty one is made and used when there is none. -/
  | scope
  /-- What the modules of the host hold by name. -/
  | held
  /-- The file system. -/
  | files
  /-- Replaces the entries of the file system. -/
  | setFiles (files : FileSystem)
  /-- Writes to the output. -/
  | write (text : String)
  /-- Writes an error. -/
  | writeError (text : String)
  /-- Warns. -/
  | warn (warning : Warning)
  /-- Sends a request. -/
  | send (request : Request)

/-- What a query is answered with. -/
@[reducible] def Query.Answer : Query → Type
  | store => Store
  | setStore _ => Unit
  | surroundings => Surroundings
  | note _ => Unit
  | scope => Nat
  | held => List (String × Value)
  | files => FileSystem
  | setFiles _ => Unit
  | write _ => Unit
  | writeError _ => Unit
  | warn _ => Unit
  | send _ => Option Reply

namespace World

/-- The scope in use; an empty one is made and used when there is none. -/
def scope (w : World) : Nat × World :=
  match w.current with
  | some n => (n, w)
  | none =>
    let (store, n) := w.store.addScope ⟨none, [], [], []⟩
    (n, { w with store, current := some n })

/-- The answer to a query, and the world after it. -/
def answer (w : World) : (q : Query) → q.Answer × World
  | .store => (w.store, w)
  | .setStore store => ((), { w with store })
  | .surroundings => (w.surroundings, w)
  | .note traces => ((), w.note traces)
  | .scope => w.scope
  | .held => (w.held, w)
  | .files => (w.files, w)
  | .setFiles files => ((), { w with files := { w.files with entries := files.entries } })
  | .write text => ((), { w with output := text :: w.output })
  | .writeError text => ((), { w with errors := text :: w.errors })
  | .warn warning => ((), { w with warnings := warning :: w.warnings })
  | .send request =>
    (w.replies.head?, { w with requests := request :: w.requests, replies := w.replies.drop 1 })

end World

/-- What a task has run. -/
inductive Job where
  /-- A value is run until it is plain. -/
  | execute (value : Value)
  /-- A single call is run. -/
  | perform (f : Option Function) (params : List Value)

/-- A task: a result, or a step and how it goes on. A task goes on after a job that stops too,
unless the job is exhausted. -/
inductive Task (α : Type) : Type where
  /-- The end. -/
  | done (result : Except Stop α)
  /-- A query. -/
  | ask (q : Query) (next : q.Answer → Task α)
  /-- A job. -/
  | order (job : Job) (next : Except Stop Value → Task α)

namespace Task

variable {α β : Type}

/-- One task after another, unless the first stops. -/
def andThen (x : Task α) (next : α → Task β) : Task β :=
  match x with
  | done (.ok a) => next a
  | done (.error stop) => done (.error stop)
  | ask q more => ask q fun a => (more a).andThen next
  | order job more => order job fun result => (more result).andThen next

/-- A task with another in its place when it stops. -/
def orElse (x : Task α) (handle : Stop → Task α) : Task α :=
  match x with
  | done (.ok a) => done (.ok a)
  | done (.error stop) => handle stop
  | ask q more => ask q fun a => (more a).orElse handle
  | order job more => order job fun result => (more result).orElse handle

instance : Monad Task where
  pure a := done (.ok a)
  bind := andThen

instance : MonadExceptOf Stop Task where
  throw stop := done (.error stop)
  tryCatch := orElse

/-- Asks a query. -/
def query (q : Query) : Task q.Answer :=
  ask q fun a => pure a

/-- Has a job done. -/
def job (j : Job) : Task Value :=
  order j done

/-- Runs a task in a world; the running of jobs is given. -/
def run (jobs : Job → Script Value) : Task α → Script α
  | done result => fun w => (result, w)
  | ask q next => fun w => (next (w.answer q).1).run jobs (w.answer q).2
  | order j next => fun w =>
    match jobs j w with
    | (.error .exhausted, after) => (.error .exhausted, after)
    | (result, after) => (next result).run jobs after

/-! ### The laws of tasks -/

private theorem id_map (x : Task α) : id <$> x = x := by
  show x.andThen (fun a => done (.ok a)) = x
  induction x with
  | done result => cases result <;> rfl
  | ask q next ih => exact congrArg (ask q) (funext ih)
  | order j next ih => exact congrArg (order j) (funext ih)

private theorem bind_assoc {γ : Type} (x : Task α) (next : α → Task β) (last : β → Task γ) :
    x >>= next >>= last = x >>= fun a => next a >>= last := by
  show (x.andThen next).andThen last = x.andThen fun a => (next a).andThen last
  induction x with
  | done result => cases result <;> rfl
  | ask q more ih => exact congrArg (ask q) (funext ih)
  | order j more ih => exact congrArg (order j) (funext ih)

instance : LawfulMonad Task :=
  LawfulMonad.mk' Task id_map (fun _ _ => rfl) bind_assoc

section

variable {jobs : Job → Script Value}

@[simp] theorem run_pure (a : α) : (pure a : Task α).run jobs = pure a := rfl

@[simp] theorem run_throw (stop : Stop) : (throw stop : Task α).run jobs = throw stop := rfl

theorem run_query (q : Query) (w : World) :
    (query q).run jobs w = (.ok (w.answer q).1, (w.answer q).2) := rfl

theorem run_order_of_exhausted {j : Job} {w v : World} (hjob : jobs j w = (.error .exhausted, v))
    (next : Except Stop Value → Task α) : (order j next).run jobs w = (.error .exhausted, v) := by
  simp only [run, hjob]

theorem run_order_of_ne {j : Job} {w v : World} {result : Except Stop Value}
    (hjob : jobs j w = (result, v)) (hresult : result ≠ .error .exhausted)
    (next : Except Stop Value → Task α) :
    (order j next).run jobs w = (next result).run jobs v := by
  simp only [run, hjob]

@[simp] theorem run_job (j : Job) : (job j).run jobs = jobs j := by
  funext w
  rcases hjob : jobs j w with ⟨result, v⟩
  by_cases hresult : result = .error .exhausted
  · subst hresult
    exact run_order_of_exhausted hjob done
  · exact run_order_of_ne hjob hresult done

/-- Running tasks one after another is running the first and then the second. -/
@[simp] theorem run_bind (x : Task α) (next : α → Task β) :
    (x >>= next).run jobs = x.run jobs >>= fun a => (next a).run jobs := by
  show (x.andThen next).run jobs = x.run jobs >>= fun a => (next a).run jobs
  funext w
  induction x generalizing w with
  | done result => cases result <;> rfl
  | ask q more ih => exact ih (w.answer q).1 (w.answer q).2
  | order j more ih =>
    show (order j fun result => (more result).andThen next).run jobs w = _
    rw [Script.bind_apply]
    rcases hjob : jobs j w with ⟨result, v⟩
    by_cases hresult : result = .error .exhausted
    · subst hresult
      rw [run_order_of_exhausted hjob, run_order_of_exhausted hjob]
    · rw [run_order_of_ne hjob hresult, run_order_of_ne hjob hresult, ih, Script.bind_apply]

end

end Task

end ResourceScript
