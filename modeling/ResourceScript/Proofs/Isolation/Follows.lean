import ResourceScript.Proofs.Isolation.Sight
import ResourceScript.Proofs.Task.Alike
/-!
# Tasks that follow one another

A task follows another by a placement when it asks for the same, at the images of positions, and
goes on with the images of answers (`Placement.Follows`). Then it runs as the other does, in every
world that holds the other's own world: with the image of the result, and leaving a world that holds
the one that the other leaves (`Placement.Follows.run`). The scope in use has to be one of the own
world. Nothing else in the world around is read, and nothing there is changed.

Tasks are followed part by part: one task after another, a task with another in its place when it
stops, and tasks for the items of a list.
-/

set_option autoImplicit false

namespace ResourceScript

/-- Whether a query is about neither the store, nor the scope in use, nor what the host holds. -/
def Query.IsOpen : Query → Prop
  | store | setStore _ | scope | held => False
  | _ => True

namespace Placement

variable (P : Placement) {α β : Type}

/-- The image of a job. -/
def job : Job → Job
  | .execute v => .execute (P.value v)
  | .perform f params => .perform f (params.map P.value)

/-- Whether a task follows another by a placement; `move` carries the results. -/
inductive Follows {α : Type} (move : α → α) : Task α → Task α → Prop
  /-- The end. -/
  | done (result : Except Stop α) : Follows move (.done result) (.done (result.map move))
  /-- The store is read. -/
  | store {next next' : Store → Task α}
    (h : ∀ own whole, P.Holds own whole → Follows move (next own) (next' whole)) :
    Follows move (.ask .store next) (.ask .store next')
  /-- The store is replaced. -/
  | setStore {own whole : Store} (hstore : P.Holds own whole) {next next' : Unit → Task α}
    (h : Follows move (next ()) (next' ())) :
    Follows move (.ask (.setStore own) next) (.ask (.setStore whole) next')
  /-- The scope in use is asked for. -/
  | scope {next next' : Nat → Task α} (h : ∀ n, Follows move (next n) (next' (P.scope n))) :
    Follows move (.ask .scope next) (.ask .scope next')
  /-- What the host holds is asked for. -/
  | held {next next' : List (String × Value) → Task α}
    (h : ∀ entries, Follows move (next entries) (next' (entries.map P.field))) :
    Follows move (.ask .held next) (.ask .held next')
  /-- Something else is asked. -/
  | ask {q : Query} (hq : q.IsOpen) {next next' : q.Answer → Task α}
    (h : ∀ a, Follows move (next a) (next' a)) : Follows move (.ask q next) (.ask q next')
  /-- A job is ordered. -/
  | order (j : Job) {next next' : Except Stop Value → Task α}
    (h : ∀ result, Follows move (next result) (next' (result.map P.value))) :
    Follows move (.order j next) (.order (P.job j) next')

variable {P}

/-! ### Single steps -/

section

variable {move : α → α} {image : β → β}

@[simp] theorem follows_pure {a b : α} (hb : move a = b) :
    P.Follows move (pure a) (pure b) := by
  subst hb
  exact .done (.ok a)

@[simp] theorem follows_throw (stop : Stop) : P.Follows move (throw stop) (throw stop) :=
  .done (.error stop)

@[simp] theorem follows_fail (cause : Fault) :
    P.Follows move (Script.fail cause) (Script.fail cause) :=
  .done (.error (.fault cause))

@[simp] theorem follows_fail_bind (cause : Fault) (next next' : β → Task α) :
    P.Follows move (Script.fail cause >>= next) (Script.fail cause >>= next') :=
  .done (.error (.fault cause))

theorem follows_ofExcept {r r' : Except Fault α} (hr : r' = r.map move) :
    P.Follows move (Script.ofExcept r) (Script.ofExcept r') := by
  subst hr
  cases r with
  | ok a => exact follows_pure rfl
  | error cause => exact follows_fail cause

/-- A computation on plain data gives the same everywhere. -/
theorem follows_ofExcept_same (r : Except Fault α) :
    P.Follows (fun a ↦ a) (Script.ofExcept r) (Script.ofExcept r) :=
  follows_ofExcept (by cases r <;> rfl)

theorem follows_query {q : Query} (hq : q.IsOpen) :
    P.Follows (fun a ↦ a) (Task.query q) (Task.query q) :=
  .ask hq fun _ ↦ follows_pure rfl

theorem follows_setStore {own whole : Store} (h : P.Holds own whole) :
    P.Follows (fun a ↦ a) (Script.setStore own) (Script.setStore whole) :=
  .setStore h (follows_pure rfl)

theorem follows_currentScope : P.Follows P.scope Script.currentScope Script.currentScope :=
  .scope fun _ ↦ follows_pure rfl

theorem follows_held : P.Follows (List.map P.field) Script.held Script.held :=
  .held fun _ ↦ follows_pure rfl

theorem follows_job (j : Job) : P.Follows P.value (Task.job j) (Task.job (P.job j)) :=
  .order j fun result ↦ .done result

theorem follows_store {next next' : Store → Task α}
    (h : ∀ own whole, P.Holds own whole → P.Follows move (next own) (next' whole)) :
    P.Follows move (Script.store >>= next) (Script.store >>= next') :=
  .store h

/-! ### Combinations -/

theorem Follows.bind {x x' : Task α} {next next' : α → Task β} (hx : P.Follows move x x')
    (hnext : ∀ a, P.Follows image (next a) (next' (move a))) :
    P.Follows image (x >>= next) (x' >>= next') := by
  show P.Follows image (x.andThen next) (x'.andThen next')
  induction hx with
  | done result =>
    cases result with
    | ok a => exact hnext a
    | error stop => exact .done (.error stop)
  | store _ ih => exact .store ih
  | setStore hstore _ ih => exact .setStore hstore ih
  | scope _ ih => exact .scope ih
  | held _ ih => exact .held ih
  | ask hq _ ih => exact .ask hq ih
  | order j _ ih => exact .order j ih

theorem Follows.tryCatch {x x' : Task α} {handle handle' : Stop → Task α}
    (hx : P.Follows move x x') (hhandle : ∀ stop, P.Follows move (handle stop) (handle' stop)) :
    P.Follows move (tryCatch x handle) (tryCatch x' handle') := by
  show P.Follows move (x.orElse handle) (x'.orElse handle')
  induction hx with
  | done result =>
    cases result with
    | ok a => exact .done (.ok a)
    | error stop => exact hhandle stop
  | store _ ih => exact .store ih
  | setStore hstore _ ih => exact .setStore hstore ih
  | scope _ ih => exact .scope ih
  | held _ ih => exact .held ih
  | ask hq _ ih => exact .ask hq ih
  | order j _ ih => exact .order j ih

theorem Follows.map {x x' : Task α} (hx : P.Follows move x x') {f f' : α → β}
    (hf : ∀ a, image (f a) = f' (move a)) : P.Follows image (f <$> x) (f' <$> x') := by
  rw [map_eq_pure_bind, map_eq_pure_bind]
  exact hx.bind fun a ↦ follows_pure (hf a)

theorem Follows.discard {x x' : Task α} (hx : P.Follows move x x') :
    P.Follows (fun a ↦ a) (discard x) (discard x') :=
  hx.map fun _ ↦ rfl

theorem follows_mapM {f f' : α → Task β} (hf : ∀ a, P.Follows image (f a) (f' (move a)))
    (items : List α) :
    P.Follows (List.map image) (items.mapM f) ((items.map move).mapM f') := by
  induction items with
  | nil => exact follows_pure rfl
  | cons a rest ih =>
    rw [List.map_cons, List.mapM_cons, List.mapM_cons]
    exact (hf a).bind fun b ↦ ih.bind fun bs ↦ follows_pure rfl

/-- Tasks whose results are the same everywhere. -/
theorem follows_mapM_plain {f f' : α → Task β} (hf : ∀ a, P.Follows (fun b ↦ b) (f a) (f' (move a)))
    (items : List α) :
    P.Follows (fun bs ↦ bs) (items.mapM f) ((items.map move).mapM f') := by
  have hmap := follows_mapM hf items
  rwa [show List.map (fun b : β ↦ b) = fun bs ↦ bs from funext List.map_id'] at hmap

/-- Tasks for items that are the same everywhere. -/
theorem follows_mapM_same {f f' : α → Task β} (hf : ∀ a, P.Follows image (f a) (f' a))
    (items : List α) : P.Follows (List.map image) (items.mapM f) (items.mapM f') := by
  induction items with
  | nil => exact follows_pure rfl
  | cons a rest ih =>
    rw [List.mapM_cons, List.mapM_cons]
    exact (hf a).bind fun b ↦ ih.bind fun bs ↦ follows_pure rfl

theorem follows_forM {f f' : α → Task Unit}
    (hf : ∀ a, P.Follows (fun u ↦ u) (f a) (f' (move a))) (items : List α) :
    P.Follows (fun u ↦ u) (items.forM f) ((items.map move).forM f') := by
  induction items with
  | nil => exact follows_pure rfl
  | cons a rest ih =>
    show P.Follows _ (f a >>= fun _ ↦ rest.forM f) (f' (move a) >>= fun _ ↦ (rest.map move).forM f')
    exact (hf a).bind fun _ ↦ ih

theorem follows_foldlM {f f' : β → α → Task β}
    (hf : ∀ b a, P.Follows image (f b a) (f' (image b) (move a))) {start start' : β}
    (hstart : image start = start') (items : List α) :
    P.Follows image (items.foldlM f start) ((items.map move).foldlM f' start') := by
  subst hstart
  induction items generalizing start with
  | nil => exact follows_pure rfl
  | cons a rest ih =>
    rw [List.map_cons, List.foldlM_cons, List.foldlM_cons]
    exact (hf start a).bind fun b ↦ ih

end

/-! ### Runs -/

variable (P)

/-- Whether a world holds an own world: its store holds the own one's, the surroundings, files and
replies are the same, what has been written, warned and requested begins with what the own world
has, and resources of source text are numbered alike. What the modules of the host hold within reach
of scripts is of the own world, too: a script that could get to anything else by them would share it
with what is around. -/
structure HoldsWorld (own whole : World) : Prop where
  store : P.Holds own.store whole.store
  find : whole.find = own.find
  classes : whole.classes = own.classes
  files : whole.files = own.files
  replies : whole.replies = own.replies
  requests : whole.requests = own.requests ++ P.around.requests
  output : whole.output = own.output ++ P.around.output
  errors : whole.errors = own.errors ++ P.around.errors
  warnings : whole.warnings = own.warnings ++ P.around.warnings
  debug : whole.debug = own.debug
  now : whole.now = own.now
  takes : whole.takes = own.takes
  held : whole.held = own.held.map P.field
  natives : whole.natives = own.natives
  rounds : whole.rounds = own.rounds
  written : ∀ i, P.written (own.written + i) = whole.written + i

/-- Whether a world holds an own world, and the scope in use is one of it. -/
structure HoldsInside (own whole : World) : Prop extends P.HoldsWorld own whole where
  current : ∃ n, own.current = some n ∧ whole.current = some (P.scope n)

/-- Whether a run ends with the image of the result of another, and in a world that holds the one in
which the other ends. -/
structure Ends {α : Type} (move : α → α) (run run' : Except Stop α × World) : Prop where
  result : run'.1 = run.1.map move
  world : P.HoldsInside run.2 run'.2

variable {P} {own whole : World}

theorem HoldsWorld.surroundings (h : P.HoldsWorld own whole) :
    whole.surroundings = own.surroundings := by
  unfold World.surroundings
  rw [h.find, h.classes, h.files, h.now, h.debug, h.takes, h.natives, h.rounds]

theorem HoldsWorld.note (h : P.HoldsWorld own whole) (t : Traces) :
    P.HoldsWorld (own.note t) (whole.note t) :=
  { h with
    find := by rw [World.find_note, World.find_note, h.find]
    errors := by
      unfold World.note
      rw [h.debug, h.errors]
      split <;> simp }

namespace HoldsInside

/-- An open query has the same answer in a world that holds the own one. -/
theorem answer_fst (h : P.HoldsInside own whole) {q : Query} (hq : q.IsOpen) :
    (whole.answer q).1 = (own.answer q).1 := by
  cases q with
  | store | setStore _ | scope | held => exact hq.elim
  | surroundings => exact h.surroundings
  | files => exact h.files
  | send request => exact congrArg List.head? h.replies
  | _ => rfl

/-- After an open query a world still holds the own one. -/
theorem answer_snd (h : P.HoldsInside own whole) {q : Query} (hq : q.IsOpen) :
    P.HoldsInside (own.answer q).2 (whole.answer q).2 := by
  cases q with
  | store | setStore _ | scope | held => exact hq.elim
  | surroundings | files => exact h
  | note traces => exact ⟨h.toHoldsWorld.note traces, h.current⟩
  | setFiles files => exact { h with files := by simp [World.answer, h.files] }
  | write text => exact { h with output := congrArg (text :: ·) h.output }
  | writeError text => exact { h with errors := congrArg (text :: ·) h.errors }
  | warn warning => exact { h with warnings := congrArg (warning :: ·) h.warnings }
  | send request =>
    exact { h with
      requests := congrArg (request :: ·) h.requests
      replies := congrArg (List.drop 1) h.replies }

end HoldsInside

/-- A task that follows another runs as the other does. -/
theorem Follows.run {move : α → α} {x x' : Task α} {jobs : Job → Script Value}
    (hx : P.Follows move x x')
    (hjobs : ∀ j own whole, P.HoldsInside own whole →
      P.Ends P.value (jobs j own) (jobs (P.job j) whole))
    (h : P.HoldsInside own whole) : P.Ends move (x.run jobs own) (x'.run jobs whole) := by
  induction hx generalizing own whole with
  | done result => exact ⟨rfl, h⟩
  | store _ ih => exact ih _ _ h.store h
  | setStore hstore _ ih => exact ih { h with store := hstore }
  | scope _ ih =>
    obtain ⟨n, hown, hwhole⟩ := h.current
    simp only [Task.run, World.answer, World.scope, hown, hwhole]
    exact ih n h
  | held _ ih =>
    simp only [Task.run, World.answer, h.held]
    exact ih own.held h
  | ask hq _ ih =>
    simp only [Task.run, h.answer_fst hq]
    exact ih _ (h.answer_snd hq)
  | order j _ ih =>
    have hj := hjobs j own whole h
    rcases hrun : jobs j own with ⟨result, after⟩
    rcases hrun' : jobs (P.job j) whole with ⟨result', after'⟩
    rw [hrun, hrun'] at hj
    obtain ⟨rfl, hafter⟩ : result' = result.map P.value ∧ P.HoldsInside after after' :=
      ⟨hj.result, hj.world⟩
    by_cases hresult : result = .error .exhausted
    · subst hresult
      rw [Task.run_order_of_exhausted hrun, Task.run_order_of_exhausted hrun']
      exact ⟨rfl, hafter⟩
    · have hresult' : result.map P.value ≠ .error .exhausted := by
        cases result <;> simp_all [Except.map]
      rw [Task.run_order_of_ne hrun hresult, Task.run_order_of_ne hrun' hresult']
      exact ih result hafter

end Placement

end ResourceScript
