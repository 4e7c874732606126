import ResourceScript.Library
/-!
# Worlds that scripts cannot tell apart

What a task sees of the world is what it asks for. So a task runs alike in two worlds that answer
all queries alike, and it keeps whatever no query changes. Both are proved by one step lemma, about
the answer to a query, and one run lemma, by induction on the task; for jobs inside jobs the induction
is on the depth.

Worlds answer alike when they differ at most in which functions of the host have been registered, in
the number of resources of source text and, unless reports are asked for, in nothing else
(`World.Alike`). Compiling changes a world only in this way, so running does not notice it.
-/

set_option autoImplicit false

namespace ResourceScript

/-! ### Registered functions -/

namespace Registry

/-- Looking for a name does not change what the names denote. -/
theorem lookup_seek (classes : List HostClass) (registry : List (String × Function))
    (name other : String) :
    ((seek classes registry name).lookup other).or (hostFunction? classes other) =
      (registry.lookup other).or (hostFunction? classes other) := by
  unfold seek
  split
  · rename_i f hlookup hhost
    rw [List.lookup_append]
    by_cases hname : other = name
    · subst hname
      simp [hlookup, hhost]
    · have hother : (other == name) = false := beq_false_of_ne hname
      simp [List.lookup_cons, hother]
  · rfl

theorem lookup_foldl_seek (classes : List HostClass) (names : List String)
    (registry : List (String × Function)) (other : String) :
    ((names.foldl (seek classes) registry).lookup other).or (hostFunction? classes other) =
      (registry.lookup other).or (hostFunction? classes other) := by
  induction names generalizing registry with
  | nil => rfl
  | cons name rest ih => rw [List.foldl_cons, ih, lookup_seek]

end Registry

namespace World

@[simp] theorem find_note (w : World) (t : Traces) : (w.note t).find = w.find :=
  funext fun name ↦ Registry.lookup_foldl_seek w.classes t.names w.registry name

@[simp] theorem surroundings_note (w : World) (t : Traces) :
    (w.note t).surroundings = w.surroundings := by
  unfold surroundings
  rw [find_note]
  rfl

/-! ### Alike worlds -/

/-- Whether scripts cannot tell two worlds apart. -/
structure Alike (w v : World) : Prop where
  store : v.store = w.store
  find : v.find = w.find
  classes : v.classes = w.classes
  current : v.current = w.current
  files : v.files = w.files
  replies : v.replies = w.replies
  requests : v.requests = w.requests
  output : v.output = w.output
  errors : w.debug = false → v.errors = w.errors
  warnings : v.warnings = w.warnings
  debug : v.debug = w.debug
  now : v.now = w.now
  takes : v.takes = w.takes
  held : v.held = w.held
  natives : v.natives = w.natives
  rounds : v.rounds = w.rounds

namespace Alike

variable {u w v : World}

theorem symm (h : w.Alike v) : v.Alike w :=
  ⟨h.store.symm, h.find.symm, h.classes.symm, h.current.symm, h.files.symm, h.replies.symm,
    h.requests.symm, h.output.symm, fun hdebug ↦ (h.errors (h.debug ▸ hdebug)).symm,
    h.warnings.symm, h.debug.symm, h.now.symm, h.takes.symm, h.held.symm, h.natives.symm,
    h.rounds.symm⟩

theorem trans (h : u.Alike w) (h' : w.Alike v) : u.Alike v :=
  ⟨h'.store.trans h.store, h'.find.trans h.find, h'.classes.trans h.classes,
    h'.current.trans h.current, h'.files.trans h.files, h'.replies.trans h.replies,
    h'.requests.trans h.requests, h'.output.trans h.output,
    fun hdebug ↦ (h'.errors (h.debug.trans hdebug)).trans (h.errors hdebug),
    h'.warnings.trans h.warnings, h'.debug.trans h.debug, h'.now.trans h.now,
    h'.takes.trans h.takes, h'.held.trans h.held, h'.natives.trans h.natives,
    h'.rounds.trans h.rounds⟩

theorem note (w : World) (t : Traces) : w.Alike (w.note t) where
  store := rfl
  find := w.find_note t
  classes := rfl
  current := rfl
  files := rfl
  replies := rfl
  requests := rfl
  output := rfl
  errors := fun hdebug ↦ by simp [World.note, hdebug]
  warnings := rfl
  debug := rfl
  now := rfl
  takes := rfl
  held := rfl
  natives := rfl
  rounds := rfl

theorem surroundings (h : w.Alike v) : v.surroundings = w.surroundings := by
  unfold World.surroundings
  rw [h.find, h.classes, h.files, h.now, h.debug, h.takes, h.natives, h.rounds]

/-- Alike worlds answer a query alike, and are alike afterwards. -/
theorem answer (h : w.Alike v) (q : Query) :
    (v.answer q).1 = (w.answer q).1 ∧ (w.answer q).2.Alike (v.answer q).2 := by
  cases q with
  | store => exact ⟨h.store, h⟩
  | setStore store => exact ⟨rfl, { h with store := rfl }⟩
  | surroundings => exact ⟨h.surroundings, h⟩
  | note t => exact ⟨rfl, ((Alike.note w t).symm.trans h).trans (Alike.note v t)⟩
  | scope =>
    simp only [World.answer, World.scope, h.current, h.store]
    split
    · exact ⟨rfl, h⟩
    · exact ⟨rfl, { h with store := rfl, current := rfl }⟩
  | held => exact ⟨h.held, h⟩
  | files => exact ⟨h.files, h⟩
  | setFiles files => exact ⟨rfl, { h with files := by simp [World.answer, h.files] }⟩
  | write text => exact ⟨rfl, { h with output := congrArg (text :: ·) h.output }⟩
  | writeError text =>
    exact ⟨rfl, { h with errors := fun hdebug ↦ congrArg (text :: ·) (h.errors hdebug) }⟩
  | warn warning => exact ⟨rfl, { h with warnings := congrArg (warning :: ·) h.warnings }⟩
  | send request =>
    exact ⟨congrArg List.head? h.replies,
      { h with
        requests := congrArg (request :: ·) h.requests
        replies := congrArg (List.drop 1) h.replies }⟩

end Alike

end World

/-! ### Running in alike worlds -/

/-- Whether two runs end with the same result, in worlds that scripts cannot tell apart. -/
structure EndsAlike {α : Type} (run other : Except Stop α × World) : Prop where
  result : other.1 = run.1
  world : run.2.Alike other.2

namespace EndsAlike

variable {α : Type} {run other third : Except Stop α × World}

theorem symm (h : EndsAlike run other) : EndsAlike other run :=
  ⟨h.result.symm, h.world.symm⟩

theorem trans (h : EndsAlike run other) (h' : EndsAlike other third) : EndsAlike run third :=
  ⟨h'.result.trans h.result, h.world.trans h'.world⟩

/-- Scripts end alike one after another, if they go on alike where the first of them end. -/
theorem bind {β : Type} {x y : Script α} {f g : α → Script β} {w v : World}
    (hxy : EndsAlike (x w) (y v))
    (hfg : ∀ a w' v', y v = (.ok a, v') → w'.Alike v' → EndsAlike (f a w') (g a v')) :
    EndsAlike ((x >>= f) w) ((y >>= g) v) := by
  rcases hx : x w with ⟨result, w'⟩
  rcases hy : y v with ⟨result', v'⟩
  rw [hx, hy] at hxy
  obtain ⟨rfl, halike⟩ := hxy
  cases result' with
  | error stop =>
    rw [Script.bind_of_error hx, Script.bind_of_error hy]
    exact ⟨rfl, halike⟩
  | ok a =>
    rw [Script.bind_of_ok hx, Script.bind_of_ok hy]
    exact hfg a w' v' hy halike

end EndsAlike

namespace Script

variable {α β : Type}

/-- Whether a script runs alike in alike worlds. -/
def Respects (x : Script α) : Prop :=
  ∀ w v : World, w.Alike v → EndsAlike (x w) (x v)

end Script

namespace Task

variable {α : Type} {jobs : Job → Script Value}

/-- A task runs alike in alike worlds if jobs do. -/
theorem respects_run (hjobs : ∀ j, Script.Respects (jobs j)) (x : Task α) :
    Script.Respects (x.run jobs) := by
  intro w v h
  induction x generalizing w v with
  | done result => exact ⟨rfl, h⟩
  | ask q next ih =>
    obtain ⟨hanswer, hafter⟩ := h.answer q
    simp only [run, hanswer]
    exact ih _ _ _ hafter
  | order j next ih =>
    obtain ⟨hresult, hafter⟩ := hjobs j w v h
    rcases hw : jobs j w with ⟨result, w'⟩
    rcases hv : jobs j v with ⟨result', v'⟩
    rw [hw, hv] at hresult hafter
    obtain rfl : result' = result := hresult
    by_cases hexhausted : result' = .error .exhausted
    · subst hexhausted
      rw [run_order_of_exhausted hw, run_order_of_exhausted hv]
      exact ⟨rfl, hafter⟩
    · rw [run_order_of_ne hw hexhausted, run_order_of_ne hv hexhausted]
      exact ih _ _ _ hafter

end Task

theorem Job.respects_run (depth : Nat) (j : Job) : Script.Respects (j.run depth) := by
  induction depth generalizing j with
  | zero => exact fun w v h ↦ ⟨rfl, h⟩
  | succ depth ih => exact Task.respects_run ih j.task

theorem Task.respects_runAt {α : Type} (depth : Nat) (x : Task α) :
    Script.Respects (x.runAt depth) :=
  Task.respects_run (Job.respects_run depth) x

/-! ### What no query changes -/

/-- Whether a script keeps a property of worlds, however it ends. -/
def Script.Keeps {α : Type} (P : World → Prop) (x : Script α) : Prop :=
  ∀ w, P w → P (x w).2

section

variable {P : World → Prop} (hanswer : ∀ (w : World) (q : Query), P w → P (w.answer q).2)

include hanswer

/-- A task keeps what no query changes if jobs do. -/
theorem Task.keeps_run {α : Type} {jobs : Job → Script Value} (hjobs : ∀ j, Script.Keeps P (jobs j))
    (x : Task α) : Script.Keeps P (x.run jobs) := by
  intro w hw
  induction x generalizing w with
  | done result => exact hw
  | ask q next ih => exact ih _ _ (hanswer w q hw)
  | order j next ih =>
    have hafter := hjobs j w hw
    rcases hjob : jobs j w with ⟨result, v⟩
    rw [hjob] at hafter
    by_cases hresult : result = .error .exhausted
    · subst hresult
      rw [run_order_of_exhausted hjob]
      exact hafter
    · rw [run_order_of_ne hjob hresult]
      exact ih _ _ hafter

theorem Job.keeps_run (depth : Nat) (j : Job) : Script.Keeps P (j.run depth) := by
  induction depth generalizing j with
  | zero => exact fun w hw ↦ hw
  | succ depth ih => exact Task.keeps_run hanswer ih j.task

theorem Task.keeps_runAt {α : Type} (depth : Nat) (x : Task α) :
    Script.Keeps P (x.runAt depth) :=
  Task.keeps_run hanswer (Job.keeps_run hanswer depth) x

end

theorem World.surroundings_answer (w : World) (q : Query) :
    (w.answer q).2.surroundings = w.surroundings := by
  cases q with
  | note t => exact w.surroundings_note t
  | scope =>
    simp only [World.answer, World.scope]
    split <;> rfl
  | _ => rfl

/-- Scripts do not change their surroundings. -/
theorem Task.surroundings_runAt {α : Type} (depth : Nat) (x : Task α) (w : World) :
    (x.runAt depth w).2.surroundings = w.surroundings :=
  Task.keeps_runAt (P := fun v ↦ v.surroundings = w.surroundings)
    (fun v q hv ↦ (v.surroundings_answer q).trans hv) depth x w rfl

/-- Whether a world has given surroundings, a number of numbered resources and a current scope. -/
def World.IsSettled (s : Surroundings) (written scope : Nat) (w : World) : Prop :=
  w.surroundings = s ∧ w.written = written ∧ w.current = some scope

theorem World.isSettled_answer {s : Surroundings} {written scope : Nat} (w : World) (q : Query)
    (h : w.IsSettled s written scope) : (w.answer q).2.IsSettled s written scope := by
  obtain ⟨hsurroundings, hwritten, hcurrent⟩ := h
  refine ⟨(w.surroundings_answer q).trans hsurroundings, ?_⟩
  cases q with
  | scope =>
    have hscope : w.scope = (scope, w) := by simp only [World.scope, hcurrent]
    rw [World.answer, hscope]
    exact ⟨hwritten, hcurrent⟩
  | _ => exact ⟨hwritten, hcurrent⟩

end ResourceScript
