import ResourceScript.Registry
/-!
# Compilers

Compiling reads the surroundings of a script and nothing that scripts change: the functions by name,
the directories, the classes of the host, the present moment. It leaves traces, which it does not
read itself: the names that it looked for, and reports. What it has left when it fails stays.
-/

set_option autoImplicit false

namespace ResourceScript

/-- What scripts read and never change. -/
structure Surroundings where
  /-- The function of a name. -/
  find : String → Option Function
  /-- The classes of the host. -/
  classes : List HostClass
  /-- The directories that relative locations start from. -/
  directories : Directories
  /-- The present moment. -/
  now : Moment
  /-- Whether the working of blocs and commands is reported. -/
  debug : Bool
  /-- Whether the output takes a text. -/
  takes : String → Bool
  /-- The members of native kinds that are not spelled out. -/
  natives : NativeMembers
  /-- The number of rounds for which a loop is followed. -/
  rounds : Nat

/-- What compiling leaves behind. -/
structure Traces where
  /-- The names that were looked for. -/
  names : List String
  /-- The reports of the working of blocs. -/
  reports : List String
  deriving Repr

namespace Traces

/-- No traces. -/
def empty : Traces := ⟨[], []⟩

/-- Traces one after the other. -/
def append (first second : Traces) : Traces :=
  ⟨first.names ++ second.names, first.reports ++ second.reports⟩

instance : Append Traces := ⟨append⟩

@[ext] theorem ext {s t : Traces} (hnames : s.names = t.names) (hreports : s.reports = t.reports) :
    s = t := by
  cases s
  cases t
  cases hnames
  cases hreports
  rfl

@[simp] theorem names_append (s t : Traces) : (s ++ t).names = s.names ++ t.names := rfl

@[simp] theorem reports_append (s t : Traces) : (s ++ t).reports = s.reports ++ t.reports := rfl

@[simp] theorem empty_append (t : Traces) : empty ++ t = t := rfl

@[simp] theorem append_empty (t : Traces) : t ++ empty = t := by
  ext1 <;> simp [empty]

theorem append_assoc (s t u : Traces) : s ++ t ++ u = s ++ (t ++ u) := by
  ext1 <;> simp

end Traces

/-- A computation in surroundings that leaves traces and may fail. -/
def Compiler (α : Type) : Type :=
  Surroundings → Except Fault α × Traces

namespace Compiler

variable {α β : Type}

/-- One computation after another, unless the first fails. -/
def andThen (x : Compiler α) (next : α → Compiler β) : Compiler β := fun s =>
  match (x s).1 with
  | .ok a => ((next a s).1, (x s).2 ++ (next a s).2)
  | .error cause => (.error cause, (x s).2)

instance : Monad Compiler where
  pure a := fun _ => (.ok a, .empty)
  bind := andThen

/-- Stops with a failure. -/
def fail (cause : Fault) : Compiler α := fun _ => (.error cause, .empty)

/-- A computation on plain data as a compiler. -/
def ofExcept (result : Except Fault α) : Compiler α := fun _ => (result, .empty)

/-- The surroundings. -/
def surroundings : Compiler Surroundings := fun s => (.ok s, .empty)

/-- The function of a name. -/
def find (name : String) : Compiler (Option Function) := fun s =>
  (.ok (s.find name), ⟨[name], []⟩)

/-- Reports something. -/
def report (text : String) : Compiler Unit := fun _ => (.ok (), ⟨[], [text]⟩)

/-- Whether a computation answers a value in given surroundings. -/
def Yields (x : Compiler α) (s : Surroundings) (a : α) : Prop :=
  (x s).1 = .ok a

section

variable {s : Surroundings}

theorem bind_apply (x : Compiler α) (next : α → Compiler β) :
    (x >>= next) s =
      match (x s).1 with
      | .ok a => ((next a s).1, (x s).2 ++ (next a s).2)
      | .error cause => (.error cause, (x s).2) := rfl

theorem bind_of_ok {x : Compiler α} {a : α} {t : Traces} (hx : x s = (.ok a, t))
    (next : α → Compiler β) : (x >>= next) s = ((next a s).1, t ++ (next a s).2) := by
  rw [bind_apply, hx]

theorem bind_of_error {x : Compiler α} {cause : Fault} {t : Traces} (hx : x s = (.error cause, t))
    (next : α → Compiler β) : (x >>= next) s = (.error cause, t) := by
  rw [bind_apply, hx]

theorem map_of_ok {x : Compiler α} {a : α} {t : Traces} (hx : x s = (.ok a, t)) (f : α → β) :
    (f <$> x) s = (.ok (f a), t) :=
  (bind_of_ok hx (fun a => pure (f a))).trans (Prod.ext rfl (Traces.append_empty t))

theorem bind_eq_ok_iff {x : Compiler α} {next : α → Compiler β} {b : β} {t : Traces} :
    (x >>= next) s = (.ok b, t) ↔
      ∃ a first second,
        x s = (.ok a, first) ∧ next a s = (.ok b, second) ∧ t = first ++ second := by
  rcases hx : x s with ⟨cause | a, first⟩
  · simp [bind_of_error hx]
  · rw [bind_of_ok hx]
    rcases hnext : next a s with ⟨result, second⟩
    constructor
    · rintro h
      obtain ⟨rfl, rfl⟩ := Prod.mk.inj h
      exact ⟨a, first, second, rfl, hnext, rfl⟩
    · rintro ⟨a', first', second', hx', hnext', rfl⟩
      obtain ⟨ha, rfl⟩ := Prod.mk.inj hx'
      obtain rfl := Except.ok.inj ha
      rw [hnext] at hnext'
      obtain ⟨rfl, rfl⟩ := Prod.mk.inj hnext'
      rfl

/-- Computations that succeed alike do so after one another. -/
theorem bind_eq_ok_congr {x y : Compiler α} {next next' : α → Compiler β}
    (hxy : ∀ a t, x s = (.ok a, t) ↔ y s = (.ok a, t))
    (hnext : ∀ a b t, next a s = (.ok b, t) ↔ next' a s = (.ok b, t)) (b : β) (t : Traces) :
    (x >>= next) s = (.ok b, t) ↔ (y >>= next') s = (.ok b, t) := by
  simp only [bind_eq_ok_iff, hxy, hnext]

private theorem id_map (x : Compiler α) : id <$> x = x := by
  funext s
  rcases hx : x s with ⟨cause | a, t⟩
  · exact bind_of_error hx _
  · exact (bind_of_ok hx _).trans (Prod.ext rfl (Traces.append_empty t))

private theorem pure_bind (a : α) (next : α → Compiler β) : (pure a >>= next) = next a := by
  funext s
  exact (bind_of_ok rfl next).trans (by simp)

private theorem bind_assoc {γ : Type} (x : Compiler α) (next : α → Compiler β)
    (last : β → Compiler γ) : x >>= next >>= last = x >>= fun a => next a >>= last := by
  funext s
  rcases hx : x s with ⟨cause | a, t⟩
  · rw [bind_of_error (bind_of_error hx next), bind_of_error hx]
  · rcases hnext : next a s with ⟨cause | b, u⟩
    · rw [bind_of_ok hx, bind_of_error hnext, bind_of_error]
      rw [bind_of_ok hx, hnext]
    · rw [bind_of_ok hx, bind_of_ok hnext, bind_of_ok (a := b) (t := t ++ u)]
      · rw [Traces.append_assoc]
      · rw [bind_of_ok hx, hnext]

instance : LawfulMonad Compiler :=
  LawfulMonad.mk' Compiler id_map pure_bind bind_assoc

@[simp] theorem yields_pure (a b : α) : (pure a : Compiler α).Yields s b ↔ a = b := by
  simp [Yields, pure]

@[simp] theorem yields_bind (x : Compiler α) (next : α → Compiler β) (b : β) :
    (x >>= next).Yields s b ↔ ∃ a, x.Yields s a ∧ (next a).Yields s b := by
  rcases hx : x s with ⟨cause | a, t⟩
  · simp [Yields, bind_of_error hx, hx]
  · simp [Yields, bind_of_ok hx, hx]

@[simp] theorem yields_ofExcept (result : Except Fault α) (a : α) :
    (ofExcept result).Yields s a ↔ result = .ok a := Iff.rfl

@[simp] theorem yields_fail (cause : Fault) (a : α) : ¬ (fail cause : Compiler α).Yields s a := by
  simp [Yields, fail]

@[simp] theorem yields_surroundings (t : Surroundings) : surroundings.Yields s t ↔ s = t := by
  simp [Yields, surroundings]

@[simp] theorem yields_find (name : String) (f : Option Function) :
    (find name).Yields s f ↔ s.find name = f := by
  simp [Yields, find]

@[simp] theorem yields_report (text : String) (a : Unit) : (report text).Yields s a := rfl

end

end Compiler

namespace World

/-- The surroundings of the scripts of a world. -/
def surroundings (w : World) : Surroundings :=
  ⟨w.find, w.classes, w.files.directories, w.now, w.debug, w.takes, w.natives, w.rounds⟩

/-- A world that has taken up traces: the functions of the host that were found are registered, and
the reports are written as errors if they are asked for. -/
def note (w : World) (t : Traces) : World :=
  { w with
    registry := t.names.foldl (Registry.seek w.classes) w.registry
    errors := if w.debug then t.reports.reverse ++ w.errors else w.errors }

end World

end ResourceScript
