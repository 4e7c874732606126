import ResourceScript.Resource
/-!
# Tasks that leave the files as they are

What a task reads, and the data that it makes from that, does not concern the files: only writing to
a file does. A task leaves the files when every run of it does, whatever becomes of the jobs that it
orders (`Script.LeavesFiles`). It is a class: tasks that are put together from such tasks are such
tasks, and this is found by inference.

Reading a file is one of them, with all that the codecs make of its bytes (`Script.getFile`), and so
is finding the media type of a resource (`Script.mimetypeOf`).
-/

set_option autoImplicit false

namespace ResourceScript

namespace Script

/-- A task whose runs all leave the files as they are. -/
class LeavesFiles {α : Type} (x : Task α) : Prop where
  /-- Whatever the jobs are, the files stay. -/
  files_run : ∀ (jobs : Job → Script Value) (w : World), (x.run jobs w).2.files = w.files

/-! ### Inference -/

section

variable {α β : Type} {x y : Task α}

theorem files_eq_of_run [hx : LeavesFiles x] {jobs : Job → Script Value} {w v : World}
    {result : Except Stop α} (hrun : x.run jobs w = (result, v)) : v.files = w.files := by
  rw [← hx.files_run jobs w, hrun]

instance (a : α) : LeavesFiles (pure a : Task α) :=
  ⟨fun _ _ ↦ rfl⟩

instance (stop : Stop) : LeavesFiles (throw stop : Task α) :=
  ⟨fun _ _ ↦ rfl⟩

instance LeavesFiles.bind {next : α → Task β} [LeavesFiles x] [hnext : ∀ a, LeavesFiles (next a)] :
    LeavesFiles (x >>= next) := by
  refine ⟨fun jobs w ↦ ?_⟩
  rw [Task.run_bind]
  rcases hrun : x.run jobs w with ⟨stop | a, v⟩
  · rw [bind_of_error hrun]
    exact files_eq_of_run hrun
  · rw [bind_of_ok hrun, (hnext a).files_run]
    exact files_eq_of_run hrun

/-- For a second task that inference has to be helped with. -/
theorem leavesFiles_bind [LeavesFiles x] {next : α → Task β} (hnext : ∀ a, LeavesFiles (next a)) :
    LeavesFiles (x >>= next) :=
  inferInstance

instance {f : α → β} [LeavesFiles x] : LeavesFiles (f <$> x) := by
  rw [map_eq_pure_bind]
  infer_instance

instance [LeavesFiles x] : LeavesFiles (discard x) :=
  inferInstanceAs (LeavesFiles ((fun _ ↦ ()) <$> x))

instance {p : Prop} [Decidable p] [hx : LeavesFiles x] [hy : LeavesFiles y] :
    LeavesFiles (if p then x else y) := by
  split <;> assumption

instance {f : α → Task β} [∀ a, LeavesFiles (f a)] (items : List α) :
    LeavesFiles (items.mapM f) := by
  induction items with
  | nil =>
    rw [List.mapM_nil]
    infer_instance
  | cons a rest ih =>
    rw [List.mapM_cons]
    infer_instance

/-- A query leaves the files unless it replaces them. -/
theorem leavesFiles_query {q : Query} (hq : ∀ w : World, (w.answer q).2.files = w.files) :
    LeavesFiles (Task.query q) :=
  ⟨fun _ w ↦ hq w⟩

end

/-! ### The tasks that all others are made of -/

section

variable {α : Type}

instance (cause : Fault) : LeavesFiles (fail cause : Task α) :=
  inferInstanceAs (LeavesFiles (throw (.fault cause) : Task α))

instance (r : Except Fault α) : LeavesFiles (ofExcept r) := by
  unfold ofExcept
  split <;> infer_instance

instance : LeavesFiles store :=
  leavesFiles_query fun _ ↦ rfl

instance (s : Store) : LeavesFiles (setStore s) :=
  leavesFiles_query fun _ ↦ rfl

instance : LeavesFiles surroundings :=
  leavesFiles_query fun _ ↦ rfl

instance : LeavesFiles files :=
  leavesFiles_query fun _ ↦ rfl

instance (warning : Warning) : LeavesFiles (warn warning) :=
  leavesFiles_query fun _ ↦ rfl

instance (traces : Traces) : LeavesFiles (Task.query (.note traces)) :=
  leavesFiles_query fun _ ↦ rfl

instance (c : Compiler α) : LeavesFiles (compiling c) := by
  unfold compiling
  infer_instance

instance (value : Value) : LeavesFiles (view value) := by
  unfold view
  infer_instance

instance (content : Cell) : LeavesFiles (newCell content) := by
  unfold newCell
  infer_instance

instance (items : List Value) : LeavesFiles (newList items) :=
  inferInstanceAs (LeavesFiles (newCell (.list items)))

instance (entries : List (Value × Value)) : LeavesFiles (newMap entries) :=
  inferInstanceAs (LeavesFiles (newCell (.map entries)))

instance (n : Nat) (content : Cell) : LeavesFiles (setCell n content) := by
  unfold setCell
  infer_instance

instance (record : ResourceRecord) : LeavesFiles (addResource record) := by
  unfold addResource
  infer_instance

instance (parent value : Value) : LeavesFiles (postValue parent value) := by
  unfold postValue change
  infer_instance

mutual

instance leavesFiles_ofPlain (plain : Plain) : LeavesFiles (ofPlain plain) := by
  match plain with
  | .scalar s =>
    rw [ofPlain]
    infer_instance
  | .list items =>
    rw [ofPlain]
    have hitems := leavesFiles_ofPlainItems items
    infer_instance
  | .map entries =>
    rw [ofPlain]
    have hentries := leavesFiles_ofPlainEntries entries
    infer_instance

instance leavesFiles_ofPlainItems (items : List Plain) : LeavesFiles (ofPlainItems items) := by
  match items with
  | [] =>
    rw [ofPlainItems]
    infer_instance
  | item :: rest =>
    rw [ofPlainItems]
    have hitem := leavesFiles_ofPlain item
    have hrest := leavesFiles_ofPlainItems rest
    infer_instance

instance leavesFiles_ofPlainEntries (entries : List (Scalar × Plain)) :
    LeavesFiles (ofPlainEntries entries) := by
  match entries with
  | [] =>
    rw [ofPlainEntries]
    infer_instance
  | (key, value) :: rest =>
    rw [ofPlainEntries]
    have hvalue := leavesFiles_ofPlain value
    have hrest := leavesFiles_ofPlainEntries rest
    infer_instance

end

end

/-! ### Compiling -/

section

variable {identify : (word uri : String) → Task ResourceRef}
  [∀ word uri, LeavesFiles (identify word uri)]

mutual

instance leavesFiles_load (value : Value) : LeavesFiles (value.load identify) := by
  match value with
  | .call f params =>
    rw [Value.load]
    have hparams := leavesFiles_loadAll params
    infer_instance
  | .resource (.written _ word uri) =>
    rw [Value.load]
    infer_instance
  | .resource (.made _) | .atom _ | .tuple _ | .frozen _ | .cell _ | .scope _ =>
    exact inferInstanceAs (LeavesFiles (pure _ : Task Value))

instance leavesFiles_loadAll (values : List Value) : LeavesFiles (Value.loadAll identify values) := by
  match values with
  | [] =>
    rw [Value.loadAll]
    infer_instance
  | value :: rest =>
    rw [Value.loadAll]
    have hvalue := leavesFiles_load value
    have hrest := leavesFiles_loadAll rest
    infer_instance

end

end

instance (text uri : String) : LeavesFiles (makeWritten text uri) := by
  unfold makeWritten
  infer_instance

instance (source : String) : LeavesFiles (compile source) := by
  unfold compile
  infer_instance

end Script

/-! ### YAML documents -/

namespace Yaml.Build

open Script (LeavesFiles leavesFiles_bind)

/-- A step of building values that leaves the files from every state on. -/
class Leaves {α : Type} (x : Build α) : Prop where
  /-- Running the step leaves the files. -/
  leavesFiles : ∀ b, LeavesFiles (x.run b)

section

variable {α β : Type} {x : Build α}

instance [hx : Leaves x] (b : Building) : LeavesFiles (x.run b) :=
  hx.leavesFiles b

instance (a : α) : Leaves (pure a : Build α) :=
  ⟨fun b ↦ inferInstanceAs (LeavesFiles (pure (a, b)))⟩

instance bind_leaves {next : α → Build β} [Leaves x] [∀ a, Leaves (next a)] :
    Leaves (x >>= next) := by
  refine ⟨fun b ↦ ?_⟩
  rw [StateT.run_bind]
  infer_instance

theorem leaves_bind [Leaves x] {next : α → Build β} (hnext : ∀ a, Leaves (next a)) :
    Leaves (x >>= next) :=
  inferInstance

instance (y : Task α) [LeavesFiles y] : Leaves (liftM y : Build α) :=
  ⟨fun b ↦ inferInstanceAs (LeavesFiles (y >>= fun a ↦ pure (a, b)))⟩

instance : Leaves (get : Build Building) :=
  ⟨fun b ↦ inferInstanceAs (LeavesFiles (pure (b, b)))⟩

instance (f : Building → Building) : Leaves (modify f : Build PUnit) :=
  ⟨fun b ↦ inferInstanceAs (LeavesFiles (pure (PUnit.unit, f b)))⟩

instance {f : α → Build β} [∀ a, Leaves (f a)] (items : List α) : Leaves (items.mapM f) := by
  induction items with
  | nil =>
    rw [List.mapM_nil]
    infer_instance
  | cons a rest ih =>
    rw [List.mapM_cons]
    infer_instance

instance {f : β → α → Build β} [∀ b a, Leaves (f b a)] (start : β) (items : List α) :
    Leaves (items.foldlM f start) := by
  induction items generalizing start with
  | nil =>
    rw [List.foldlM_nil]
    infer_instance
  | cons a rest ih =>
    rw [List.foldlM_cons]
    infer_instance

end

instance (n : Nat) (value : Value) : Leaves (remember n value) := by
  unfold remember
  infer_instance

instance (g : Graph) (n : Nat) : Leaves (value g n) := by
  unfold value
  refine leaves_bind fun b ↦ ?_
  split
  · infer_instance
  · dsimp only
    split <;> infer_instance

instance (g : Graph) (n : Nat) : Leaves (key g n) := by
  unfold key
  dsimp only
  split
  · refine leaves_bind fun _ ↦ ?_
    split <;> infer_instance
  · split <;> infer_instance

instance (g : Graph) (numbers : List (Nat × Nat)) : Leaves (entries g numbers) := by
  unfold entries
  infer_instance

instance (g : Graph) (n place : Nat) : Leaves (fill g n place) := by
  unfold fill
  split <;> infer_instance

instance (g : Graph) (count : Nat) : Leaves (fillAll g count) := by
  induction count with
  | zero => exact inferInstanceAs (Leaves (pure ()))
  | succ count ih =>
    unfold fillAll
    refine leaves_bind fun b ↦ ?_
    split <;> infer_instance

instance (g : Graph) : Leaves (document g) := by
  unfold document
  infer_instance

end Yaml.Build

namespace Script

instance (text : List Char) : LeavesFiles (Yaml.read text) := by
  unfold Yaml.read
  refine leavesFiles_bind fun g ↦ ?_
  split <;> infer_instance

/-! ### Media types -/

instance (rows : List (List (List Char))) : LeavesFiles (newRecords rows) := by
  unfold newRecords
  split <;> infer_instance

instance (text : List Char) : LeavesFiles (newPage text) := by
  unfold newPage
  split <;> infer_instance

instance (m : Media) (text : List Char) : LeavesFiles (readMedia m text) := by
  unfold readMedia
  split <;> infer_instance

instance (contentType : Option String) (body : Body) : LeavesFiles (decode contentType body) := by
  unfold decode
  split <;> infer_instance

/-! ### Locations and files -/

instance (source : Value) : LeavesFiles (locationOf source) := by
  unfold locationOf
  split <;> infer_instance

instance (source : Value) : LeavesFiles (newResource source) := by
  unfold newResource
  split <;> infer_instance

instance (r : ResourceRef) : LeavesFiles (resource r) := by
  unfold resource
  infer_instance

instance (uri : String) : LeavesFiles (pathOf uri) := by
  unfold pathOf
  infer_instance

instance (path : FilePath) : LeavesFiles (isDirectory path) := by
  unfold isDirectory
  infer_instance

instance (uri : String) : LeavesFiles (findMimetype uri) := by
  unfold findMimetype
  split
  · infer_instance
  · infer_instance
  · split <;> infer_instance
  · infer_instance
  · infer_instance
  · split <;> infer_instance

instance (r : ResourceRef) (mimetype : String) : LeavesFiles (setMimetype r mimetype) := by
  unfold setMimetype
  infer_instance

instance (r : ResourceRef) : LeavesFiles (mimetypeOf r) := by
  unfold mimetypeOf
  refine leavesFiles_bind fun record ↦ ?_
  split <;> infer_instance

instance (path : FilePath) (pathText : String) : LeavesFiles (listDirectory path pathText) := by
  unfold listDirectory
  infer_instance

instance (uri : String) (mimetype : Option String) : LeavesFiles (getFile uri mimetype) := by
  unfold getFile
  refine leavesFiles_bind fun place ↦ leavesFiles_bind fun isDirectory ↦ ?_
  split
  · infer_instance
  · refine leavesFiles_bind fun files ↦ ?_
    split <;> infer_instance

end Script

end ResourceScript
