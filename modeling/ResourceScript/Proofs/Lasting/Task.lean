import ResourceScript.Resource
/-!
# Tasks that keep resources

A resource that was made by running is there for ever, at the location that it was made with. Only
one that holds its data itself may come to hold other data. A store with all resources of another in
this sense keeps them (`Store.Keeps`).

A task is keeping when every run of it leaves a store that keeps the resources of the one before,
provided that the jobs which it orders do so (`Task.Keeping`). It is a class: tasks that are
put together from keeping tasks are keeping, and this is found by inference. Where what a task does
depends on the store that it has read, the store is named (`Task.KeepsFrom`), and so is what can be
said of its result.
-/

set_option autoImplicit false

namespace ResourceScript

namespace Location

/-- Whether a location is one that holds its data. -/
def IsInline (uri : Option String) : Prop :=
  uri.map place = some .inline

/-- Whether a location is still the same, or holds its data before and after. -/
def Stays (old new : Option String) : Prop :=
  new = old ∨ IsInline old ∧ IsInline new

theorem Stays.refl (uri : Option String) : Stays uri uri :=
  Or.inl rfl

theorem Stays.isInline {old new : Option String} (h : Stays old new) (hold : IsInline old) :
    IsInline new := by
  rcases h with rfl | ⟨-, hnew⟩
  · exact hold
  · exact hnew

theorem Stays.trans {first second third : Option String} (h : Stays first second)
    (h' : Stays second third) : Stays first third := by
  rcases h with rfl | ⟨hfirst, hsecond⟩
  · exact h'
  · exact Or.inr ⟨hfirst, h'.isInline hsecond⟩

end Location

/-! ### Stores -/

namespace Store

/-- Whether a resource is one of those of a store. Resources of source text always are. -/
def Has (s : Store) : ResourceRef → Prop
  | .made n => n < s.resources.size
  | .written .. => True

theorem has_of_uri {s : Store} {r : ResourceRef} {uri : String}
    (h : (s.resource r).uri = some uri) : s.Has r := by
  cases r with
  | written n text uri => trivial
  | made n =>
    refine Nat.lt_of_not_le fun hn ↦ ?_
    rw [resource, Array.getD_eq_getD_getElem?, Array.getElem?_eq_none hn] at h
    cases h

theorem resource_addResource (s : Store) (record : ResourceRecord) :
    (s.addResource record).1.resource s.resources.size = record := by
  simp [resource, addResource, Array.getD_eq_getD_getElem?]

theorem resource_setResource {s : Store} {r : ResourceRef} (hr : s.Has r)
    (record : ResourceRecord) : (s.setResource r record).resource r = record := by
  cases r with
  | made n =>
    have hn : n < s.resources.size := hr
    simp [resource, setResource, Array.getD_eq_getD_getElem?, hn]
  | written n text uri => simp [resource, setResource]

end Store

/-- Whether the resources of a store that were made by running are in another store, at locations
that stay. -/
structure Store.Keeps (s t : Store) : Prop where
  /-- No resource is dropped. -/
  size_le : s.resources.size ≤ t.resources.size
  /-- The locations stay. -/
  stays : ∀ n < s.resources.size,
    Location.Stays (s.resource (.made n)).uri (t.resource (.made n)).uri

namespace Store.Keeps

variable {s t u : Store}

theorem of_resources_eq (h : t.resources = s.resources) : s.Keeps t where
  size_le := Nat.le_of_eq (congrArg Array.size h.symm)
  stays := by
    intro n _
    have hrecord : t.resource (.made n) = s.resource (.made n) := by
      show t.resources.getD n _ = s.resources.getD n _
      rw [h]
    rw [hrecord]
    exact .refl _

theorem refl (s : Store) : s.Keeps s :=
  of_resources_eq rfl

theorem trans (hst : s.Keeps t) (htu : t.Keeps u) : s.Keeps u where
  size_le := Nat.le_trans hst.size_le htu.size_le
  stays := fun n hn ↦ (hst.stays n hn).trans (htu.stays n (Nat.lt_of_lt_of_le hn hst.size_le))

theorem has {r : ResourceRef} (h : s.Keeps t) (hr : s.Has r) : t.Has r := by
  cases r with
  | made n => exact Nat.lt_of_lt_of_le hr h.size_le
  | written n text uri => trivial

theorem addResource (s : Store) (record : ResourceRecord) :
    s.Keeps (s.addResource record).1 where
  size_le := by simp [Store.addResource]
  stays := by
    intro n hn
    have hrecord : (s.addResource record).1.resource (.made n) = s.resource (.made n) := by
      simp [Store.resource, Store.addResource, Array.getElem?_push, Array.getD_eq_getD_getElem?,
        Nat.ne_of_lt hn]
    rw [hrecord]
    exact .refl _

theorem setResource (s : Store) {r : ResourceRef} {record : ResourceRecord}
    (h : ∀ n, r = .made n → Location.Stays (s.resource r).uri record.uri) :
    s.Keeps (s.setResource r record) := by
  cases r with
  | written n text uri => exact of_resources_eq rfl
  | made m =>
    refine ⟨by simp [Store.setResource], fun n hn ↦ ?_⟩
    by_cases hnm : m = n
    · subst hnm
      have hm : s.Has (.made m) := hn
      rw [resource_setResource hm]
      exact h m rfl
    · have hrecord : (s.setResource (.made m) record).resource (.made n) =
          s.resource (.made n) := by
        simp [Store.resource, Store.setResource, Array.getD_eq_getD_getElem?, hnm]
      rw [hrecord]
      exact .refl _

end Store.Keeps

/-! ### Tasks -/

/-- A task with another in its place when it stops goes on with that, unless it is exhausted; else
it is the task itself. -/
theorem Task.run_tryCatch_cases {α : Type} (x : Task α) (handle : Stop → Task α)
    (jobs : Job → Script Value) (w : World) :
    (∃ stop v, x.run jobs w = (.error stop, v) ∧
      (tryCatch x handle : Task α).run jobs w = (handle stop).run jobs v) ∨
    (∀ stop v, x.run jobs w = (.error stop, v) → stop = .exhausted) ∧
      (tryCatch x handle : Task α).run jobs w = x.run jobs w := by
  have hcatch : (tryCatch x handle : Task α) = x.orElse handle := rfl
  rw [hcatch]
  clear hcatch
  induction x generalizing w with
  | done result =>
    cases result with
    | ok a => exact Or.inr ⟨nofun, rfl⟩
    | error stop => exact Or.inl ⟨stop, w, rfl, rfl⟩
  | ask q next ih => exact ih _ _
  | order j next ih =>
    rcases hjob : jobs j w with ⟨result, v⟩
    by_cases hresult : result = .error .exhausted
    · subst hresult
      rw [orElse, run_order_of_exhausted hjob, run_order_of_exhausted hjob]
      refine Or.inr ⟨fun stop v hrun ↦ ?_, rfl⟩
      cases hrun
      rfl
    · rw [orElse, run_order_of_ne hjob hresult, run_order_of_ne hjob hresult]
      exact ih _ _

namespace Script

/-- Whether a script keeps resources in every world. -/
def KeepsResources {α : Type} (x : Script α) : Prop :=
  ∀ w : World, w.store.Keeps (x w).2.store

/-- Whether a task keeps the resources of a store in which it is run, and ends with a result of a
given sort when it does not stop. Jobs are assumed to keep resources. -/
def KeepsFrom {α : Type} (s : Store) (x : Task α) (P : α → Prop) : Prop :=
  ∀ jobs : Job → Script Value, (∀ j, KeepsResources (jobs j)) → ∀ w : World, w.store = s →
    s.Keeps (x.run jobs w).2.store ∧ ∀ a, (x.run jobs w).1 = .ok a → P a

/-- A task that keeps resources in every world. -/
class Keeping {α : Type} (x : Task α) : Prop where
  /-- Whatever the store, its resources are kept. -/
  keepsFrom : ∀ s, KeepsFrom s x fun _ ↦ True

variable {α β : Type} {s : Store}

theorem KeepsFrom.of_keeping {x : Task α} [Keeping x] : KeepsFrom s x fun _ ↦ True :=
  Keeping.keepsFrom s

theorem KeepsFrom.keeping {x : Task α} {P : α → Prop} (h : ∀ s, KeepsFrom s x P) : Keeping x :=
  ⟨fun s jobs hjobs w hw ↦ ⟨(h s jobs hjobs w hw).1, fun _ _ ↦ trivial⟩⟩

theorem keepsFrom_pure {P : α → Prop} {a : α} (ha : P a) : KeepsFrom s (pure a) P := by
  intro jobs _ w hw
  subst hw
  refine ⟨.refl _, fun b hb ↦ ?_⟩
  cases hb
  exact ha

theorem keepsFrom_throw {P : α → Prop} (stop : Stop) : KeepsFrom s (throw stop) P := by
  intro jobs _ w hw
  subst hw
  exact ⟨.refl _, fun a ha ↦ by cases ha⟩

/-- One task after another keeps what the first keeps and the second keeps after it. -/
theorem KeepsFrom.bind {x : Task α} {next : α → Task β} {P : α → Prop} {Q : β → Prop}
    (hx : KeepsFrom s x P) (hnext : ∀ t a, s.Keeps t → P a → KeepsFrom t (next a) Q) :
    KeepsFrom s (x >>= next) Q := by
  intro jobs hjobs w hw
  obtain ⟨hkeeps, hresult⟩ := hx jobs hjobs w hw
  rw [Task.run_bind]
  rcases hrun : x.run jobs w with ⟨stop | a, v⟩
  · rw [hrun] at hkeeps
    rw [bind_of_error hrun]
    exact ⟨hkeeps, fun b hb ↦ by cases hb⟩
  · rw [hrun] at hkeeps hresult
    rw [bind_of_ok hrun]
    obtain ⟨hafter, hb⟩ := hnext v.store a hkeeps (hresult a rfl) jobs hjobs v rfl
    exact ⟨hkeeps.trans hafter, hb⟩

/-- A task that reads the store first. -/
theorem keepsFrom_store {next : Store → Task α} {P : α → Prop} (h : KeepsFrom s (next s) P) :
    KeepsFrom s (store >>= next) P := by
  intro jobs hjobs w hw
  subst hw
  exact h jobs hjobs w rfl

theorem keepsFrom_setStore {t : Store} (h : s.Keeps t) :
    KeepsFrom s (setStore t) fun _ ↦ True :=
  fun _ _ _ _ ↦ ⟨h, fun _ _ ↦ trivial⟩

theorem KeepsFrom.tryCatch {x : Task α} {handle : Stop → Task α} {P : α → Prop}
    (hx : KeepsFrom s x P) (hhandle : ∀ t stop, s.Keeps t → KeepsFrom t (handle stop) P) :
    KeepsFrom s (tryCatch x handle) P := by
  intro jobs hjobs w hw
  rcases Task.run_tryCatch_cases x handle jobs w with ⟨stop, v, hrun, hcatch⟩ | ⟨-, hcatch⟩
  · have hkeeps : s.Keeps v.store := by
      have hfirst := (hx jobs hjobs w hw).1
      rwa [hrun] at hfirst
    rw [hcatch]
    obtain ⟨hafter, ha⟩ := hhandle v.store stop hkeeps jobs hjobs v rfl
    exact ⟨hkeeps.trans hafter, ha⟩
  · rw [hcatch]
    exact hx jobs hjobs w hw

/-! ### Inference -/

section

variable {x y : Task α}

instance (a : α) : Keeping (pure a : Task α) :=
  ⟨fun _ ↦ keepsFrom_pure trivial⟩

instance (stop : Stop) : Keeping (throw stop : Task α) :=
  ⟨fun _ ↦ keepsFrom_throw stop⟩

instance Keeping.bind {next : α → Task β} [hx : Keeping x] [hnext : ∀ a, Keeping (next a)] :
    Keeping (x >>= next) :=
  ⟨fun s ↦ (hx.keepsFrom s).bind fun t a _ _ ↦ (hnext a).keepsFrom t⟩

/-- For a second task that inference has to be helped with. -/
theorem keeping_bind [Keeping x] {next : α → Task β} (hnext : ∀ a, Keeping (next a)) :
    Keeping (x >>= next) :=
  inferInstance

instance {f : α → β} [hx : Keeping x] : Keeping (f <$> x) := by
  rw [map_eq_pure_bind]
  infer_instance

instance [hx : Keeping x] : Keeping (discard x) :=
  inferInstanceAs (Keeping ((fun _ ↦ ()) <$> x))

theorem keeping_tryCatch [hx : Keeping x] {handle : Stop → Task α}
    (hhandle : ∀ stop, Keeping (handle stop)) : Keeping (tryCatch x handle) :=
  ⟨fun s ↦ (hx.keepsFrom s).tryCatch fun t stop _ ↦ (hhandle stop).keepsFrom t⟩

instance {p : Prop} [Decidable p] [hx : Keeping x] [hy : Keeping y] :
    Keeping (if p then x else y) := by
  split <;> assumption

instance {f : α → Task β} [hf : ∀ a, Keeping (f a)] (items : List α) :
    Keeping (items.mapM f) := by
  induction items with
  | nil =>
    rw [List.mapM_nil]
    infer_instance
  | cons a rest ih =>
    rw [List.mapM_cons]
    infer_instance

instance {f : α → Task Unit} [hf : ∀ a, Keeping (f a)] (items : List α) :
    Keeping (items.forM f) := by
  induction items with
  | nil => exact inferInstanceAs (Keeping (pure ()))
  | cons a rest ih => exact inferInstanceAs (Keeping (f a >>= fun _ ↦ rest.forM f))

instance {f : β → α → Task β} [hf : ∀ b a, Keeping (f b a)] (start : β) (items : List α) :
    Keeping (items.foldlM f start) := by
  induction items generalizing start with
  | nil =>
    rw [List.foldlM_nil]
    infer_instance
  | cons a rest ih =>
    rw [List.foldlM_cons]
    infer_instance

instance {f : α → Task (Option β)} [hf : ∀ a, Keeping (f a)] (items : List α) :
    Keeping (items.findSomeM? f) := by
  induction items with
  | nil => exact inferInstanceAs (Keeping (pure none))
  | cons a rest ih =>
    rw [List.findSomeM?]
    refine keeping_bind fun found ↦ ?_
    split <;> infer_instance

end

/-! ### What is asked and ordered -/

theorem keeping_query {q : Query} (hq : ∀ w : World, w.store.Keeps (w.answer q).2.store) :
    Keeping (Task.query q) := by
  refine ⟨fun s jobs _ w hw ↦ ⟨?_, fun _ _ ↦ trivial⟩⟩
  subst hw
  exact hq w

instance (j : Job) : Keeping (Task.job j) := by
  refine ⟨fun s jobs hjobs w hw ↦ ⟨?_, fun _ _ ↦ trivial⟩⟩
  subst hw
  rw [Task.run_job]
  exact hjobs j w

/-! ### The tasks that all others are made of -/

section

variable {α : Type} {s : Store}

instance (cause : Fault) : Keeping (fail cause : Task α) :=
  inferInstanceAs (Keeping (throw (.fault cause) : Task α))

instance (r : Except Fault α) : Keeping (ofExcept r) := by
  unfold ofExcept
  split <;> infer_instance

instance : Keeping store :=
  keeping_query fun w ↦ .refl w.store

instance : Keeping surroundings :=
  keeping_query fun w ↦ .refl w.store

instance : Keeping held :=
  keeping_query fun w ↦ .refl w.store

instance : Keeping files :=
  keeping_query fun w ↦ .refl w.store

instance (files : FileSystem) : Keeping (setFiles files) :=
  keeping_query fun w ↦ .refl w.store

instance (text : String) : Keeping (write text) :=
  keeping_query fun w ↦ .refl w.store

instance (text : String) : Keeping (writeLine text) := by
  unfold writeLine
  infer_instance

instance (text : String) : Keeping (writeError text) :=
  keeping_query fun w ↦ .refl w.store

instance (warning : Warning) : Keeping (warn warning) :=
  keeping_query fun w ↦ .refl w.store

instance (request : Request) : Keeping (Task.query (.send request)) :=
  keeping_query fun w ↦ .refl w.store

instance (traces : Traces) : Keeping (Task.query (.note traces)) :=
  keeping_query fun w ↦ .refl w.store

/-- A scope that is made for a world without one leaves the resources as they are. -/
instance : Keeping currentScope := by
  refine keeping_query fun w ↦ .of_resources_eq ?_
  show w.scope.2.store.resources = w.store.resources
  unfold World.scope
  split <;> rfl

/-- A task that replaces the store by one that keeps the resources, and then goes on. -/
theorem keeping_update {next : Store → Task α} (h : ∀ s, KeepsFrom s (next s) fun _ ↦ True) :
    Keeping (store >>= next) :=
  ⟨fun s ↦ keepsFrom_store (h s)⟩

theorem keepsFrom_setStore_bind {t : Store} {next : Unit → Task α} (h : s.Keeps t)
    [hnext : Keeping (next ())] : KeepsFrom s (setStore t >>= next) fun _ ↦ True :=
  (keepsFrom_setStore h).bind fun u _ _ _ ↦ hnext.keepsFrom u

instance (c : Compiler α) : Keeping (compiling c) := by
  unfold compiling
  infer_instance

instance (value : Value) : Keeping (view value) := by
  unfold view
  infer_instance

instance (content : Cell) : Keeping (newCell content) :=
  keeping_update fun _ ↦ keepsFrom_setStore_bind (.of_resources_eq rfl)

instance (items : List Value) : Keeping (newList items) :=
  inferInstanceAs (Keeping (newCell (.list items)))

instance (entries : List (Value × Value)) : Keeping (newMap entries) :=
  inferInstanceAs (Keeping (newCell (.map entries)))

instance (n : Nat) : Keeping (cell n) := by
  unfold cell
  infer_instance

instance (n : Nat) (content : Cell) : Keeping (setCell n content) :=
  keeping_update fun _ ↦ keepsFrom_setStore (.of_resources_eq rfl)

instance (record : ResourceRecord) : Keeping (addResource record) :=
  keeping_update fun s ↦ keepsFrom_setStore_bind (.addResource s record)

instance (value : Value) : Keeping (textOf value) := by
  unfold textOf
  infer_instance

mutual

instance keeping_ofPlain (plain : Plain) : Keeping (ofPlain plain) := by
  match plain with
  | .scalar s =>
    rw [ofPlain]
    infer_instance
  | .list items =>
    rw [ofPlain]
    have hitems := keeping_ofPlainItems items
    infer_instance
  | .map entries =>
    rw [ofPlain]
    have hentries := keeping_ofPlainEntries entries
    infer_instance

instance keeping_ofPlainItems (items : List Plain) : Keeping (ofPlainItems items) := by
  match items with
  | [] =>
    rw [ofPlainItems]
    infer_instance
  | item :: rest =>
    rw [ofPlainItems]
    have hitem := keeping_ofPlain item
    have hrest := keeping_ofPlainItems rest
    infer_instance

instance keeping_ofPlainEntries (entries : List (Scalar × Plain)) :
    Keeping (ofPlainEntries entries) := by
  match entries with
  | [] =>
    rw [ofPlainEntries]
    infer_instance
  | (key, value) :: rest =>
    rw [ofPlainEntries]
    have hvalue := keeping_ofPlain value
    have hrest := keeping_ofPlainEntries rest
    infer_instance

end

mutual

instance keeping_ofData (data : Data) : Keeping (ofData data) := by
  match data with
  | .atom _ | .buffer _ | .side .. | .resource .. | .scope _ | .cycle =>
    rw [ofData]
    infer_instance
  | .tuple items | .frozen items | .call _ items | .list items | .set items =>
    rw [ofData]
    have hitems := keeping_ofDataItems items
    infer_instance
  | .map entries | .page entries _ =>
    rw [ofData]
    have hentries := keeping_ofDataEntries entries
    infer_instance
  | .object _ fields =>
    rw [ofData]
    have hfields := keeping_ofDataFields fields
    infer_instance

instance keeping_ofDataItems (items : List Data) : Keeping (ofDataItems items) := by
  match items with
  | [] =>
    rw [ofDataItems]
    infer_instance
  | item :: rest =>
    rw [ofDataItems]
    have hitem := keeping_ofData item
    have hrest := keeping_ofDataItems rest
    infer_instance

instance keeping_ofDataEntries (entries : List (Data × Data)) : Keeping (ofDataEntries entries) := by
  match entries with
  | [] =>
    rw [ofDataEntries]
    infer_instance
  | (key, value) :: rest =>
    rw [ofDataEntries]
    have hkey := keeping_ofData key
    have hvalue := keeping_ofData value
    have hrest := keeping_ofDataEntries rest
    infer_instance

instance keeping_ofDataFields (fields : List (String × Data)) : Keeping (ofDataFields fields) := by
  match fields with
  | [] =>
    rw [ofDataFields]
    infer_instance
  | (name, value) :: rest =>
    rw [ofDataFields]
    have hvalue := keeping_ofData value
    have hrest := keeping_ofDataFields rest
    infer_instance

end

end

end Script

end ResourceScript
