import ResourceScript.Session
import ResourceScript.Proofs.Data.Printed
import ResourceScript.Proofs.Files.Reading
import ResourceScript.Proofs.Resource.Variables
import ResourceScript.Proofs.Session.Loading
/-!
# The source text of a script

The command line takes its first argument for a script if the location that it denotes is in a file
or in the argument itself, and has the media type of scripts (`Script.IsScript`). Looking for the
location and the media type asks the world and changes nothing else (`Script.scriptResource?_cases`).

Loading compiles the source text at the location (`Script.sourceAt?`), or lists the directory there.
The failures of the data, which are answered by null, are few: a path or a bad location, but not
source text that does not compile (`Script.getData_of_uncompiled`). `Script.getData_cases` tells all
that may happen.
-/

set_option autoImplicit false

namespace ResourceScript

open Text

/-! ### Tasks that at most fail -/

namespace Task

variable {α β : Type} {P : Fault → Prop}

/-- Whether a task, whatever its jobs do, ends with a value or with a failure of a given sort. -/
def FailsOnly (P : Fault → Prop) (x : Task α) : Prop :=
  ∀ (jobs : Job → Script Value) (w : World), ∃ v,
    (∃ a, x.run jobs w = (.ok a, v)) ∨ ∃ cause, P cause ∧ x.run jobs w = (.error (.fault cause), v)

theorem failsOnly_pure (a : α) : FailsOnly P (pure a : Task α) :=
  fun _ w ↦ ⟨w, Or.inl ⟨a, rfl⟩⟩

theorem failsOnly_query (q : Query) : FailsOnly P (query q) :=
  fun _ w ↦ ⟨(w.answer q).2, Or.inl ⟨(w.answer q).1, rfl⟩⟩

theorem FailsOnly.bind {x : Task α} {next : α → Task β} (hx : FailsOnly P x)
    (hnext : ∀ a, FailsOnly P (next a)) : FailsOnly P (x >>= next) := by
  intro jobs w
  rw [run_bind]
  obtain ⟨v, ⟨a, hrun⟩ | ⟨cause, hcause, hrun⟩⟩ := hx jobs w
  · rw [Script.bind_of_ok hrun]
    exact hnext a jobs v
  · exact ⟨v, Or.inr ⟨cause, hcause, Script.bind_of_error hrun _⟩⟩

end Task

namespace Script

variable {w : World} {n : Nat} {uri : String}

/-! ### The resource of a script -/

/-- Whether a resource is that of a script: it is in a file or in the location itself, and its media
type is that of scripts. -/
structure IsScript (w : World) (n : Nat) (uri : String) : Prop where
  /-- Its location. -/
  location : (w.store.resource n).uri = some uri
  /-- Its media type. -/
  mimetype : (w.store.resource n).mimetype = some Media.script.name
  /-- Its place. -/
  place : Location.place uri = .file ∨ Location.place uri = .inline ∧
    ∃ u, DataUri.ofUri uri = .ok u ∧ u.mimetype = Media.script.name

theorem pathOf_apply (uri : String) (w : World) :
    (pathOf uri).runAt Job.maxDepth w =
      match Location.filePath uri with
      | .ok path => (.ok (Location.absolute w.surroundings.directories path, path), w)
      | .error cause => (.error (.fault cause), w) :=
  run_pathOf uri w

theorem isDirectory_apply (path : FilePath) (w : World) :
    (isDirectory path).runAt Job.maxDepth w =
      match FileSystem.checkNames path with
      | .ok _ => (.ok (w.files.isDirectory path), w)
      | .error cause => (.error (.fault cause), w) :=
  run_isDirectory path w

theorem runAt_bind {α β : Type} (x : Task α) (next : α → Task β) (w : World) :
    (x >>= next).runAt Job.maxDepth w =
      (x.runAt Job.maxDepth >>= fun a ↦ (next a).runAt Job.maxDepth) w := by
  rw [Task.runAt, Task.run_bind]
  rfl

/-- What finding the media type of a location asks changes nothing. -/
theorem looks_findMimetype (uri : String) (w : World) :
    ∃ result : Except Fault String,
      (findMimetype uri).runAt Job.maxDepth w = (result.mapError .fault, w) := by
  unfold findMimetype
  split
  · exact ⟨.ok _, rfl⟩
  · exact ⟨.ok _, rfl⟩
  · split <;> exact ⟨.ok _, rfl⟩
  · exact ⟨.ok _, rfl⟩
  · exact ⟨.ok _, rfl⟩
  · split
    · exact ⟨.ok _, rfl⟩
    · rw [runAt_bind, bind_apply, pathOf_apply]
      cases Location.filePath uri with
      | error cause => exact ⟨.error cause, rfl⟩
      | ok pathText =>
        dsimp only
        rw [runAt_bind, bind_apply, isDirectory_apply]
        cases FileSystem.checkNames (Location.absolute w.surroundings.directories pathText) with
        | error cause => exact ⟨.error cause, rfl⟩
        | ok _ =>
          dsimp only
          split <;> exact ⟨.ok _, rfl⟩

/-- A location whose media type is found to be that of scripts is in a file or holds the script
itself, unless no script is loaded from its place. -/
theorem place_of_findMimetype {uri : String} {w v : World}
    (hrun : (findMimetype uri).runAt Job.maxDepth w = (.ok Media.script.name, v))
    (hplace : isScriptPlace (Location.place uri) = true) :
    Location.place uri = .file ∨ Location.place uri = .inline ∧
      ∃ u, DataUri.ofUri uri = .ok u ∧ u.mimetype = Media.script.name := by
  unfold findMimetype at hrun
  match hcase : Location.place uri with
  | .variable | .app | .elsewhere =>
    rw [hcase] at hplace
    exact absurd hplace (by decide)
  | .server =>
    rw [hcase] at hrun
    have hname : Media.html.name = Media.script.name := Except.ok.inj (congrArg Prod.fst hrun)
    exact absurd hname (by decide)
  | .file => exact Or.inl rfl
  | .inline =>
    refine Or.inr ⟨rfl, ?_⟩
    rw [hcase] at hrun
    cases hread : DataUri.ofUri uri with
    | ok u =>
      rw [hread] at hrun
      exact ⟨u, rfl, Except.ok.inj (congrArg Prod.fst hrun)⟩
    | error cause =>
      rw [hread] at hrun
      have hname : Media.text.name = Media.script.name := Except.ok.inj (congrArg Prod.fst hrun)
      exact absurd hname (by decide)

/-- The media type of a resource that has none yet is found by its location and kept. -/
theorem mimetypeOf_apply {result : Except Fault String}
    (hmimetype : (w.store.resource n).mimetype = none)
    (huri : (w.store.resource n).uri = some uri) :
    (findMimetype uri).runAt Job.maxDepth w = (result.mapError .fault, w) →
      (mimetypeOf n).runAt Job.maxDepth w =
        match result with
        | .ok mimetype => (.ok (some mimetype), { w with
            store := w.store.setResource n { w.store.resource n with mimetype := some mimetype } })
        | .error cause => (.error (.fault cause), w) := by
  intro hfind
  have hresource : (resource n).runAt Job.maxDepth w = (.ok (w.store.resource n), w) := rfl
  rw [mimetypeOf, runAt_bind, bind_of_ok hresource, hmimetype, huri]
  dsimp only
  rw [runAt_bind, bind_apply, hfind]
  cases result <;> rfl

/-- What an argument leads to: a failure, no script, or the resource of a script. -/
theorem scriptResource?_cases (first : String) (w : World) :
    (∃ cause v, scriptResource? first w = (.error (.fault cause), v)) ∨
    (∃ v, scriptResource? first w = (.ok none, v)) ∨
    ∃ n uri v, scriptResource? first w = (.ok (some n), v) ∧ IsScript v n uri := by
  have hnew : (liftM (newResource (.text first)) : Script Nat) w = _ := run_newResource first w
  rw [scriptResource?, bind_apply, hnew]
  cases Location.ofText? w.surroundings.directories first.toList with
  | error cause => exact Or.inl ⟨cause, w, rfl⟩
  | ok uri? =>
    dsimp only
    generalize hrecord : (⟨.text first, uri?, none⟩ : ResourceRecord) = record
    have hadded := Store.resource_addResource w.store record
    have hbound : w.store.resources.size < (w.store.addResource record).1.resources.size := by
      simp [Store.addResource]
    generalize (w.store.addResource record).1 = added at hadded hbound
    generalize w.store.resources.size = n at hadded hbound
    have hresource : (liftM (resource n) : Script ResourceRecord) { w with store := added } =
        (.ok record, { w with store := added }) := by
      rw [← hadded]
      rfl
    rw [bind_of_ok hresource, ← hrecord]
    cases uri? with
    | none => exact Or.inr (Or.inl ⟨_, rfl⟩)
    | some uri =>
      dsimp only
      by_cases hplace : isScriptPlace (Location.place uri) = true
      · rw [if_pos hplace]
        obtain ⟨result, hfind⟩ := looks_findMimetype uri { w with store := added }
        have hmimetype : (liftM (mimetypeOf n) : Script (Option String)) { w with store := added } =
            _ := mimetypeOf_apply (by rw [hadded, ← hrecord]) (by rw [hadded, ← hrecord]) hfind
        rw [bind_apply, hmimetype]
        cases result with
        | error cause => exact Or.inl ⟨cause, _, rfl⟩
        | ok mimetype =>
          dsimp only
          by_cases hname : mimetype = Media.script.name
          · subst hname
            have hkept := Store.resource_setResource (s := added) (r := n) hbound
              { added.resource n with mimetype := some Media.script.name }
            refine Or.inr (Or.inr ⟨n, uri, _, rfl, ?_, ?_, place_of_findMimetype hfind hplace⟩)
            · rw [hkept, hadded, ← hrecord]
            · rw [hkept]
          · have hother : (some mimetype == some Media.script.name) = false := by simpa using hname
            rw [if_neg (by simp [hother])]
            exact Or.inr (Or.inl ⟨_, rfl⟩)
      · rw [if_neg hplace]
        exact Or.inr (Or.inl ⟨_, rfl⟩)

/-! ### Tasks on the way to the program -/

section

variable {P : Fault → Prop}

theorem failsOnly_addResource (record : ResourceRecord) :
    Task.FailsOnly P (addResource record) :=
  (Task.failsOnly_query .store).bind fun s ↦
    (Task.failsOnly_query (.setStore (s.addResource record).1)).bind fun _ ↦
      Task.failsOnly_pure (s.addResource record).2

theorem failsOnly_makeWritten (text uri : String) : Task.FailsOnly P (makeWritten text uri) :=
  (failsOnly_addResource ⟨.text text, some uri, none⟩).bind fun n ↦
    Task.failsOnly_pure (ResourceRef.made n)

mutual

/-- Loading a compiled value makes the resources in it, and nothing refuses that. -/
theorem failsOnly_load : ∀ value : Value, Task.FailsOnly P (value.load makeWritten)
  | .call f params => by
    rw [Value.load]
    exact (failsOnly_loadAll params).bind fun loaded ↦ Task.failsOnly_pure (Value.call f loaded)
  | .resource (.written _ word uri) => by
    rw [Value.load]
    exact (failsOnly_makeWritten word uri).bind fun r ↦ Task.failsOnly_pure (Value.resource r)
  | .resource (.made n) => Task.failsOnly_pure (Value.resource (.made n))
  | .atom a => Task.failsOnly_pure (Value.atom a)
  | .tuple items => Task.failsOnly_pure (Value.tuple items)
  | .frozen items => Task.failsOnly_pure (Value.frozen items)
  | .cell n => Task.failsOnly_pure (Value.cell n)
  | .scope n => Task.failsOnly_pure (Value.scope n)

theorem failsOnly_loadAll : ∀ values : List Value,
    Task.FailsOnly P (Value.loadAll makeWritten values)
  | [] => Task.failsOnly_pure []
  | value :: rest => by
    rw [Value.loadAll]
    exact (failsOnly_load value).bind fun first ↦
      (failsOnly_loadAll rest).bind fun loaded ↦ Task.failsOnly_pure (first :: loaded)

end

end

/-- What a `file:` location leads to: a path, its text, and the entry there. -/
def entryAt? (w : World) (uri : String) : Option (FilePath × String × FileEntry) := do
  let pathText ← (Location.filePath uri).toOption
  let path := Location.absolute w.surroundings.directories pathText
  let _ ← (FileSystem.checkNames path).toOption
  let entry ← w.files.entry? path
  return (path, pathText, entry)

/-- The source text in the bytes of a script. -/
def sourceOf (bytes : List UInt8) : String :=
  String.ofList ((Media.charset (some Media.script.name)).decode bytes)

/-- The source text at a location, if there is one: that of a file, or in the location itself. -/
def sourceAt? (w : World) (uri : String) : Option String :=
  match Location.place uri with
  | .inline => (DataUri.ofUri uri).toOption.map fun u ↦ sourceOf u.data
  | .file =>
    match entryAt? w uri with
    | some (_, _, .file bytes) => some (sourceOf bytes)
    | _ => none
  | _ => none

theorem decode_script (bytes : List UInt8) :
    decode (some Media.script.name) (.bytes bytes) = compile (sourceOf bytes) := rfl

theorem getFile_apply (uri : String) (mimetype : Option String) (w : World) :
    (getFile uri mimetype).runAt Job.maxDepth w =
      match Location.filePath uri with
      | .error cause => (.error (.fault cause), w)
      | .ok pathText =>
        let path := Location.absolute w.surroundings.directories pathText
        match FileSystem.checkNames path with
        | .error cause => (.error (.fault cause), w)
        | .ok _ =>
          if w.files.isDirectory path then (listDirectory path pathText).runAt Job.maxDepth w
          else match FileSystem.entry? w.files path with
            | some (.file bytes) => (decode mimetype (.bytes bytes)).runAt Job.maxDepth w
            | _ => (.ok .null, w) :=
  run_getFile uri mimetype w

section

variable {path : FilePath} {pathText : String}

theorem entryAt?_eq_some {entry : FileEntry} (h : entryAt? w uri = some (path, pathText, entry)) :
    Location.filePath uri = .ok pathText ∧
      path = Location.absolute w.surroundings.directories pathText ∧
      FileSystem.checkNames path = .ok () ∧ w.files.entry? path = some entry := by
  unfold entryAt? at h
  cases hpath : Location.filePath uri with
  | error cause => simp [hpath, Except.toOption] at h
  | ok text =>
    cases hnames : FileSystem.checkNames (Location.absolute w.surroundings.directories text) with
    | error cause => simp [hpath, hnames, Except.toOption] at h
    | ok _ =>
      simp only [hpath, hnames, Except.toOption, Option.bind_eq_bind, Option.bind_some] at h
      obtain ⟨found, hentry, hsame⟩ := Option.bind_eq_some_iff.1 h
      cases hsame
      exact ⟨rfl, rfl, hnames, hentry⟩

/-- The data of a directory lists its resources. -/
theorem getFile_of_directory (h : entryAt? w uri = some (path, pathText, .directory))
    (mimetype : Option String) :
    (getFile uri mimetype).runAt Job.maxDepth w =
      (listDirectory path pathText).runAt Job.maxDepth w := by
  obtain ⟨hpath, rfl, hnames, hentry⟩ := entryAt?_eq_some h
  have hdirectory : w.files.isDirectory
      (Location.absolute w.surroundings.directories pathText) = true := by
    rw [FileSystem.isDirectory, hentry]
    rfl
  rw [getFile_apply, hpath]
  dsimp only
  rw [hnames]
  exact if_pos hdirectory

/-- The data of a file is read from its bytes. -/
theorem getFile_of_file {bytes : List UInt8}
    (h : entryAt? w uri = some (path, pathText, .file bytes)) (mimetype : Option String) :
    (getFile uri mimetype).runAt Job.maxDepth w =
      (decode mimetype (.bytes bytes)).runAt Job.maxDepth w := by
  obtain ⟨hpath, rfl, hnames, hentry⟩ := entryAt?_eq_some h
  have hdirectory : ¬ w.files.isDirectory
      (Location.absolute w.surroundings.directories pathText) = true := by
    rw [FileSystem.isDirectory, hentry]
    simp
  rw [getFile_apply, hpath]
  dsimp only
  rw [hnames]
  dsimp only
  rw [if_neg hdirectory, hentry]

end

theorem compile_apply (source : String) (w : World) :
    (compile source).runAt Job.maxDepth w =
      match Compiler.compile source w.surroundings with
      | (.ok program, t) => (program.load makeWritten).runAt Job.maxDepth (w.note t)
      | (.error cause, t) => (.error (.fault cause), w.note t) := by
  rcases hcompile : Compiler.compile source w.surroundings with ⟨cause | program, t⟩
  · rw [compile, runAt_bind, bind_of_error (runAt_compiling hcompile Job.maxDepth)]
  · rw [compile, runAt_bind, bind_of_ok (runAt_compiling hcompile Job.maxDepth)]

/-- The steps that load a script from its location. -/
def loadAt (uri : String) : Task Value :=
  match Location.place uri with
  | .inline => do
    let u ← ofExcept (DataUri.ofUri uri)
    compile (sourceOf u.data)
  | _ => getFile uri (some Media.script.name)

/-- The data of a script is what is loaded; failures of the data are answered by null. -/
theorem getData_apply (hscript : IsScript w n uri) :
    (getData n).runAt Job.maxDepth w =
      match (loadAt uri).runAt Job.maxDepth w with
      | (.ok a, v) => (.ok a, v)
      | (.error (.fault cause), v) =>
        if cause.isDataFault then (.ok .null, { v with warnings := .cannotGet :: v.warnings })
        else (.error (.fault cause), v)
      | (.error stop, v) => (.error stop, v) := by
  obtain ⟨body, hget, hbody⟩ : ∃ body : String → Task Value,
      getData n = operate n .cannotGet .null body ∧
        (body uri).run (Job.run Job.maxDepth) w = (loadAt uri).runAt Job.maxDepth w := by
    refine ⟨_, rfl, ?_⟩
    unfold loadAt
    obtain hplace | ⟨hplace, u, hread, hmimetype⟩ := hscript.place
    · simp only [hplace]
      have hmimetype : (mimetypeOf n).run (Job.run Job.maxDepth) w =
          (.ok (some Media.script.name), w) := by
        have hresource : (resource n).run (Job.run Job.maxDepth) w =
            (.ok (w.store.resource n), w) := rfl
        rw [mimetypeOf, Task.run_bind, bind_of_ok hresource, hscript.mimetype]
        rfl
      rw [Task.run_bind, bind_of_ok hmimetype]
      rfl
    · simp only [hplace, hread]
      have hsource : (decode (some u.mimetype) (.bytes u.data)) = compile (sourceOf u.data) := by
        rw [hmimetype]
        exact decode_script u.data
      show ((pure u : Task DataUri) >>= fun u ↦ decode (some u.mimetype) (.bytes u.data)).run _ w =
        ((pure u : Task DataUri) >>= fun u ↦ compile (sourceOf u.data)).run _ w
      rw [pure_bind, pure_bind, hsource]
  rw [← hbody, hget, Task.runAt, run_operate hscript.location]
  rcases (body uri).run (Job.run Job.maxDepth) w with ⟨(cause | status | _) | a, v⟩ <;> rfl

section

variable {text : String} {cause : Fault} {t : Traces} {path : FilePath} {pathText : String}
  {v : World}

/-- A script is loaded by compiling its source text. -/
theorem loadAt_of_source (h : sourceAt? w uri = some text) :
    (loadAt uri).runAt Job.maxDepth w = (compile text).runAt Job.maxDepth w := by
  unfold sourceAt? at h
  unfold loadAt
  split at h
  next hplace =>
    rw [hplace]
    cases hread : DataUri.ofUri uri with
    | error cause => simp [hread, Except.toOption] at h
    | ok u =>
      simp only [hread, Except.toOption, Option.map_some, Option.some.injEq] at h
      subst h
      rfl
  next hplace =>
    rw [hplace]
    split at h
    next path pathText bytes hentry =>
      cases h
      rw [getFile_of_file hentry, decode_script]
    next => cases h
  next => cases h

/-- A script whose source text does not compile fails outside of the session; only causes that
count as failures of the data are kept back. -/
theorem getData_of_uncompiled (hscript : IsScript w n uri) (hsource : sourceAt? w uri = some text)
    (hcompile : Compiler.compile text w.surroundings = (.error cause, t))
    (hcause : cause.isDataFault = false) :
    (getData n).runAt Job.maxDepth w = (.error (.fault cause), w.note t) := by
  have hload := (loadAt_of_source hsource).trans (compile_apply text w)
  rw [hcompile] at hload
  rw [getData_apply hscript, hload]
  simp [hcause]

/-- A directory in the place of a script fails outside of the session when its resources cannot be
made. -/
theorem getData_of_unlisted (hscript : IsScript w n uri) (hplace : Location.place uri = .file)
    (hdirectory : entryAt? w uri = some (path, pathText, .directory))
    (hlist : (listDirectory path pathText).runAt Job.maxDepth w = (.error (.fault .runtime), v)) :
    (getData n).runAt Job.maxDepth w = (.error (.fault .runtime), v) := by
  have hload : (loadAt uri).runAt Job.maxDepth w = (.error (.fault .runtime), v) := by
    rw [loadAt, hplace]
    exact (getFile_of_directory hdirectory _).trans hlist
  rw [getData_apply hscript, hload]
  rfl

end

end Script

end ResourceScript
