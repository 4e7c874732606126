import ResourceScript.Resource
/-!
# Runs that read files

How a location leads to a path of the file system, and what reading the file at that path does. None
of this depends on jobs, so it is stated for all of them.
-/

set_option autoImplicit false

namespace ResourceScript

/-- Whether a location leads to a path that the file system takes. -/
structure FileSystem.Reaches (files : FileSystem) (uri : String) (path : FilePath) : Prop where
  /-- The path text of the location names it. -/
  location : ∃ pathText, Location.filePath uri = .ok pathText ∧
    path = Location.absolute files.directories pathText
  /-- No name is too long. -/
  names : FileSystem.checkNames path = .ok ()

namespace Script

variable {jobs : Job → Script Value} {w v : World} {uri : String} {path : FilePath}

theorem run_bind_eq_ok_iff {α β : Type} {x : Task α} {next : α → Task β} {b : β} :
    (x >>= next).run jobs w = (.ok b, v) ↔
      ∃ a u, x.run jobs w = (.ok a, u) ∧ (next a).run jobs u = (.ok b, v) := by
  rw [Task.run_bind]
  exact bind_eq_ok_iff

theorem run_ofExcept_eq_ok_iff {α : Type} {x : Except Fault α} {a : α} :
    (ofExcept x).run jobs w = (.ok a, v) ↔ x = .ok a ∧ v = w := by
  cases x with
  | error cause => exact ⟨nofun, fun h ↦ nomatch h.1⟩
  | ok b =>
    constructor
    · intro h
      cases h
      exact ⟨rfl, rfl⟩
    · rintro ⟨h, rfl⟩
      cases h
      rfl

/-! ### Paths -/

theorem run_pathOf (uri : String) (w : World) :
    (pathOf uri).run jobs w =
      match Location.filePath uri with
      | .ok pathText => (.ok (Location.absolute w.files.directories pathText, pathText), w)
      | .error cause => (.error (.fault cause), w) := by
  have hrun : (pathOf uri).run jobs w =
      ((ofExcept (Location.filePath uri) : Task _) >>= fun path ↦
        surroundings >>= fun s ↦ pure (Location.absolute s.directories path, path)).run jobs w := rfl
  rw [hrun]
  cases Location.filePath uri <;> rfl

theorem run_isDirectory (path : FilePath) (w : World) :
    (isDirectory path).run jobs w =
      match FileSystem.checkNames path with
      | .ok _ => (.ok (w.files.isDirectory path), w)
      | .error cause => (.error (.fault cause), w) := by
  have hrun : (isDirectory path).run jobs w =
      ((ofExcept (FileSystem.checkNames path) : Task _) >>= fun _ ↦
        files >>= fun files ↦ pure (files.isDirectory path)).run jobs w := rfl
  rw [hrun]
  cases FileSystem.checkNames path <;> rfl

theorem pathOf_eq_ok {place : FilePath × String} (hrun : (pathOf uri).run jobs w = (.ok place, v)) :
    v = w ∧ ∃ pathText, Location.filePath uri = .ok pathText ∧
      place.1 = Location.absolute w.files.directories pathText := by
  rw [run_pathOf] at hrun
  cases hlocation : Location.filePath uri with
  | error cause =>
    rw [hlocation] at hrun
    cases hrun
  | ok pathText =>
    rw [hlocation] at hrun
    cases hrun
    exact ⟨rfl, pathText, rfl, rfl⟩

theorem isDirectory_eq_ok {found : Bool} (hrun : (isDirectory path).run jobs w = (.ok found, v)) :
    v = w ∧ FileSystem.checkNames path = .ok () ∧ found = w.files.isDirectory path := by
  rw [run_isDirectory] at hrun
  cases hnames : FileSystem.checkNames path with
  | error cause =>
    rw [hnames] at hrun
    cases hrun
  | ok =>
    rw [hnames] at hrun
    cases hrun
    exact ⟨rfl, rfl, rfl⟩

/-! ### Files -/

theorem run_getFile (uri : String) (mimetype : Option String) (w : World) :
    (getFile uri mimetype).run jobs w =
      match Location.filePath uri with
      | .error cause => (.error (.fault cause), w)
      | .ok pathText =>
        let path := Location.absolute w.files.directories pathText
        match FileSystem.checkNames path with
        | .error cause => (.error (.fault cause), w)
        | .ok _ =>
          if w.files.isDirectory path then (listDirectory path pathText).run jobs w
          else match FileSystem.entry? w.files path with
            | some (.file bytes) => (decode mimetype (.bytes bytes)).run jobs w
            | _ => (.ok .null, w) := by
  rw [getFile, Task.run_bind, bind_apply, run_pathOf]
  cases Location.filePath uri with
  | error cause => rfl
  | ok pathText =>
    dsimp only
    rw [Task.run_bind, bind_apply, run_isDirectory]
    cases FileSystem.checkNames (Location.absolute w.files.directories pathText) with
    | error cause => rfl
    | ok _ =>
      dsimp only
      split
      · rfl
      · have hfiles : files.run jobs w = (.ok w.files, w) := rfl
        rw [Task.run_bind, bind_of_ok hfiles]
        rcases w.files.entry? (Location.absolute w.files.directories pathText) with
          _ | bytes | _ <;> rfl

/-- A path that is no directory is read as the file there, or as null. -/
theorem run_getFile_of_reaches (hreaches : w.files.Reaches uri path)
    (hpath : w.files.isDirectory path = false) (mimetype : Option String) :
    (getFile uri mimetype).run jobs w =
      match FileSystem.entry? w.files path with
      | some (.file bytes) => (decode mimetype (.bytes bytes)).run jobs w
      | _ => (.ok .null, w) := by
  obtain ⟨pathText, hlocation, rfl⟩ := hreaches.location
  rw [run_getFile, hlocation]
  dsimp only
  rw [hreaches.names]
  dsimp only
  rw [hpath]
  rfl

end Script

end ResourceScript
