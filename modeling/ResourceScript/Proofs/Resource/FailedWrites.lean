import ResourceScript.Proofs.Files.Entries
import ResourceScript.Proofs.Files.Leaving
import ResourceScript.Proofs.Files.Reading
import ResourceScript.Proofs.Resource.Steps
import ResourceScript.Proofs.Session.Steps
/-!
# Writes to files that fail

Data that is put or posted to a file may have no text in the media type of the file. The directories
around the file are made before that is found out, and they stay. Nothing else does: every entry of
the file system is still there with its content, no file is new, and when the directories were there
before, nothing has changed at all (`Script.keepsContent_of_failed_write`).
-/

set_option autoImplicit false

namespace ResourceScript

namespace FileSystem

/-- Whether one file system is another one in which nothing but the directories around the file at a
location has been made. -/
def KeepsContent (uri : String) (before after : FileSystem) : Prop :=
  after = before ∨ ∃ pathText, Location.filePath uri = .ok pathText ∧
    AddsDirectories (Location.absolute before.directories pathText).dropLast before after

theorem KeepsContent.refl {uri : String} (before : FileSystem) : KeepsContent uri before before :=
  Or.inl rfl

end FileSystem

namespace Script

open FileSystem (KeepsContent)

variable {α β : Type} {jobs : Job → Script Value} {execute : Value → Task Value} {r : ResourceRef}
  {uri : String} {mimetype : Option String} {data value : Value} {w u v : World}

/-! ### Running on from unchanged files -/

/-- A task that begins with one that leaves the files stops there, or it goes on from the same files.
So it does to the files what its rest does. -/
theorem rel_of_bind {R : FileSystem → FileSystem → Prop} {x : Task α} [LeavesFiles x]
    {next : α → Task β} {result : Except Stop β} (hrefl : ∀ before, R before before)
    (hrun : (x >>= next).run jobs w = (result, v))
    (hnext : ∀ a t, x.run jobs w = (.ok a, t) → (next a).run jobs t = (result, v) →
      R t.files v.files) : R w.files v.files := by
  rw [Task.run_bind] at hrun
  rcases hx : x.run jobs w with ⟨stop | a, t⟩
  · rw [bind_of_error hx] at hrun
    cases hrun
    rw [files_eq_of_run hx]
    exact hrefl _
  · rw [bind_of_ok hx] at hrun
    rw [← files_eq_of_run hx]
    exact hnext a t hx hrun

/-- An operation on a resource leaves the files as its body does, and answers what the body does. -/
theorem run_operate_cases {warning : Warning} {failed : α} {body : String → Task α}
    {result : Except Stop α} (huri : (w.store.resource r).uri = some uri)
    (hrun : (operate r warning failed body).run jobs w = (result, v)) :
    ∃ result' t, (body uri).run jobs w = (result', t) ∧ v.files = t.files ∧
      ∀ a, result' = .ok a → result = .ok a := by
  rw [run_operate huri] at hrun
  rcases hbody : (body uri).run jobs w with ⟨(cause | status | _) | a, t⟩
  · rw [hbody] at hrun
    dsimp only at hrun
    split at hrun <;> cases hrun <;> exact ⟨_, _, rfl, rfl, fun a ha ↦ by cases ha⟩
  all_goals
    rw [hbody] at hrun
    cases hrun
    exact ⟨_, _, rfl, rfl, fun a ha ↦ ha⟩

/-! ### Writing -/

/-- The bytes that are written for data: bytes as they are, all else by the media type. -/
def fileBytes (mimetype : Option String) (data : Data) : Except Fault (List UInt8) :=
  match data with
  | .atom (.bytes bytes) => .ok bytes
  | .buffer bytes => .ok bytes
  | data => Media.encode mimetype data

/-- Makes the directory in which a file is to be written. -/
def makeAround (path : FilePath) : Task FileSystem := do
  let made ← ofExcept ((← files).makeDirectory path.dropLast)
  setFiles made
  return made

theorem run_makeAround (path : FilePath) (w : World) :
    (makeAround path).run jobs w =
      match w.files.makeDirectory path.dropLast with
      | .ok made => (.ok made, { w with files := made })
      | .error cause => (.error (.fault cause), w) := by
  have hrun : (makeAround path).run jobs w =
      ((ofExcept (w.files.makeDirectory path.dropLast) : Task _) >>= fun made ↦
        setFiles made >>= fun _ ↦ pure made).run jobs w := rfl
  rw [hrun]
  cases hmade : w.files.makeDirectory path.dropLast with
  | error cause => rfl
  | ok made =>
    have hdirectories := FileSystem.directories_makeDirectory hmade
    have hsame : { w.files with entries := made.entries } = made := by
      cases made
      cases hdirectories
      rfl
    show (Except.ok made, { w with files := { w.files with entries := made.entries } }) = _
    rw [hsame]

/-- Writing to a file in the directories around it, which are made. -/
def writeBytes (path : FilePath) (mimetype : Option String) (value : Value)
    (made : FileSystem) : Task Bool := do
  let bytes ← ofExcept (fileBytes mimetype (← view value))
  let written ← ofExcept (made.write path bytes)
  setFiles written
  return true

/-- Writing to a path: directories are refused, and those around a file are made first. -/
def writeFile (path : FilePath) (mimetype : Option String) (value : Value) : Task Bool := do
  if ← isDirectory path then
    warn .cannotWriteDirectory
    return false
  else
    let made ← makeAround path
    writeBytes path mimetype value made

theorem putFile_eq (uri : String) (mimetype : Option String) (value : Value) :
    putFile uri mimetype value = pathOf uri >>= fun place ↦ writeFile place.1 mimetype value := by
  unfold putFile writeFile
  congr 1
  funext ⟨path, pathText⟩
  dsimp only
  congr 1
  funext found
  split
  · rfl
  · unfold makeAround writeBytes
    simp only [bind_assoc, pure_bind]
    congr 1
    funext before
    congr 1
    funext made
    congr 1
    funext _
    congr 1
    funext shown
    cases shown with
    | atom a => cases a <;> rfl
    | _ => rfl

/-- Once the directories are made, a write that is not done changes nothing. -/
theorem files_writeBytes {path : FilePath} {made : FileSystem} {result : Except Stop Bool}
    (hrun : (writeBytes path mimetype value made).run jobs w = (result, v))
    (hresult : result ≠ .ok true) : v.files = w.files := by
  have hrefl (before : FileSystem) : before = before := rfl
  unfold writeBytes at hrun
  refine (rel_of_bind hrefl hrun fun shown t _ hrun ↦ ?_).symm
  refine rel_of_bind hrefl hrun fun bytes t _ hrun ↦ ?_
  refine rel_of_bind hrefl hrun fun written t _ hrun ↦ ?_
  cases hrun
  exact absurd rfl hresult

theorem files_writeFile {path : FilePath} {result : Except Stop Bool}
    (hrun : (writeFile path mimetype value).run jobs w = (result, v)) (hresult : result ≠ .ok true) :
    v.files = w.files ∨ FileSystem.AddsDirectories path.dropLast w.files v.files := by
  unfold writeFile at hrun
  refine rel_of_bind (R := fun before after ↦ after = before ∨
    FileSystem.AddsDirectories path.dropLast before after) (fun _ ↦ Or.inl rfl) hrun
    fun found t _ hrun ↦ ?_
  cases found with
  | true =>
    cases hrun
    exact Or.inl rfl
  | false =>
    have hmake : (makeAround path).run jobs t = _ := run_makeAround path t
    rw [if_neg Bool.false_ne_true, Task.run_bind] at hrun
    cases hmade : t.files.makeDirectory path.dropLast with
    | error cause =>
      rw [hmade] at hmake
      rw [bind_of_error hmake] at hrun
      cases hrun
      exact Or.inl rfl
    | ok made =>
      rw [hmade] at hmake
      rw [bind_of_ok hmake] at hrun
      rw [files_writeBytes hrun hresult]
      exact Or.inr (FileSystem.addsDirectories_makeDirectory hmade)

/-- A write that is not done leaves all content. -/
theorem keepsContent_putFile {result : Except Stop Bool}
    (hrun : (putFile uri mimetype value).run jobs w = (result, v)) (hresult : result ≠ .ok true) :
    KeepsContent uri w.files v.files := by
  rw [putFile_eq] at hrun
  refine rel_of_bind .refl hrun fun place t hplace hrun ↦ ?_
  obtain ⟨-, pathText, hlocation, hpath⟩ := pathOf_eq_ok hplace
  rw [← files_eq_of_run hplace] at hpath
  rcases files_writeFile hrun hresult with hsame | hadds
  · exact Or.inl hsame
  · exact Or.inr ⟨pathText, hlocation, hpath ▸ hadds⟩

theorem postFile_eq (uri : String) (mimetype : Option String) (value : Value) :
    postFile uri mimetype value = (do
      let found ← getFile uri mimetype
      let existing ← (if found.isNull then newList [] else pure found : Task Value)
      match (← store).kindOf existing with
      | .list => do
        discard (postValue existing value)
        if ← putFile uri mimetype existing then return value else return .null
      | _ => do
        warn .cannotAppend
        return .null) := by
  unfold postFile
  congr 1
  funext found
  split <;> rfl

/-- A value that is not appended to the list in a file leaves all content. -/
theorem keepsContent_postFile {result : Except Stop Value}
    (hrun : (postFile uri mimetype value).run jobs w = (result, v))
    (hresult : result ≠ .ok value) : KeepsContent uri w.files v.files := by
  rw [postFile_eq] at hrun
  refine rel_of_bind .refl hrun fun found t _ hrun ↦ ?_
  refine rel_of_bind .refl hrun fun existing t _ hrun ↦ ?_
  refine rel_of_bind .refl hrun fun s t _ hrun ↦ ?_
  split at hrun
  · refine rel_of_bind .refl hrun fun _ t _ hrun ↦ ?_
    rw [Task.run_bind] at hrun
    rcases hput : (putFile uri mimetype existing).run jobs t with ⟨stop | done, t'⟩
    · rw [bind_of_error hput] at hrun
      cases hrun
      exact keepsContent_putFile hput (by simp)
    · rw [bind_of_ok hput] at hrun
      cases done with
      | true =>
        cases hrun
        exact absurd rfl hresult
      | false =>
        cases hrun
        exact keepsContent_putFile hput (by simp)
  · cases hrun
    exact Or.inl rfl

/-! ### Putting and posting -/

/-- A value that is executed and then written stops before the writing, or is written where the
executing has ended. -/
theorem run_executed_cases {executed : Except Stop Value} {write : Option String → Value → Task α}
    {result : Except Stop α}
    (hexecute : (mimetypeOf r >>= fun _ ↦ execute data).run jobs w = (executed, u))
    (hrun : (mimetypeOf r >>= fun mimetype ↦ execute data >>= write mimetype).run jobs w =
      (result, v)) :
    v = u ∨ ∃ mimetype value, executed = .ok value ∧
      (write mimetype value).run jobs u = (result, v) := by
  rw [Task.run_bind] at hexecute hrun
  rcases hmimetype : (mimetypeOf r).run jobs w with ⟨stop | mimetype, t⟩
  · rw [bind_of_error hmimetype] at hexecute hrun
    cases hexecute
    cases hrun
    exact Or.inl rfl
  · rw [bind_of_ok hmimetype] at hexecute hrun
    rw [Task.run_bind, bind_apply, hexecute] at hrun
    cases executed with
    | error stop =>
      cases hrun
      exact Or.inl rfl
    | ok value => exact Or.inr ⟨mimetype, value, rfl, hrun⟩

/-- Let the data that is put or posted to a resource of a file be executed. When putting is not
done, or posting stops or answers null for a value that is not null, every entry is as the executing
has left it, and what is new are directories around the file. -/
theorem keepsContent_of_failed_write {executed : Except Stop Value}
    (huri : (w.store.resource r).uri = some uri) (hplace : Location.place uri = .file)
    (hexecute : (mimetypeOf r >>= fun _ ↦ execute data).run jobs w = (executed, u)) :
    (∀ result v, (putData execute r data).run jobs w = (result, v) → result ≠ .ok true →
      KeepsContent uri u.files v.files) ∧
    ∀ result v, (postData execute r data).run jobs w = (result, v) → executed ≠ .ok .null →
      (∀ answer, result = .ok answer → answer = .null) → KeepsContent uri u.files v.files := by
  constructor
  · intro result v hrun hresult
    obtain ⟨result', t, hbody, hfiles, hanswer⟩ := run_operate_cases huri hrun
    rw [hplace] at hbody
    rw [hfiles]
    rcases run_executed_cases hexecute hbody with rfl | ⟨mimetype, value, -, hput⟩
    · exact Or.inl rfl
    · exact keepsContent_putFile hput fun hdone ↦ hresult (hanswer true hdone)
  · intro result v hrun hvalue hresult
    obtain ⟨result', t, hbody, hfiles, hanswer⟩ := run_operate_cases huri hrun
    rw [hplace] at hbody
    rw [hfiles]
    rcases run_executed_cases hexecute hbody with rfl | ⟨mimetype, value, hexecuted, hpost⟩
    · exact Or.inl rfl
    · refine keepsContent_postFile hpost fun hdone ↦ hvalue ?_
      rw [hexecuted, hresult value (hanswer value hdone)]

/-- Before plain data is written, the files are as they were. -/
theorem files_executed_of_isPlain (r : ResourceRef) (hdata : data.IsPlain) (depth : Nat) (w : World) :
    ((mimetypeOf r >>= fun _ ↦ Script.execute data).runAt depth w).2.files = w.files := by
  rw [Task.runAt, Task.run_bind]
  rcases hmimetype : (mimetypeOf r).run (Job.run depth) w with ⟨stop | mimetype, t⟩
  · rw [bind_of_error hmimetype]
    exact files_eq_of_run hmimetype
  · have hworld := world_execute_of_isPlain hdata depth t
    rw [Task.runAt] at hworld
    rw [bind_of_ok hmimetype, hworld]
    exact files_eq_of_run hmimetype

/-- The world in which nothing is stored but the resource of an XML file in missing directories. -/
def xmlWorld : World :=
  withResource builtinWorld "file:///d/e/r.xml"

/-- An integer has no XML text, and neither has a list: putting and posting fail, and of the file
system only the missing directories around the file have been made. -/
theorem keepsContent_of_failed_write_xmlWorld :
    ∃ v t, (putData Script.execute (.made 0) (.int 5)).runAt Job.maxDepth xmlWorld =
        (.error (.fault (.conversion (.xmlNotMap "int"))), v) ∧
      (postData Script.execute (.made 0) (.int 5)).runAt Job.maxDepth xmlWorld =
        (.error (.fault (.conversion (.xmlNotMap "list"))), t) ∧
      KeepsContent "file:///d/e/r.xml" xmlWorld.files v.files ∧
      KeepsContent "file:///d/e/r.xml" xmlWorld.files t.files := by
  have hput : ((putData Script.execute (.made 0) (.int 5)).runAt Job.maxDepth xmlWorld).1 =
    .error (.fault (.conversion (.xmlNotMap "int"))) := by decide +kernel
  have hpost : ((postData Script.execute (.made 0) (.int 5)).runAt Job.maxDepth xmlWorld).1 =
    .error (.fault (.conversion (.xmlNotMap "list"))) := by decide +kernel
  have hexecute : ((mimetypeOf (.made 0) >>= fun _ ↦ Script.execute (.int 5)).runAt
    Job.maxDepth xmlWorld).1 = .ok (.int 5) := by decide +kernel
  have huri : (xmlWorld.store.resource (.made 0)).uri = some "file:///d/e/r.xml" := rfl
  have hplace : Location.place "file:///d/e/r.xml" = .file := by decide
  have hplain : (Value.int 5).IsPlain := trivial
  have hfiles := files_executed_of_isPlain (.made 0) hplain Job.maxDepth xmlWorld
  obtain ⟨v, hputs⟩ := exists_eq_of_fst hput
  obtain ⟨t, hposts⟩ := exists_eq_of_fst hpost
  obtain ⟨u, hexecuted⟩ := exists_eq_of_fst hexecute
  rw [hexecuted] at hfiles
  obtain ⟨hkeepsPut, hkeepsPost⟩ := keepsContent_of_failed_write huri hplace hexecuted
  rw [hfiles] at hkeepsPut hkeepsPost
  exact ⟨v, t, hputs, hposts, hkeepsPut _ v hputs (by simp), hkeepsPost _ t hposts (by simp) (by simp)⟩

end Script

end ResourceScript
