import ResourceScript.Overload
import ResourceScript.Proofs.Lasting.Data
import ResourceScript.Proofs.Resource.DataUri
/-!
# Operations on resources keep resources

Reading, putting, posting and deleting keep all resources, the one that is used among them. Only
putting data into a location that holds data changes a location, and the new one holds data again
(`Script.keepsFrom_putInline`). Whatever executes the values that are put or posted has to keep
resources, too.
-/

set_option autoImplicit false

namespace ResourceScript

namespace DataUri

/-- The text of a location that holds data is such a location. -/
theorem place_text (u : DataUri) : Location.place u.text = .inline := by
  rw [Location.place, text_eq]
  rfl

end DataUri

namespace Script

/-! ### Making resources -/

instance (a b : Value) : Keeping (equals a b) := by
  unfold equals
  refine keeping_bind fun s ↦ ?_
  split <;> infer_instance

instance (source : Value) : Keeping (locationOf source) := by
  unfold locationOf
  split <;> infer_instance

instance (source : Value) : Keeping (newResource source) := by
  unfold newResource
  split <;> infer_instance

instance (r : ResourceRef) : Keeping (resource r) := by
  unfold resource
  infer_instance

instance (uri : String) : Keeping (pathOf uri) := by
  unfold pathOf
  infer_instance

instance (path : FilePath) : Keeping (isDirectory path) := by
  unfold isDirectory
  infer_instance

/-! ### Media types -/

instance (uri : String) : Keeping (findMimetype uri) := by
  unfold findMimetype
  split
  · infer_instance
  · infer_instance
  · split <;> infer_instance
  · infer_instance
  · infer_instance
  · split <;> infer_instance

/-- A media type is noted, and the location stays as it is. -/
instance (r : ResourceRef) (mimetype : String) : Keeping (setMimetype r mimetype) :=
  keeping_update fun s ↦ keepsFrom_setStore (.setResource s fun _ _ ↦ .refl _)

instance (r : ResourceRef) : Keeping (mimetypeOf r) := by
  unfold mimetypeOf
  refine keeping_bind fun record ↦ ?_
  split <;> infer_instance

/-! ### Variables -/

instance (place : Place) : Keeping (scopeOf place) := by
  unfold scopeOf
  infer_instance

instance (value : Value) (keys : List String) : Keeping (walk value keys) := by
  induction keys generalizing value with
  | nil => exact inferInstanceAs (Keeping (pure value))
  | cons key rest ih =>
    unfold walk
    infer_instance

instance (place : Place) (segments : List String) : Keeping (walkFrom place segments) := by
  unfold walkFrom
  infer_instance

instance (place : Place) (value : Value) : Keeping (mergeRoot place value) := by
  unfold mergeRoot
  refine keeping_bind fun s ↦ ?_
  split <;> infer_instance

instance (target : Value) (entries : List (Value × Value)) : Keeping (updateMap target entries) := by
  unfold updateMap
  split
  · infer_instance
  · refine keeping_bind fun s ↦ ?_
    dsimp only
    split <;> infer_instance
  · infer_instance

/-! ### Files -/

instance (path : FilePath) (pathText : String) : Keeping (listDirectory path pathText) := by
  unfold listDirectory
  infer_instance

instance (uri : String) (mimetype : Option String) : Keeping (getFile uri mimetype) := by
  unfold getFile
  refine keeping_bind fun path ↦ keeping_bind fun listed ↦ ?_
  split
  · infer_instance
  · refine keeping_bind fun files ↦ ?_
    split <;> infer_instance

instance (uri : String) (mimetype : Option String) (value : Value) :
    Keeping (putFile uri mimetype value) := by
  unfold putFile
  refine keeping_bind fun path ↦ keeping_bind fun listed ↦ ?_
  dsimp only
  split
  · infer_instance
  · refine keeping_bind fun files ↦ keeping_bind fun files ↦ keeping_bind fun _ ↦
      keeping_bind fun data ↦ ?_
    split <;> infer_instance

instance (uri : String) (mimetype : Option String) (value : Value) :
    Keeping (postFile uri mimetype value) := by
  unfold postFile
  have hpost (existing : Value) : Keeping (do
      match (← store).kindOf existing with
      | .list => do
        discard (postValue existing value)
        if ← putFile uri mimetype existing then return value else return .null
      | _ => do
        warn .cannotAppend
        return .null : Task Value) := by
    refine keeping_bind fun s ↦ ?_
    split <;> infer_instance
  infer_instance

instance (uri : String) : Keeping (deleteFile uri) := by
  unfold deleteFile
  refine keeping_bind fun path ↦ keeping_bind fun _ ↦ keeping_bind fun files ↦ ?_
  dsimp only
  split <;> infer_instance

/-! ### Servers -/

instance (request : Request) : Keeping (send request) := by
  unfold send
  refine keeping_bind fun reply ↦ ?_
  split <;> infer_instance

instance (method uri : String) : Keeping (request method uri) := by
  unfold request
  infer_instance

instance (data : Value) : Keeping (requestMimetype data) := by
  unfold requestMimetype
  split
  · refine keeping_bind fun mimetype ↦ ?_
    split <;> infer_instance
  · infer_instance

instance (r : ResourceRef) (response : Response) : Keeping (noteResponse r response) := by
  unfold noteResponse
  infer_instance

instance (r : ResourceRef) (response : Response) : Keeping (responseData r response) := by
  unfold responseData
  infer_instance

/-! ### Operations -/

section

variable {α : Type} {s : Store} {r : ResourceRef} {warning : Warning} {failed : α}
  {body : String → Task α}

theorem keepsFrom_resource {next : ResourceRecord → Task α} {P : α → Prop}
    (h : KeepsFrom s (next (s.resource r)) P) : KeepsFrom s (resource r >>= next) P := by
  intro jobs hjobs w hw
  subst hw
  exact h jobs hjobs w rfl

/-- An operation keeps what its body does for the location of the resource. -/
theorem keepsFrom_operate (hbody : ∀ uri, (s.resource r).uri = some uri →
    KeepsFrom s (body uri) fun _ ↦ True) :
    KeepsFrom s (operate r warning failed body) fun _ ↦ True := by
  unfold operate
  apply keepsFrom_resource
  cases huri : (s.resource r).uri with
  | none => exact .of_keeping
  | some uri =>
    refine (hbody uri huri).tryCatch fun t stop _ ↦ ?_
    split
    · split <;> exact .of_keeping
    · exact .of_keeping

theorem keeping_operate (hbody : ∀ uri, Keeping (body uri)) :
    Keeping (operate r warning failed body) :=
  ⟨fun _ ↦ keepsFrom_operate fun uri _ ↦ (hbody uri).keepsFrom _⟩

end

instance (r : ResourceRef) : Keeping (getData r) := by
  refine keeping_operate fun uri ↦ ?_
  split <;> infer_instance

instance (target value : Value) : Keeping (postItem target value) := by
  unfold postItem
  infer_instance

instance (place : Place) (uri : String) : Keeping (deleteVariable place uri) := by
  unfold deleteVariable
  dsimp only
  split <;> infer_instance

instance (r : ResourceRef) : Keeping (deleteData r) := by
  refine keeping_operate fun uri ↦ ?_
  split <;> infer_instance

/-! ### Operations that execute a value -/

/-- Puts data into a location that holds data. -/
def putInline (execute : Value → Task Value) (r : ResourceRef) (uri : String) (data : Value) :
    Task Bool := do
  let u ← ofExcept (DataUri.ofUri uri)
  let payload ← ofExcept (Media.encode (some u.mimetype) (← view (← execute data)))
  let s ← store
  let uri := some (DataUri.text { u with data := payload })
  setStore (s.setResource r { s.resource r with uri })
  return true

section

variable {execute : Value → Task Value} [hexecute : ∀ value, Keeping (execute value)]

instance (method uri : String) (follow : Bool) (data : Value) :
    Keeping (requestWith execute method uri follow data) := by
  unfold requestWith
  infer_instance

instance (place : Place) (uri : String) (data : Value) :
    Keeping (putVariable execute place uri data) := by
  unfold putVariable
  dsimp only
  split <;> infer_instance

/-- A location that holds data stays one when data is put into it, whatever is executed meanwhile.
-/
theorem keepsFrom_putInline {s : Store} {r : ResourceRef} {uri : String}
    (huri : (s.resource r).uri = some uri) (hplace : Location.place uri = .inline) (data : Value) :
    KeepsFrom s (putInline execute r uri data) fun _ ↦ True := by
  refine KeepsFrom.of_keeping.bind fun s₁ u hs₁ _ ↦ KeepsFrom.of_keeping.bind fun s₂ value hs₂ _ ↦
    KeepsFrom.of_keeping.bind fun s₃ shown hs₃ _ ↦ KeepsFrom.of_keeping.bind fun t payload ht _ ↦ ?_
  refine keepsFrom_store (keepsFrom_setStore_bind (.setResource t fun n hn ↦ ?_))
  subst hn
  have hn : n < s.resources.size := Store.has_of_uri huri
  have hstays := (((hs₁.trans hs₂).trans hs₃).trans ht).stays n hn
  have hinline : Location.IsInline (t.resource (.made n)).uri := by
    apply hstays.isInline
    rw [Location.IsInline, huri, Option.map_some, hplace]
  refine Or.inr ⟨hinline, ?_⟩
  rw [Location.IsInline, Option.map_some, DataUri.place_text]

instance (r : ResourceRef) (data : Value) : Keeping (putData execute r data) := by
  refine ⟨fun s ↦ keepsFrom_operate fun uri huri ↦ ?_⟩
  split
  · exact .of_keeping
  · exact .of_keeping
  · rename_i hplace
    exact keepsFrom_putInline huri hplace data
  · exact .of_keeping
  · exact .of_keeping
  · exact .of_keeping

instance (place : Place) (uri : String) (data : Value) :
    Keeping (postVariable execute place uri data) := by
  unfold postVariable
  dsimp only
  split
  · infer_instance
  · refine keeping_bind fun target ↦ keeping_bind fun value ↦ keeping_bind fun s ↦ ?_
    split <;> infer_instance

instance (r : ResourceRef) (data : Value) : Keeping (postData execute r data) := by
  refine keeping_operate fun uri ↦ ?_
  split
  · infer_instance
  · infer_instance
  · infer_instance
  · infer_instance
  · infer_instance
  · refine keeping_bind fun response ↦ keeping_bind fun _ ↦ ?_
    split
    · infer_instance
    split
    · split <;> infer_instance
    · infer_instance

end

end Script

end ResourceScript
