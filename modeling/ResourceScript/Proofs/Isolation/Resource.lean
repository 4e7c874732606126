import ResourceScript.Proofs.Isolation.Reading
import ResourceScript.Resource
/-!
# Resources of a placed store

A resource addresses variables of the scope in use, files or servers. The scope in use and the root
around it belong to the own store, so its variables do too; files and servers answer the same. What
is executed on the way is followed as well: that is a hypothesis on how values are executed.
-/

set_option autoImplicit false

namespace ResourceScript

namespace Placement

open Script

variable {P : Placement} {α β : Type}

/-! ### Making resources -/

theorem follows_surroundings {next next' : Surroundings → Task α} {move : α → α}
    (hnext : ∀ s, P.Follows move (next s) (next' s)) :
    P.Follows move (surroundings >>= next) (surroundings >>= next') :=
  Follows.bind (follows_query (q := .surroundings) trivial) hnext

theorem follows_files : P.Follows (fun f ↦ f) files files :=
  follows_query (q := .files) trivial

theorem follows_setFiles (f : FileSystem) : P.Follows (fun u ↦ u) (setFiles f) (setFiles f) :=
  follows_query (q := .setFiles f) trivial

theorem follows_write (text : String) : P.Follows (fun u ↦ u) (write text) (write text) :=
  follows_query (q := .write text) trivial

theorem follows_writeLine (text : String) :
    P.Follows (fun u ↦ u) (writeLine text) (writeLine text) :=
  follows_surroundings fun s ↦ by
    split
    · exact follows_write _
    · exact follows_fail _

theorem follows_writeError (text : String) :
    P.Follows (fun u ↦ u) (writeError text) (writeError text) :=
  follows_query (q := .writeError text) trivial

theorem follows_warn (w : Warning) : P.Follows (fun u ↦ u) (warn w) (warn w) :=
  follows_query (q := .warn w) trivial

theorem follows_locationOf (v : Value) :
    P.Follows (fun l ↦ l) (locationOf v) (locationOf (P.value v)) := by
  cases v with
  | atom a =>
    rw [value_atom]
    cases a with
    | path path =>
      exact follows_surroundings fun s ↦ (follows_ofExcept_same _).bind fun l ↦ follows_pure rfl
    | text s => exact follows_surroundings fun _ ↦ follows_ofExcept_same _
    | _ => exact follows_pure rfl
  | resource r =>
    rw [value_resource]
    exact follows_store fun _ _ h ↦ follows_pure (by rw [h.resource, record_uri])
  | _ => exact follows_pure rfl

theorem follows_newResource (v : Value) :
    P.Follows P.made (newResource v) (newResource (P.value v)) := by
  have hadd (mimetype : Option String) : P.Follows P.made
      (do addResource ⟨v, ← locationOf v, mimetype⟩)
      (do addResource ⟨P.value v, ← locationOf (P.value v), mimetype⟩) :=
    (follows_locationOf v).bind fun l ↦ follows_addResource ⟨v, l, mimetype⟩
  cases v with
  | resource r =>
    rw [value_resource] at hadd ⊢
    exact follows_store fun own _ h ↦ by
      rw [h.resource, record_mimetype]
      exact hadd _
  | _ => exact hadd none

theorem follows_madeResource (v : Value) :
    P.Follows P.value (do return .resource (← newResource v))
      (do return .resource (← newResource (P.value v))) :=
  (follows_newResource v).bind fun n ↦ follows_pure (P.value_resource (.made n))

theorem follows_madeText (s : String) :
    P.Follows P.value (do return .resource (← newResource (.text s)))
      (do return .resource (← newResource (.text s))) := by
  have hmade := follows_madeResource (P := P) (.text s)
  rwa [value_atom] at hmade

theorem follows_resource (r : ResourceRef) :
    P.Follows P.record (Script.resource r) (Script.resource (P.resource r)) :=
  follows_store fun _ _ h ↦ follows_pure (h.resource r).symm

theorem follows_pathOf (uri : String) : P.Follows (fun p ↦ p) (pathOf uri) (pathOf uri) :=
  (follows_ofExcept_same _).bind fun _ ↦ follows_surroundings fun _ ↦ follows_pure rfl

theorem follows_isDirectory (path : FilePath) :
    P.Follows (fun b ↦ b) (isDirectory path) (isDirectory path) :=
  (follows_ofExcept_same _).bind fun _ ↦ follows_files.bind fun _ ↦ follows_pure rfl

/-! ### Media types -/

theorem follows_findMimetype (uri : String) :
    P.Follows (fun m ↦ m) (findMimetype uri) (findMimetype uri) := by
  unfold findMimetype
  split
  · exact follows_pure rfl
  · exact follows_pure rfl
  · split <;> exact follows_pure rfl
  · exact follows_pure rfl
  · exact follows_pure rfl
  · split
    · exact follows_pure rfl
    · refine (follows_pathOf uri).bind fun p ↦ (follows_isDirectory p.1).bind fun b ↦ ?_
      split <;> exact follows_pure rfl

theorem follows_setMimetype (r : ResourceRef) (mimetype : String) :
    P.Follows (fun u ↦ u) (setMimetype r mimetype) (setMimetype (P.resource r) mimetype) :=
  follows_store fun own _ h ↦ by
    rw [h.resource]
    exact follows_setStore
      (h.setResource r { own.resource r with mimetype := some mimetype } rfl)

theorem follows_mimetypeOf (r : ResourceRef) :
    P.Follows (fun m ↦ m) (mimetypeOf r) (mimetypeOf (P.resource r)) :=
  (follows_resource r).bind fun record ↦ by
    rw [record_mimetype, record_uri]
    split
    · exact follows_pure rfl
    · exact follows_pure rfl
    · exact (follows_findMimetype _).bind fun mimetype ↦
        (follows_setMimetype r mimetype).bind fun _ ↦ follows_pure rfl

/-! ### Variables -/

theorem follows_scopeOf (place : Place) : P.Follows P.scope (scopeOf place) (scopeOf place) :=
  follows_currentScope.bind fun n ↦ follows_store fun own _ h ↦ follows_pure (by
    rw [h.root]
    split <;> rfl)

theorem follows_walk (v : Value) (keys : List String) :
    P.Follows P.value (walk v keys) (walk (P.value v) keys) := by
  induction keys generalizing v with
  | nil => exact follows_pure rfl
  | cons key rest ih =>
    refine follows_store fun own _ h ↦ (follows_ofExcept (h.getValue v key)).bind fun next ↦ ?_
    rw [isNull_value]
    split
    · exact follows_pure (P.value_atom .null)
    · exact ih next

theorem follows_walkFrom (place : Place) (segments : List String) :
    P.Follows P.value (walkFrom place segments) (walkFrom place segments) :=
  (follows_scopeOf place).bind fun n ↦ by
    have hwalk := follows_walk (P := P) (.scope n) segments
    rwa [value_scope] at hwalk

theorem follows_bindEntries (n : Nat) (entries : List (Value × Value)) :
    P.Follows (fun u ↦ u) (entries.forM fun e ↦ discard (Script.bind n e.1 e.2))
      ((entries.map P.entry).forM fun e ↦ discard (Script.bind (P.scope n) e.1 e.2)) := by
  refine follows_forM (fun e ↦ ?_) entries
  exact (follows_bind n e.1 e.2).discard

theorem follows_mergeRoot (place : Place) (v : Value) :
    P.Follows (fun b ↦ b) (mergeRoot place v) (mergeRoot place (P.value v)) :=
  follows_store fun own _ h ↦ by
    rw [h.entries?]
    cases own.entries? v with
    | none => exact (follows_warn _).bind fun _ ↦ follows_pure rfl
    | some entries =>
      cases entries with
      | nil => exact (follows_warn _).bind fun _ ↦ follows_pure rfl
      | cons e rest =>
        exact (follows_scopeOf place).bind fun n ↦
          (follows_bindEntries n (e :: rest)).bind fun _ ↦ follows_pure rfl

theorem follows_updateMap (target : Value) (entries : List (Value × Value)) :
    P.Follows (fun u ↦ u) (updateMap target entries)
      (updateMap (P.value target) (entries.map P.entry)) := by
  cases target with
  | scope n =>
    rw [value_scope]
    exact follows_bindEntries n entries
  | cell n =>
    rw [value_cell]
    refine follows_store fun own whole h ↦ ?_
    dsimp only
    rw [h.cell]
    cases own.cell n with
    | map old =>
      simp only [content, h.putEntries]
      exact follows_setCell n (.map _)
    | page old source =>
      simp only [content, h.putEntries]
      exact follows_setCell n (.page _ source)
    | _ => exact follows_pure rfl
  | _ => exact follows_pure rfl

/-! ### Files -/

theorem follows_listDirectory (path : FilePath) (pathText : String) :
    P.Follows P.value (listDirectory path pathText) (listDirectory path pathText) :=
  follows_files.bind fun f ↦ by
    refine (follows_mapM_same (fun name ↦ ?_) _).bind follows_newList
    exact follows_madeResource (.atom (.path _))

theorem follows_getFile (uri : String) (mimetype : Option String) :
    P.Follows P.value (getFile uri mimetype) (getFile uri mimetype) := by
  refine (follows_pathOf uri).bind fun p ↦ (follows_isDirectory p.1).bind fun b ↦ ?_
  split
  · exact follows_listDirectory _ _
  · refine follows_files.bind fun f ↦ ?_
    split
    · exact follows_decode _ _
    · exact follows_pure (P.value_atom .null)

theorem follows_putFile (uri : String) (mimetype : Option String) (v : Value) :
    P.Follows (fun b ↦ b) (putFile uri mimetype v) (putFile uri mimetype (P.value v)) := by
  have hwrite (f : FileSystem) (path : FilePath) (bytes : List UInt8) :
      P.Follows (fun b ↦ b)
        (do setFiles (← ofExcept (f.write path bytes)); return true)
        (do setFiles (← ofExcept (f.write path bytes)); return true) :=
    (follows_ofExcept_same _).bind fun f ↦ (follows_setFiles f).bind fun _ ↦ follows_pure rfl
  refine (follows_pathOf uri).bind fun p ↦ (follows_isDirectory p.1).bind fun b ↦ ?_
  split
  · exact (follows_warn _).bind fun _ ↦ follows_pure rfl
  · refine follows_files.bind fun f ↦ (follows_ofExcept_same _).bind fun f ↦
      (follows_setFiles f).bind fun _ ↦ (follows_view v).bind fun d ↦ ?_
    dsimp only
    split
    · exact hwrite f p.1 _
    · exact hwrite f p.1 _
    · exact (follows_ofExcept_same _).bind (hwrite f p.1)

/-- A value is written behind those of a file, if the file has a list. -/
theorem follows_postList (uri : String) (mimetype : Option String) (v list : Value) :
    P.Follows P.value
      (do
        match (← store).kindOf list with
        | .list => do
          discard (Script.postValue list v)
          if ← putFile uri mimetype list then return v else return .null
        | _ => do
          warn .cannotAppend
          return .null)
      (do
        match (← store).kindOf (P.value list) with
        | .list => do
          discard (Script.postValue (P.value list) (P.value v))
          if ← putFile uri mimetype (P.value list) then return (P.value v) else return .null
        | _ => do
          warn .cannotAppend
          return .null) :=
  follows_store fun own _ h ↦ by
    rw [h.kindOf]
    split
    · refine (follows_postValue list v).discard.bind fun _ ↦
        (follows_putFile uri mimetype list).bind fun done ↦ ?_
      split
      · exact follows_pure rfl
      · exact follows_pure (P.value_atom .null)
    · exact (follows_warn _).bind fun _ ↦ follows_pure (P.value_atom .null)

theorem follows_postFile (uri : String) (mimetype : Option String) (v : Value) :
    P.Follows P.value (postFile uri mimetype v) (postFile uri mimetype (P.value v)) := by
  refine (follows_getFile uri mimetype).bind fun existing ↦ ?_
  rw [isNull_value]
  split
  · exact (follows_newList []).bind (follows_postList uri mimetype v)
  · exact follows_postList uri mimetype v existing

theorem follows_deleteFile (uri : String) :
    P.Follows (fun b ↦ b) (deleteFile uri) (deleteFile uri) := by
  refine (follows_pathOf uri).bind fun p ↦ (follows_ofExcept_same _).bind fun _ ↦
    follows_files.bind fun f ↦ ?_
  dsimp only
  split
  · exact (follows_setFiles _).bind fun _ ↦ follows_pure rfl
  · exact follows_pure rfl

/-! ### Servers -/

theorem follows_send (r : Request) : P.Follows (fun r ↦ r) (send r) (send r) := by
  refine Follows.bind (follows_query (q := .send r) trivial) fun reply ↦ ?_
  split
  · exact follows_pure rfl
  · exact follows_fail _

theorem follows_request (method uri : String) :
    P.Follows (fun r ↦ r) (request method uri) (request method uri) :=
  follows_send _

theorem follows_requestMimetype (v : Value) :
    P.Follows (fun m ↦ m) (requestMimetype v) (requestMimetype (P.value v)) := by
  cases v with
  | resource r =>
    rw [value_resource]
    refine (follows_mimetypeOf r).bind fun mimetype ↦ ?_
    split
    · exact follows_pure rfl
    · exact follows_pure rfl
  | _ => exact follows_pure rfl

theorem follows_noteResponse (r : ResourceRef) (response : Response) :
    P.Follows (fun u ↦ u) (noteResponse r response) (noteResponse (P.resource r) response) :=
  follows_setMimetype r _

theorem follows_responseData (r : ResourceRef) (response : Response) :
    P.Follows P.value (responseData r response) (responseData (P.resource r) response) :=
  (follows_mimetypeOf r).bind fun _ ↦ follows_decode _ _

/-! ### Operations -/

theorem follows_operate {move : α → α} {failed failed' : α} (hfailed : move failed = failed')
    {body body' : String → Task α} (hbody : ∀ uri, P.Follows move (body uri) (body' uri))
    (r : ResourceRef) (warning : Warning) :
    P.Follows move (operate r warning failed body)
      (operate (P.resource r) warning failed' body') := by
  refine (follows_resource r).bind fun record ↦ ?_
  rw [record_uri]
  split
  · exact (follows_warn _).bind fun _ ↦ follows_pure hfailed
  · refine (hbody _).tryCatch fun stop ↦ ?_
    split
    · split
      · exact (follows_warn _).bind fun _ ↦ follows_pure hfailed
      · exact follows_throw _
    · exact follows_throw _

theorem follows_getData (r : ResourceRef) :
    P.Follows P.value (getData r) (getData (P.resource r)) := by
  refine follows_operate (P.value_atom .null) (fun uri ↦ ?_) r _
  have hserver : P.Follows P.value
      (do
        let response ← request "GET" uri
        noteResponse r response
        if 300 ≤ response.status then return .null else responseData r response)
      (do
        let response ← request "GET" uri
        noteResponse (P.resource r) response
        if 300 ≤ response.status then return .null
        else responseData (P.resource r) response) := by
    refine (follows_request _ _).bind fun response ↦
      (follows_noteResponse r response).bind fun _ ↦ ?_
    split
    · exact follows_pure (P.value_atom .null)
    · exact follows_responseData r response
  split
  · exact follows_walkFrom _ _
  · exact follows_walkFrom _ _
  · exact (follows_ofExcept_same _).bind fun u ↦ follows_decode _ _
  · exact (follows_mimetypeOf r).bind fun mimetype ↦ follows_getFile uri mimetype
  · exact hserver
  · exact hserver

section

variable {execute : Value → Task Value}
  (hexecute : ∀ v, P.Follows P.value (execute v) (execute (P.value v)))

include hexecute

theorem follows_requestWith (method uri : String) (follow : Bool) (v : Value) :
    P.Follows (fun r ↦ r) (requestWith execute method uri follow v)
      (requestWith execute method uri follow (P.value v)) :=
  (follows_requestMimetype v).bind fun _ ↦ (hexecute v).bind fun data ↦
    (follows_view data).bind fun _ ↦ (follows_ofExcept_same _).bind fun _ ↦ follows_send _

theorem follows_putVariable (place : Place) (uri : String) (v : Value) :
    P.Follows (fun b ↦ b) (putVariable execute place uri v)
      (putVariable execute place uri (P.value v)) := by
  unfold putVariable
  dsimp only
  split
  · exact (hexecute v).bind fun data ↦ follows_mergeRoot place data
  · refine (follows_walkFrom place _).bind fun parent ↦ ?_
    rw [isNull_value]
    split
    · exact follows_pure rfl
    · exact (hexecute v).bind fun data ↦ follows_putText parent _ data

theorem follows_putData (r : ResourceRef) (v : Value) :
    P.Follows (fun b ↦ b) (putData execute r v) (putData execute (P.resource r) (P.value v)) := by
  refine follows_operate rfl (fun uri ↦ ?_) r _
  have hserver : P.Follows (fun b ↦ b)
      (do
        let response ← requestWith execute "PUT" uri true v
        noteResponse r response
        return decide (response.status < 300))
      (do
        let response ← requestWith execute "PUT" uri true (P.value v)
        noteResponse (P.resource r) response
        return decide (response.status < 300)) :=
    (follows_requestWith hexecute _ _ _ v).bind fun response ↦
      (follows_noteResponse r response).bind fun _ ↦ follows_pure rfl
  split
  · exact follows_putVariable hexecute _ uri v
  · exact follows_putVariable hexecute _ uri v
  · refine (follows_ofExcept_same _).bind fun u ↦ (hexecute v).bind fun data ↦
      (follows_view data).bind fun d ↦ (follows_ofExcept_same _).bind fun payload ↦
        follows_store fun own _ h ↦ ?_
    rw [h.resource]
    exact (follows_setStore (h.setResource r { own.resource r with uri := some _ } rfl)).bind
      fun _ ↦ follows_pure rfl
  · exact (follows_mimetypeOf r).bind fun mimetype ↦ (hexecute v).bind fun data ↦
      follows_putFile uri mimetype data
  · exact hserver
  · exact hserver

omit hexecute in
theorem follows_postItem (target v : Value) :
    P.Follows P.value (postItem target v) (postItem (P.value target) (P.value v)) := by
  refine (follows_postValue target v).bind fun done ↦ ?_
  split
  · exact follows_getText target "last"
  · exact follows_pure (P.value_atom .null)

theorem follows_postVariable (place : Place) (uri : String) (v : Value) :
    P.Follows P.value (postVariable execute place uri v)
      (postVariable execute place uri (P.value v)) := by
  unfold postVariable
  dsimp only
  split
  · refine (hexecute v).bind fun data ↦ (follows_mergeRoot place data).bind fun done ↦ ?_
    split
    · exact follows_pure rfl
    · exact follows_pure (P.value_atom .null)
  · refine (follows_walkFrom place _).bind fun target ↦ (hexecute v).bind fun data ↦
      follows_store fun own _ h ↦ ?_
    rw [h.entries?, h.entries?]
    cases own.entries? target with
    | none => exact follows_postItem target data
    | some old =>
      cases own.entries? data with
      | none => exact follows_postItem target data
      | some entries =>
        exact (follows_updateMap target entries).bind fun _ ↦ follows_pure rfl

theorem follows_postData (r : ResourceRef) (v : Value) :
    P.Follows P.value (postData execute r v) (postData execute (P.resource r) (P.value v)) := by
  have hself : P.Follows P.value (pure (.resource r)) (pure (.resource (P.resource r))) :=
    follows_pure (P.value_resource r)
  have hwarn : P.Follows P.value (do warn .cannotPostLocation; return .null)
      (do warn .cannotPostLocation; return .null) :=
    (follows_warn _).bind fun _ ↦ follows_pure (P.value_atom .null)
  refine follows_operate (P.value_atom .null) (fun uri ↦ ?_) r _
  split
  · exact follows_postVariable hexecute _ uri v
  · exact follows_postVariable hexecute _ uri v
  · exact hwarn
  · exact hwarn
  · exact (follows_mimetypeOf r).bind fun mimetype ↦ (hexecute v).bind fun data ↦
      follows_postFile uri mimetype data
  · refine (follows_requestWith hexecute _ _ _ v).bind fun response ↦
      (follows_noteResponse r response).bind fun _ ↦ ?_
    split
    · exact follows_pure (P.value_atom .null)
    · split
      · split
        · split
          · exact hself
          · exact follows_madeText _
        · exact hself
      · exact follows_responseData r response

end

theorem follows_deleteVariable (place : Place) (uri : String) :
    P.Follows (fun b ↦ b) (deleteVariable place uri) (deleteVariable place uri) := by
  unfold deleteVariable
  dsimp only
  split
  · exact (follows_warn _).bind fun _ ↦ follows_pure rfl
  · refine (follows_walkFrom place _).bind fun parent ↦ ?_
    rw [isNull_value]
    split
    · exact follows_pure rfl
    · exact follows_deleteText parent _

theorem follows_deleteData (r : ResourceRef) :
    P.Follows (fun b ↦ b) (deleteData r) (deleteData (P.resource r)) := by
  refine follows_operate rfl (fun uri ↦ ?_) r _
  split
  · exact follows_deleteVariable _ uri
  · exact follows_deleteVariable _ uri
  · exact (follows_warn _).bind fun _ ↦ follows_pure rfl
  · exact (follows_warn _).bind fun _ ↦ follows_pure rfl
  · exact follows_deleteFile uri
  · exact (follows_request _ _).bind fun response ↦
      (follows_noteResponse r response).bind fun _ ↦ follows_pure rfl

end Placement

end ResourceScript
