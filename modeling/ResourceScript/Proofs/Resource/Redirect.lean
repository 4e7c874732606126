import ResourceScript.Proofs.Language.Program
import ResourceScript.Proofs.Lasting.Library
import ResourceScript.Proofs.Location.FileUri
import ResourceScript.Proofs.Media.Values
import ResourceScript.Proofs.Resource.Steps
import ResourceScript.Proofs.Task.Alike
import ResourceScript.Proofs.Text.Pieces
/-!
# What a server's answer can lead to

A post to a server may be answered by a redirection. Then the answer is a resource: the one that was
posted to, or one at the location that the answer names. That location is found as in source text,
so it need not be on a server. It is local exactly for the texts described by
`Location.DenotesLocal`: blank texts, paths of files and of variables, and the schemes `file`,
`data` and `app`. All other answers lead to a server or to nothing (`Script.postData_redirected`).
-/

set_option autoImplicit false

namespace ResourceScript

open Text

namespace Location

/-! ### Locations that are not on a server -/

/-- Whether a location, if there is one, is on a server. -/
def IsRemote (uri : Option String) : Prop :=
  ∀ text, uri = some text → place text = .server

/-- Whether a text denotes data that is not on a server: the root scope when it is blank, a path of
a file, a path of variables, or a location with a scheme for one of these or for data. -/
def DenotesLocal (text : List Char) : Prop :=
  trim text = [] ∨ beginsPath (trim text) = true ∨
    (∃ scheme ∈ ["file", "data", "app"], scheme? (trim text) = some scheme) ∨
    scheme? (trim text) = none ∧ isPath (trim text) = true

theorem isRemote_none : IsRemote none :=
  nofun

theorem isRemote_some_iff {uri : String} : IsRemote (some uri) ↔ place uri = .server := by
  constructor
  · intro h
    exact h uri rfl
  · rintro h _ ⟨⟩
    exact h

/-- A location with a supported scheme is on a server or has one of the other three schemes. -/
theorem place_eq_server_iff {text : List Char} {scheme : String}
    (hscheme : scheme? text = some scheme) (hsupported : scheme ∈ supportedSchemes) :
    place (String.ofList text) = .server ↔ scheme ∉ ["file", "data", "app"] := by
  rw [place, String.toList_ofList, hscheme]
  simp only [supportedSchemes, List.mem_cons, List.not_mem_nil, or_false] at hsupported
  rcases hsupported with rfl | rfl | rfl | rfl | rfl <;> decide

/-- A text denotes a server or nothing, unless it denotes local data. -/
theorem isRemote_ofText?_iff {directories : Directories} {text : List Char} {uri : Option String}
    (h : ofText? directories text = .ok uri) : IsRemote uri ↔ ¬ DenotesLocal text := by
  unfold DenotesLocal
  unfold ofText? at h
  generalize trim text = trimmed at h
  dsimp only at h
  split at h
  · rename_i hempty
    cases h
    have happ : place appRoot ≠ .server := by decide
    rw [isRemote_some_iff]
    exact iff_of_false happ (not_not_intro (.inl (List.isEmpty_iff.1 hempty)))
  rename_i hfilled
  rw [List.isEmpty_iff] at hfilled
  split at h
  · rename_i hpath
    obtain ⟨located, hfile, rfl⟩ := map_eq_ok h
    obtain ⟨path, -, hlocated⟩ := bind_eq_ok hfile
    cases hlocated
    rw [isRemote_some_iff, place_fileUri]
    exact iff_of_false nofun (not_not_intro (.inr (.inl hpath)))
  rename_i hpath
  split at h
  · rename_i scheme hscheme
    cases h
    simp only [hfilled, hpath, hscheme, Option.some.injEq, false_or, reduceCtorEq, false_and,
      or_false, exists_eq_right']
    by_cases hsupported : scheme ∈ supportedSchemes
    · rw [if_pos (List.contains_iff_mem.2 hsupported), isRemote_some_iff]
      exact place_eq_server_iff hscheme hsupported
    · have hlocal : ∀ other ∈ ["file", "data", "app"], other ∈ supportedSchemes := by decide
      rw [if_neg (mt List.contains_iff_mem.1 hsupported)]
      exact iff_of_true isRemote_none fun hmem ↦ hsupported (hlocal scheme hmem)
  · rename_i hscheme
    cases h
    simp only [hfilled, hpath, hscheme, false_or, reduceCtorEq, and_false, exists_false, true_and]
    by_cases hvariable : isPath trimmed = true
    · have hplace : place (String.ofList trimmed) = .variable := by
        rw [place, String.toList_ofList, hscheme]
      rw [if_pos hvariable, isRemote_some_iff, hplace]
      exact iff_of_false nofun (not_not_intro hvariable)
    · rw [if_neg hvariable]
      exact iff_of_true isRemote_none hvariable

end Location

namespace Script

variable {jobs : Job → Script Value} {w t v : World} {r m : ResourceRef} {uri : String}
  {response : Response}

/-! ### Requests -/

/-- The media type and the body of a request with data. -/
def requestBody (execute : Value → Task Value) (data : Value) : Task (String × List UInt8) := do
  let mimetype ← requestMimetype data
  let body ← ofExcept (Media.encode (some mimetype) (← view (← execute data)))
  return (mimetype, body)

theorem requestWith_eq (execute : Value → Task Value) (method uri : String) (follow : Bool)
    (data : Value) : requestWith execute method uri follow data =
      requestBody execute data >>= fun message ↦
        send ⟨method, uri, [("Content-Type", message.1)], some message.2, follow⟩ := by
  simp only [requestWith, requestBody, bind_assoc, pure_bind]

instance (data : Value) : Keeping (requestBody execute data) := by
  unfold requestBody
  infer_instance

/-- Making the body of a request from plain data leaves the world as it is. -/
theorem eq_of_run_requestBody {depth : Nat} {data : Value} (hdata : data.IsPlain)
    {message : String × List UInt8}
    (h : (requestBody execute data).runAt depth w = (.ok message, t)) : t = w := by
  have hmimetype : requestMimetype data = pure Media.json.name := by
    cases data with
    | resource r => exact hdata.elim
    | _ => rfl
  rw [requestBody, hmimetype, pure_bind, Task.runAt, Task.run_bind] at h
  obtain ⟨a, u, hexecute, hrest⟩ := bind_eq_ok_iff.1 h
  have hu := world_execute_of_isPlain hdata depth w
  rw [Task.runAt, hexecute] at hu
  have hview : (view a).run (Job.run depth) u = (.ok (u.store.view a), u) := rfl
  rw [Task.run_bind, bind_of_ok hview] at hrest
  cases hencode : Media.encode (some Media.json.name) (u.store.view a) with
  | error cause =>
    rw [hencode] at hrest
    cases hrest
  | ok body =>
    rw [hencode] at hrest
    cases hrest
    exact hu

/-- A request that is answered has taken the next reply. -/
theorem run_send_eq_ok {request : Request}
    (h : (send request).run jobs t = (.ok response, v)) :
    t.replies.head? = some (.response response.status response.headers response.body) ∧
      v = { t with requests := request :: t.requests, replies := t.replies.drop 1 } := by
  rw [send, Task.run_bind, bind_of_ok (Task.run_query ..)] at h
  simp only [World.answer] at h
  split at h
  · rename_i hreply
    cases h
    exact ⟨hreply, rfl⟩
  · cases h

/-! ### What a response leads to -/

/-- The location that a response leads on to, if it names one. -/
def Response.target? (response : Response) : Option String :=
  (response.header? "Location").filter (· ≠ "")

/-- What posted data is answered with for a response. -/
def postAnswer (r : ResourceRef) (response : Response) : Task Value := do
  if 400 ≤ response.status then return .null
  else if 300 ≤ response.status then
    match response.header? "Location" with
    | some location =>
      if location = "" then return .resource r
      else return .resource (← newResource (.text location))
    | none => return .resource r
  else responseData r response

theorem postAnswer_of_redirect (hleast : 300 ≤ response.status) (hmost : response.status < 400) :
    postAnswer r response =
      match response.target? with
      | none => pure (.resource r)
      | some location => do return .resource (← newResource (.text location)) := by
  rw [postAnswer, if_neg (Nat.not_le.2 hmost), if_pos hleast, Response.target?]
  cases response.header? "Location" with
  | none => rfl
  | some location =>
    by_cases hempty : location = ""
    · subst hempty
      rfl
    · simp [hempty, Option.filter]

/-- Only a redirection is answered with a resource. -/
theorem redirects_of_postAnswer
    (h : (postAnswer r response).run jobs w = (.ok (.resource m), v)) :
    300 ≤ response.status ∧ response.status < 400 := by
  by_cases hmost : 400 ≤ response.status
  · rw [postAnswer, if_pos hmost] at h
    cases h
  by_cases hleast : 300 ≤ response.status
  · exact ⟨hleast, Nat.not_le.1 hmost⟩
  · rw [postAnswer, if_neg hmost, if_neg hleast] at h
    have hdata : (responseData r response).Returns Value.IsNoResource :=
      returns_bind fun mimetype ↦ returns_decode mimetype (.bytes response.body)
    exact absurd rfl (hdata jobs w _ v h m)

/-- Noting a response changes what is known of the resource, but not its location. -/
theorem run_noteResponse (jobs : Job → Script Value) (r : ResourceRef) (response : Response)
    (w : World) :
    ∃ record, record.uri = (w.store.resource r).uri ∧ (noteResponse r response).run jobs w =
      (.ok (), { w with store := w.store.setResource r record }) := by
  have hset (mimetype : String) :
      let record := { w.store.resource r with mimetype := some mimetype }
      (setMimetype r mimetype).run jobs w =
        (.ok (), { w with store := w.store.setResource r record }) := rfl
  refine ⟨_, ?_, hset _⟩
  rfl

/-- A post to a server sends one request, and its answer is by the response to it. -/
theorem exists_of_postData {data : Value} (huri : (w.store.resource r).uri = some uri)
    (hplace : Location.place uri = .server)
    (hpost : (postData execute r data).run jobs w = (.ok (.resource m), v)) :
    ∃ mimetype body t response record,
      (requestBody execute data).run jobs w = (.ok (mimetype, body), t) ∧
      t.replies.head? = some (.response response.status response.headers response.body) ∧
      record.uri = (t.store.resource r).uri ∧
      (postAnswer r response).run jobs { t with
        store := t.store.setResource r record
        requests := ⟨"POST", uri, [("Content-Type", mimetype)], some body, false⟩ :: t.requests
        replies := t.replies.drop 1 } = (.ok (.resource m), v) := by
  have hbody := run_body_of_operate huri hpost nofun
  rw [hplace] at hbody
  have hparts : (requestWith execute "POST" uri false data >>= fun response ↦
      noteResponse r response >>= fun _ ↦ postAnswer r response : Task Value).run jobs w =
        (.ok (.resource m), v) := hbody
  rw [requestWith_eq, bind_assoc, Task.run_bind] at hparts
  obtain ⟨⟨mimetype, body⟩, t, hrequest, hrest⟩ := bind_eq_ok_iff.1 hparts
  rw [Task.run_bind] at hrest
  obtain ⟨response, u, hsend, hrest⟩ := bind_eq_ok_iff.1 hrest
  obtain ⟨hreply, rfl⟩ := run_send_eq_ok hsend
  obtain ⟨record, hrecord, hnote⟩ := run_noteResponse jobs r response { t with
    requests := ⟨"POST", uri, [("Content-Type", mimetype)], some body, false⟩ :: t.requests
    replies := t.replies.drop 1 }
  rw [Task.run_bind, bind_of_ok hnote] at hrest
  exact ⟨mimetype, body, t, response, record, hrequest, hreply, hrecord, hrest⟩

/-- A location on a server stays in every run. -/
theorem uri_of_stays {new : Option String} (hplace : Location.place uri = .server)
    (h : Location.Stays (some uri) new) : new = some uri := by
  rcases h with hsame | ⟨hinline, -⟩
  · exact hsame
  · rw [Location.IsInline, Option.map_some, hplace] at hinline
    cases hinline

theorem run_bind_newResource {location : String}
    (h : (do return .resource (← newResource (.text location)) : Task Value).run jobs w =
      (.ok (.resource m), v)) :
    v.requests = w.requests ∧
      Location.ofText? w.surroundings.directories location.toList =
        .ok (v.store.resource m).uri := by
  rw [Task.run_bind, bind_apply, run_newResource] at h
  split at h
  · rename_i hrun
    split at hrun
    · rename_i found hfound
      cases hrun
      cases h
      refine ⟨rfl, ?_⟩
      rw [Store.resource_addResource, hfound]
    · cases hrun
  · cases h

/-- When a post to a server is answered by a resource, the response was a redirection. If the
response names no location, the resource is the one that was posted to, where executing the data has
left it: still on that server, if it was made by running or the data is plain. If it names one, the
resource is at the location that its text denotes, which is on a server, or none at all, exactly if
the text does not denote local data. -/
theorem postData_redirected {depth : Nat} {data : Value}
    (huri : (w.store.resource r).uri = some uri) (hplace : Location.place uri = .server)
    (hpost : (postData execute r data).runAt depth w = (.ok (.resource m), v)) :
    ∃ mimetype body t, ∃ response : Response,
      (requestBody execute data).runAt depth w = (.ok (mimetype, body), t) ∧
      t.replies.head? = some (.response response.status response.headers response.body) ∧
      v.requests = ⟨"POST", uri, [("Content-Type", mimetype)], some body, false⟩ :: t.requests ∧
      300 ≤ response.status ∧ response.status < 400 ∧
      (response.target? = none → m = r ∧
        (v.store.resource r).uri = (t.store.resource r).uri ∧
        ((∃ n, r = .made n) ∨ data.IsPlain → (v.store.resource r).uri = some uri)) ∧
      ∀ location, response.target? = some location →
        Location.ofText? w.surroundings.directories location.toList =
          .ok (v.store.resource m).uri ∧
        (Location.IsRemote (v.store.resource m).uri ↔
          ¬ Location.DenotesLocal location.toList) := by
  obtain ⟨mimetype, body, t, response, record, hrequest, hreply, hrecord, hanswer⟩ :=
    exists_of_postData huri hplace hpost
  obtain ⟨hleast, hmost⟩ := redirects_of_postAnswer hanswer
  rw [postAnswer_of_redirect hleast hmost] at hanswer
  refine ⟨mimetype, body, t, response, hrequest, hreply, ?_, hleast, hmost, fun htarget ↦ ?_,
    fun location htarget ↦ ?_⟩
  · cases htarget : response.target? with
    | none =>
      rw [htarget] at hanswer
      cases hanswer
      rfl
    | some location =>
      rw [htarget] at hanswer
      exact (run_bind_newResource hanswer).1
  · rw [htarget] at hanswer
    cases hanswer
    have hr : t.store.Has r := by
      have hkeeps := Task.keepsResources_runAt depth (requestBody execute data) w
      rw [Task.runAt, hrequest] at hkeeps
      exact hkeeps.has (Store.has_of_uri huri)
    have hsame : ((t.store.setResource r record).resource r).uri = (t.store.resource r).uri := by
      rw [Store.resource_setResource hr, hrecord]
    refine ⟨rfl, hsame, ?_⟩
    rintro (⟨n, rfl⟩ | hdata)
    · have hstays := Task.stays_runAt depth (postData execute (.made n) data) huri
      rw [hpost] at hstays
      exact uri_of_stays hplace hstays
    · rw [hsame, eq_of_run_requestBody hdata hrequest, huri]
  · rw [htarget] at hanswer
    have hdirectories : t.surroundings = w.surroundings := by
      have hsame := Task.surroundings_runAt depth (requestBody execute data) w
      rwa [Task.runAt, hrequest] at hsame
    have hfound := (run_bind_newResource hanswer).2
    rw [← hdirectories]
    exact ⟨hfound, Location.isRemote_ofText?_iff hfound⟩

/-- A server that names the path of a new item leads to a file of that path. -/
theorem postData_redirected_file :
    let w : World := { withResource builtinWorld "http://h/items" with
      replies := [.response 303 [("Location", "/items/7")] []] }
    ∃ m v, (postData execute (.made 0) (.int 1)).runAt Job.maxDepth w = (.ok (.resource m), v) ∧
      (v.store.resource m).uri = some "file:///items/7" ∧
      ¬ Location.IsRemote (v.store.resource m).uri := by
  intro w
  have hrun : (postData execute (.made 0) (.int 1)).runAt Job.maxDepth w =
    (.ok (.resource (.made 1)), _) := rfl
  have hbody : (requestBody execute (.int 1)).runAt Job.maxDepth w =
    (.ok (Media.json.name, Text.Utf8.encode "1".toList), w) := rfl
  obtain ⟨mimetype, body, t, ⟨status, headers, content⟩, hrequest, hreply, -, -, -, -, hlocation⟩ :=
    postData_redirected rfl rfl hrun
  obtain ⟨-, rfl⟩ := Prod.ext_iff.1 (hbody.symm.trans hrequest)
  cases hreply
  obtain ⟨hfound, hremote⟩ := hlocation "/items/7" rfl
  have hlocal : Location.DenotesLocal "/items/7".toList := .inr (.inl rfl)
  exact ⟨_, _, hrun, (Except.ok.inj hfound).symm, fun h ↦ hremote.1 h hlocal⟩

end Script

end ResourceScript
