import ResourceScript.DataUri
import ResourceScript.Access
import ResourceScript.Files
import ResourceScript.Media.Read
import ResourceScript.Media.Written
/-!
# Resources

A resource is made from a text, a path, the parts of a location or another resource, and addresses
data by the location found in that: variables of the current scope, of the root scope (`app:`), data
in the location itself, files, and servers. Its data is read, put, posted to and deleted. A failure
of the data becomes a warning and a failure value; all other failures go on.

A value that is put or posted may still have to be executed; how is given as a parameter.
-/

set_option autoImplicit false

namespace ResourceScript

open Text

/-- Where the data of a resource is. -/
inductive Place where
  /-- In the current scope. -/
  | variable
  /-- In the root scope. -/
  | app
  /-- In the location itself. -/
  | inline
  /-- In the file system. -/
  | file
  /-- On a server. -/
  | server
  /-- Elsewhere: the scheme says nothing. -/
  | elsewhere
  deriving DecidableEq, Repr

namespace Location

/-- The place of a location. -/
def place (uri : String) : Place :=
  match scheme? uri.toList with
  | none => .variable
  | some "app" => .app
  | some "data" => .inline
  | some "file" => .file
  | some "http" | some "https" => .server
  | some _ => .elsewhere

end Location

namespace Script

/-- Equality of values: resources are equal when they have the same location. -/
def equals (a b : Value) : Task Bool := do
  let s ← store
  match a, b with
  | .resource n, .resource m => return (s.resource n).uri.isSome && (s.resource n).uri == (s.resource m).uri
  | _, _ => return s.same a b

/-- The location that a value denotes. -/
def locationOf (source : Value) : Task (Option String) := do
  match source with
  | .null => return some Location.appRoot
  | .resource n => do return ((← store).resource n).uri
  | .atom (.url u) => return some u.text
  | .atom (.path path) => return some (← ofExcept (Location.ofPath (← surroundings).directories path.toList))
  | .text s => ofExcept (Location.ofText? (← surroundings).directories s.toList)
  | _ => return none

/-- Makes a resource. One made from another has its media type. -/
def newResource (source : Value) : Task Nat := do
  let mimetype ← match source with
    | .resource n => do pure ((← store).resource n).mimetype
    | _ => pure none
  addResource ⟨source, ← locationOf source, mimetype⟩

/-- A resource. -/
def resource (n : ResourceRef) : Task ResourceRecord := do
  return (← store).resource n

/-- The path of a location in the file system, and its text. -/
def pathOf (uri : String) : Task (FilePath × String) := do
  let path ← ofExcept (Location.filePath uri)
  return (Location.absolute (← surroundings).directories path, path)

/-- Whether a path leads to a directory; a name that is too long is refused. -/
def isDirectory (path : FilePath) : Task Bool := do
  ofExcept (FileSystem.checkNames path)
  return (← files).isDirectory path

/-! ### Media types -/

/-- The media type found by the location of a resource. -/
def findMimetype (uri : String) : Task String := do
  match Location.place uri with
  | .variable | .app => return Media.script.name
  | .inline =>
    match DataUri.ofUri uri with
    | .ok u => return u.mimetype
    | .error _ => return Media.text.name
  | .server => return Media.html.name
  | .elsewhere => return (Media.ofExtension? uri).getD Media.text.name
  | .file =>
    match Media.ofExtension? uri with
    | some mimetype => return mimetype
    | none => do
      if ← isDirectory (← pathOf uri).1 then return Media.directory else return Media.text.name

/-- Sets the media type of a resource. -/
def setMimetype (n : ResourceRef) (mimetype : String) : Task Unit := do
  let s ← store
  setStore (s.setResource n { s.resource n with mimetype := some mimetype })

/-- The media type of a resource, which is found only once. -/
def mimetypeOf (n : ResourceRef) : Task (Option String) := do
  let record ← resource n
  match record.mimetype, record.uri with
  | some mimetype, _ => return some mimetype
  | none, none => return none
  | none, some uri => do
    let mimetype ← findMimetype uri
    setMimetype n mimetype
    return some mimetype

/-! ### Variables -/

/-- The scope in which the segments of a place begin. -/
def scopeOf (place : Place) : Task Nat := do
  let n ← currentScope
  let s ← store
  return if place = .app then s.root n else n

/-- Follows keys from a value until one leads to null. -/
def walk (value : Value) : List String → Task Value
  | [] => return value
  | key :: rest => do
    let next ← ofExcept ((← store).getValue value key)
    if next.isNull then return .null else walk next rest

/-- Follows the segments of a location from its scope. -/
def walkFrom (place : Place) (segments : List String) : Task Value := do
  walk (.scope (← scopeOf place)) segments

/-- Binds the entries of a map as variables of the scope of a place. -/
def mergeRoot (place : Place) (value : Value) : Task Bool := do
  match (← store).entries? value with
  | some (entry :: entries) =>
    let n ← scopeOf place
    (entry :: entries).forM fun (key, item) => discard (bind n key item)
    return true
  | _ =>
    warn .cannotMerge
    return false

/-- Puts entries into a map or a scope. -/
def updateMap (target : Value) (entries : List (Value × Value)) : Task Unit := do
  match target with
  | .scope n => entries.forM fun (key, item) => discard (bind n key item)
  | .cell n =>
    let s ← store
    let put := fun old => entries.foldl
      (fun map entry => putEntry s.same entry.1 entry.2 map) old
    match s.cell n with
    | .map old => setCell n (.map (put old))
    | .page old source => setCell n (.page (put old) source)
    | _ => return
  | _ => return

/-! ### Files -/

/-- The resources of a directory in the order of their names. -/
def listDirectory (path : FilePath) (pathText : String) : Task Value := do
  let names := (← files).children path
  newList (← names.mapM fun name => do
    let child := String.ofList (Location.pathText (pathText.toList ++ '/' :: name.toList))
    return .resource (← newResource (.atom (.path child))))

/-- The data of a file: null when there is none, the resources of a directory. -/
def getFile (uri : String) (mimetype : Option String) : Task Value := do
  let (path, pathText) ← pathOf uri
  if ← isDirectory path then listDirectory path pathText
  else match FileSystem.entry? (← files) path with
    | some (.file bytes) => decode mimetype (.bytes bytes)
    | _ => return .null

/-- Writes a value to a file: bytes as they are, all else by its media type. The directories around
it are made first. -/
def putFile (uri : String) (mimetype : Option String) (value : Value) : Task Bool := do
  let (path, _) ← pathOf uri
  if ← isDirectory path then
    warn .cannotWriteDirectory
    return false
  let files ← ofExcept ((← files).makeDirectory path.dropLast)
  setFiles files
  let bytes ← match ← view value with
    | .atom (.bytes bytes) => pure bytes
    | .buffer bytes => pure bytes
    | data => ofExcept (Media.encode mimetype data)
  let files ← ofExcept (files.write path bytes)
  setFiles files
  return true

/-- Appends a value to the list in a file; a missing file holds an empty list. -/
def postFile (uri : String) (mimetype : Option String) (value : Value) : Task Value := do
  let existing ← getFile uri mimetype
  let existing ← if existing.isNull then newList [] else pure existing
  match (← store).kindOf existing with
  | .list => do
    discard (postValue existing value)
    if ← putFile uri mimetype existing then return value else return .null
  | _ => do
    warn .cannotAppend
    return .null

/-- Removes a file or a directory with all that is in it. -/
def deleteFile (uri : String) : Task Bool := do
  let (path, _) ← pathOf uri
  ofExcept (FileSystem.checkNames path)
  let files := (← files)
  match files.entry? path with
  | some _ => do
    setFiles (files.remove path)
    return true
  | none => return false

/-! ### Servers -/

/-- A response of a server. -/
structure Response where
  /-- The status. -/
  status : Nat
  /-- The headers. -/
  headers : List (String × String)
  /-- The body. -/
  body : List UInt8

/-- The value of a header; the case of its name does not count. -/
def Response.header? (r : Response) (name : String) : Option String :=
  let low := fun (s : String) => s.toList.map asciiLower
  (r.headers.find? fun entry => low entry.1 == low name).map Prod.snd

/-- Sends a request and takes the next reply; without one the request fails. -/
def send (request : Request) : Task Response := do
  match ← Task.query (.send request) with
  | some (.response status headers body) => return ⟨status, headers, body⟩
  | _ => fail .transport

/-- Sends a request without a body. -/
def request (method uri : String) : Task Response :=
  send ⟨method, uri, [], none, true⟩

/-- The value of the header that gives the media type of a body, if there is one. -/
def contentType? (headers : List (Value × Value)) : Option Value :=
  (headers.find? fun entry => match entry.1 with
    | .text name => lower name.toList == "content-type".toList
    | _ => false).map Prod.snd

/-- The media type of the body of a request: that of a resource, and JSON for other values. -/
def requestMimetype (data : Value) : Task String := do
  match data with
  | .resource n =>
    match ← mimetypeOf n with
    | some mimetype => return if mimetype = "" then Media.json.name else mimetype
    | none => return Media.json.name
  | _ => return Media.json.name

/-- Sends a request with a body. -/
def requestWith (execute : Value → Task Value) (method uri : String) (follow : Bool)
    (data : Value) : Task Response := do
  let mimetype ← requestMimetype data
  let body ← ofExcept (Media.encode (some mimetype) (← view (← execute data)))
  send ⟨method, uri, [("Content-Type", mimetype)], some body, follow⟩

/-- Notes the media type of a response for its resource. -/
def noteResponse (n : ResourceRef) (r : Response) : Task Unit := do
  let mimetype := (r.header? "Content-Type").getD ""
  setMimetype n (if mimetype = "" then Media.html.name else mimetype)

/-- The data of a response to a request of a resource. -/
def responseData (n : ResourceRef) (r : Response) : Task Value := do
  decode (← mimetypeOf n) (.bytes r.body)

/-! ### Operations -/

/-- Runs an operation on the location of a resource. Without a location, and when the data fails,
it warns and answers a failure value. -/
def operate {α : Type} (n : ResourceRef) (warning : Warning) (failed : α) (body : String → Task α) :
    Task α := do
  match (← resource n).uri with
  | none => do
    warn .notSupported
    return failed
  | some uri =>
    tryCatch (body uri) fun stop =>
      match stop with
      | .fault cause =>
        if cause.isDataFault then do
          warn warning
          return failed
        else throw stop
      | _ => throw stop

/-- The data of a resource. -/
def getData (n : ResourceRef) : Task Value :=
  operate n .cannotGet .null fun uri => do
    match Location.place uri with
    | .variable => walkFrom .variable (Location.segments uri)
    | .app => walkFrom .app (Location.segments uri)
    | .inline => do
      let u ← ofExcept (DataUri.ofUri uri)
      decode (some u.mimetype) (.bytes u.data)
    | .file => do getFile uri (← mimetypeOf n)
    | .server | .elsewhere => do
      let r ← request "GET" uri
      noteResponse n r
      if 300 ≤ r.status then return .null else responseData n r

/-- Puts data into a variable. -/
def putVariable (execute : Value → Task Value) (place : Place) (uri : String) (data : Value) :
    Task Bool := do
  let segments := Location.segments uri
  match segments.getLast? with
  | none => do mergeRoot place (← execute data)
  | some key => do
    let parent ← walkFrom place segments.dropLast
    if parent.isNull then return false
    else putValue parent (.text key) (← execute data)

/-- Replaces the data of a resource. The answer tells whether it was done. -/
def putData (execute : Value → Task Value) (n : ResourceRef) (data : Value) : Task Bool :=
  operate n .cannotPut false fun uri => do
    match Location.place uri with
    | .variable => putVariable execute .variable uri data
    | .app => putVariable execute .app uri data
    | .inline => do
      let u ← ofExcept (DataUri.ofUri uri)
      let payload ← ofExcept (Media.encode (some u.mimetype) (← view (← execute data)))
      let s ← store
      setStore (s.setResource n { s.resource n with uri := some { u with data := payload }.text })
      return true
    | .file => do
      let mimetype ← mimetypeOf n
      putFile uri mimetype (← execute data)
    | .server | .elsewhere => do
      let r ← requestWith execute "PUT" uri true data
      noteResponse n r
      return r.status < 300

/-- Posts a value to a list or set and answers the last element; null when the target is neither. -/
def postItem (target value : Value) : Task Value := do
  if ← postValue target value then getValue target (.text "last") else return .null

/-- Posts data to a variable: a map takes up the entries of a map, a list or set takes up the
value. -/
def postVariable (execute : Value → Task Value) (place : Place) (uri : String) (data : Value) :
    Task Value := do
  let segments := Location.segments uri
  if segments.isEmpty then
    if ← mergeRoot place (← execute data) then return data else return .null
  else
    let target ← walkFrom place segments
    let value ← execute data
    let s ← store
    match s.entries? target, s.entries? value with
    | some _, some entries => do
      updateMap target entries
      return target
    | _, _ => postItem target value

/-- Adds data to a resource. The answer is what was added, a new resource, or null. -/
def postData (execute : Value → Task Value) (n : ResourceRef) (data : Value) : Task Value :=
  operate n .cannotPost .null fun uri => do
    match Location.place uri with
    | .variable => postVariable execute .variable uri data
    | .app => postVariable execute .app uri data
    | .inline | .elsewhere => do
      warn .cannotPostLocation
      return .null
    | .file => do
      let mimetype ← mimetypeOf n
      postFile uri mimetype (← execute data)
    | .server => do
      let r ← requestWith execute "POST" uri false data
      noteResponse n r
      if 400 ≤ r.status then return .null
      else if 300 ≤ r.status then
        match r.header? "Location" with
        | some location =>
          if location = "" then return .resource n
          else return .resource (← newResource (.text location))
        | none => return .resource n
      else responseData n r

/-- Deletes a variable. -/
def deleteVariable (place : Place) (uri : String) : Task Bool := do
  let segments := Location.segments uri
  match segments.getLast? with
  | none => do
    warn .cannotDeleteRoot
    return false
  | some key => do
    let parent ← walkFrom place segments.dropLast
    if parent.isNull then return false else deleteValue parent (.text key)

/-- Deletes the data of a resource. The answer tells whether there was any. -/
def deleteData (n : ResourceRef) : Task Bool :=
  operate n .cannotDelete false fun uri => do
    match Location.place uri with
    | .variable => deleteVariable .variable uri
    | .app => deleteVariable .app uri
    | .inline | .elsewhere => do
      warn .cannotDeleteLocation
      return false
    | .file => deleteFile uri
    | .server => do
      let r ← request "DELETE" uri
      noteResponse n r
      return r.status < 300

end Script

end ResourceScript
