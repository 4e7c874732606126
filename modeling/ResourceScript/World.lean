import ResourceScript.Host
import ResourceScript.Store.View
import ResourceScript.Data.Dates
/-!
# The world of scripts

A script computes in a world: the store, the registry of functions, the current scope, files, the
replies of servers, and what has been written, warned and requested so far. It ends with a value or
stops: by a failure, by leaving the program, or because its calls nest too deeply. What it did to
the world before it stopped stays done.
-/

set_option autoImplicit false

namespace ResourceScript

/-- Why a script stops. -/
inductive Stop where
  /-- A failure. -/
  | fault (cause : Fault)
  /-- The script leaves the program with a status. -/
  | exit (status : Int)
  /-- The script went on for longer than it was given. -/
  | exhausted
  deriving DecidableEq, Repr

/-- A warning about a resource. -/
inductive Warning where
  | notSupported
  | cannotGet | cannotPut | cannotPost | cannotDelete
  | cannotPostLocation | cannotDeleteLocation
  | cannotDeleteRoot
  | cannotMerge
  | cannotWriteDirectory
  | cannotAppend
  deriving DecidableEq, Repr

namespace Warning

/-- The wording of a warning up to what it is about. -/
def text : Warning → String
  | notSupported => "not supported uri:"
  | cannotGet => "cannot get"
  | cannotPut => "cannot put"
  | cannotPost => "cannot post to"
  | cannotDelete => "cannot delete"
  | cannotPostLocation => "cannot post to uri"
  | cannotDeleteLocation => "cannot delete uri"
  | cannotDeleteRoot => "cannot delete the root context"
  | cannotMerge => "only non-empty maps can be merged into"
  | cannotWriteDirectory => "cannot write a directory:"
  | cannotAppend => "cannot append to non-list content of"

end Warning

/-- What a server answers to a request. -/
inductive Reply where
  /-- A response. -/
  | response (status : Nat) (headers : List (String × String)) (body : List UInt8)
  /-- The request times out, or no connection is made. -/
  | failure
  deriving Repr

/-- A request to a server. -/
structure Request where
  /-- The method in upper case. -/
  method : String
  /-- The location. -/
  url : String
  /-- The headers. -/
  headers : List (String × String)
  /-- The body, if the method has one. -/
  body : Option (List UInt8)
  /-- Whether redirections are to be followed. -/
  follow : Bool
  deriving Repr

/-- An entry of the file system. -/
inductive FileEntry where
  /-- A file with its bytes. -/
  | file (bytes : List UInt8)
  /-- A directory. -/
  | directory
  deriving DecidableEq, Repr

/-- A path from the root: the names on the way. -/
abbrev FilePath := List String

/-- The file system: entries by their paths, and the two directories that relative locations start
from. -/
structure FileSystem where
  /-- The entries. -/
  entries : List (FilePath × FileEntry)
  /-- The working directory. -/
  work : FilePath
  /-- The home directory. -/
  home : FilePath
  deriving Repr

/-- The directories that relative locations start from. -/
structure Directories where
  /-- The working directory. -/
  work : FilePath
  /-- The home directory. -/
  home : FilePath
  deriving DecidableEq, Repr

/-- The directories of a file system. -/
def FileSystem.directories (files : FileSystem) : Directories :=
  ⟨files.work, files.home⟩

/-- The world of a script. -/
structure World where
  /-- Containers, resources and scopes. -/
  store : Store
  /-- The registered functions by name. -/
  registry : List (String × Function)
  /-- The classes of the host. -/
  classes : List HostClass
  /-- The scope in use, if there is one. -/
  current : Option Nat
  /-- The file system. -/
  files : FileSystem
  /-- The replies that servers will give, in order. -/
  replies : List Reply
  /-- The requests made so far, the latest first. -/
  requests : List Request
  /-- The lines and texts written to the output so far, the latest first. -/
  output : List String
  /-- Those written as errors. -/
  errors : List String
  /-- The warnings so far, the latest first. -/
  warnings : List Warning
  /-- Whether the working of blocs and commands is reported. -/
  debug : Bool
  /-- The present moment. -/
  now : Moment
  /-- The number of resources of source text that have been numbered so far. -/
  written : Nat := 0
  /-- Whether the output takes a text: its encoding has to spell it. -/
  takes : String → Bool := fun _ => true
  /-- What the modules of the host hold by name, within reach of the members of native kinds. -/
  held : List (String × Value) := []
  /-- The members of native kinds that are not spelled out. -/
  natives : NativeMembers := fun _ _ => none
  /-- The number of rounds for which a loop is followed. A loop may go on for ever, so this may be any
  number, and a loop that goes on for longer is unfinished. -/
  rounds : Nat := 1000000

/-- A computation in a world. -/
abbrev Script := ExceptT Stop (StateM World)

namespace Script

variable {α β : Type}

theorem bind_apply (x : Script α) (next : α → Script β) (w : World) :
    (x >>= next) w =
      match x w with
      | (.ok a, v) => next a v
      | (.error stop, v) => (.error stop, v) := by
  show (ExceptT.bindCont next (x w).1 : StateM World _) (x w).2 = _
  rcases x w with ⟨stop | a, v⟩ <;> rfl

theorem bind_of_ok {x : Script α} {w v : World} {a : α} (hx : x w = (.ok a, v))
    (next : α → Script β) : (x >>= next) w = next a v := by
  rw [bind_apply, hx]

theorem get_apply (w : World) : (get : Script World) w = (.ok w, w) := rfl

theorem map_apply (f : α → β) (x : Script α) (w : World) :
    (f <$> x) w = ((x w).1.map f, (x w).2) := by
  rw [map_eq_pure_bind, bind_apply]
  rcases x w with ⟨stop | a, v⟩ <;> rfl

theorem bind_of_error {x : Script α} {w v : World} {stop : Stop} (hx : x w = (.error stop, v))
    (next : α → Script β) : (x >>= next) w = (.error stop, v) := by
  rw [bind_apply, hx]

theorem bind_eq_ok_iff {x : Script α} {next : α → Script β} {w v : World} {b : β} :
    (x >>= next) w = (.ok b, v) ↔ ∃ a u, x w = (.ok a, u) ∧ next a u = (.ok b, v) := by
  rcases hx : x w with ⟨stop | a, u⟩
  · rw [bind_of_error hx]
    constructor
    · intro h
      cases h
    · rintro ⟨a, t, h, -⟩
      cases h
  · rw [bind_of_ok hx]
    constructor
    · exact fun h => ⟨a, u, rfl, h⟩
    · rintro ⟨a', t, h, hnext⟩
      cases h
      exact hnext

end Script

end ResourceScript
