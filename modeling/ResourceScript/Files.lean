import ResourceScript.Location
import ResourceScript.Data.Order
/-!
# Files

The file system as a table of entries by path. Every entry but the root lies in a directory. Writing
makes missing directories; a refusal of the file system leaves everything as it was.
-/

set_option autoImplicit false

namespace ResourceScript

namespace FileSystem

/-- The entry at a path. The root is a directory. -/
def entry? (files : FileSystem) (path : FilePath) : Option FileEntry :=
  if path.isEmpty then some .directory else files.entries.lookup path

/-- Whether a path leads to a directory. -/
def isDirectory (files : FileSystem) (path : FilePath) : Bool :=
  files.entry? path == some .directory

/-- The greatest number of bytes of a name. -/
def maxName : Nat := 255

/-- Refuses a path with a name that is too long. -/
def checkNames (path : FilePath) : Except Fault Unit :=
  if path.all fun name => name.utf8ByteSize ≤ maxName then .ok () else .error .file

/-- The names in a directory in the order of their characters. -/
def children (files : FileSystem) (path : FilePath) : List String :=
  let names := files.entries.filterMap fun (entryPath, _) =>
    match entryPath.getLast? with
    | some name => if entryPath.dropLast = path then some name else none
    | none => none
  names.mergeSort fun a b => Data.orderChars a.toList b.toList != .gt

/-- The entries with one replaced or added. -/
def putFile (files : FileSystem) (path : FilePath) (entry : FileEntry) : FileSystem :=
  { files with entries := putEntry (· == ·) path entry files.entries }

/-- The beginnings of a path, from its first name to the whole path. -/
def beginnings (path : FilePath) : List FilePath :=
  (List.range path.length).map fun n => path.take (n + 1)

/-- Whether a path has a null character in it. -/
def hasNull (path : FilePath) : Bool :=
  path.any fun name => name.toList.contains (Char.ofNat 0)

/-- Makes a directory and those around it; refused when a file is in the way. -/
def makeDirectory (files : FileSystem) (path : FilePath) : Except Fault FileSystem :=
  if hasNull path then .error .value
  else (beginnings path).foldlM (fun files step =>
    match files.entry? step with
    | some .directory => .ok files
    | some (.file _) => .error .file
    | none => .ok (files.putFile step .directory)) files

/-- Writes a file, making the directories around it. -/
def write (files : FileSystem) (path : FilePath) (bytes : List UInt8) :
    Except Fault FileSystem := do
  let files ← files.makeDirectory path.dropLast
  if hasNull path then .error .value
  else if files.isDirectory path then .error .file
  else .ok (files.putFile path (.file bytes))

/-- Removes a path and everything below it. -/
def remove (files : FileSystem) (path : FilePath) : FileSystem :=
  { files with entries := files.entries.filter fun (entryPath, _) => !path.isPrefixOf entryPath }

end FileSystem

namespace Location

/-- The absolute path of the path text of a `file:` URI. -/
def absolute (directories : Directories) (path : String) : FilePath :=
  let names := pathNames path.toList
  follow (if isAbsolute path.toList then [] else directories.work) names

end Location

end ResourceScript
