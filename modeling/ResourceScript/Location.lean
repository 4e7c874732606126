import ResourceScript.World
import ResourceScript.Text.Percent
/-!
# Locations

A location is a text that addresses data: a path of variable names, or a URI with one of the
supported schemes. Paths in the file system that begin with a slash or a dot or at the home
directory become absolute `file:` URIs. Texts of any other form denote no location.
-/

set_option autoImplicit false

namespace ResourceScript

open Text

namespace Location

/-- The location of the root scope. -/
def appRoot : String := "app:/"

/-- The scheme of a text in lower case: the ASCII letters before the first colon, two at least. -/
def scheme? (text : List Char) : Option String :=
  let letters := text.takeWhile isAsciiLetter
  match text.dropWhile isAsciiLetter with
  | ':' :: _ => if 1 < letters.length then some (String.ofList (letters.map asciiLower)) else none
  | _ => none

/-- The schemes of the locations that can be used. -/
def supportedSchemes : List String :=
  ["file", "http", "https", "data", "app"]

/-- The pieces of a text between slashes and points. -/
def splitPath (text : List Char) : List (List Char) :=
  splitOn '/' (text.map fun c => if c = '.' then '/' else c)

/-- The ASCII letters and digits. -/
def isAlphanumeric (c : Char) : Bool :=
  isAsciiLetter c || isAsciiDigit c

/-- Whether a text is a segment of a path: ASCII letters, digits, low lines and hyphens, with a
letter or digit at both ends. One line feed at the end is not seen. -/
def isSegment (text : List Char) : Bool :=
  let seen := Numeral.dropFinalLineFeed text
  (match seen.head?, seen.getLast? with
    | some first, some last => isAlphanumeric first && isAlphanumeric last
    | _, _ => false)
    && seen.all fun c => isAlphanumeric c || c == '_' || c == '-'

/-- Whether a text is a path of variable names: segments between slashes and points, the first of
which begins with a letter. -/
def isPath (text : List Char) : Bool :=
  (match text with
    | [] => false
    | c :: _ => isLetter c)
    && (splitPath text).all isSegment

/-- The segments of a path of variable names; in the `app:` scheme those behind the scheme. -/
def segments (uri : String) : List String :=
  let text := uri.toList
  let path := if scheme? text = some "app" then text.drop 4 else text
  let path := trimEndBy (· == '/') (trimStartBy (· == '/') path)
  if path.isEmpty then [] else (splitPath path).map String.ofList

/-! ### Paths in the file system -/

/-- The names of a path in the file system; empty names and single points are no names. -/
def pathNames (text : List Char) : List String :=
  ((splitOn '/' text).map String.ofList).filter fun name => name ≠ "" ∧ name ≠ "."

/-- Whether a path is absolute. -/
def isAbsolute (text : List Char) : Bool :=
  text.head? = some '/'

/-- The root of an absolute path: two slashes at the beginning, and not more, are kept. -/
def pathRoot (text : List Char) : List Char :=
  match text with
  | '/' :: '/' :: '/' :: _ => ['/']
  | '/' :: '/' :: _ => ['/', '/']
  | '/' :: _ => ['/']
  | _ => []

/-- A path in its shortest spelling. -/
def pathText (text : List Char) : List Char :=
  let names := joinWith ['/'] ((pathNames text).map String.toList)
  let spelled := pathRoot text ++ names
  if spelled.isEmpty then ['.'] else spelled

/-- Follows names from a directory: two points lead to its parent. -/
def follow (directory : FilePath) (names : List String) : FilePath :=
  names.foldl (fun path name => if name = ".." then path.dropLast else path ++ [name]) directory

/-- The directory that a name with a tilde stands for. -/
def homeOf (directories : Directories) (name : String) : Except Fault FilePath :=
  if name = "~" then .ok directories.home
  else if name = "~root" then .ok ["root"]
  else .error .runtime

/-- The absolute path of a path text. -/
def resolve (directories : Directories) (text : List Char) : Except Fault FilePath :=
  let names := pathNames text
  if text.contains (Char.ofNat 0) then .error .value
  else if isAbsolute text then .ok (follow [] names)
  else match names with
    | name :: rest =>
      if name.toList.head? = some '~' then do return follow (← homeOf directories name) rest
      else .ok (follow directories.work names)
    | [] => .ok directories.work

/-- The `file:` URI of an absolute path. -/
def fileUri (path : FilePath) : String :=
  String.ofList ("file:///".toList ++ Percent.encodeBytes (· == '/')
    (Utf8.encode (joinWith ['/'] (path.map String.toList))))

/-- The absolute `file:` URI of a path text. -/
def ofPath (directories : Directories) (text : List Char) : Except Fault String := do
  return fileUri (← resolve directories text)

/-- Whether a text denotes a path in the file system by its beginning. -/
def beginsPath (text : List Char) : Bool :=
  ["/", "./", "../", "~/"].any fun start => startsWith start.toList text

/-- The location that a text denotes. -/
def ofText? (directories : Directories) (text : List Char) : Except Fault (Option String) :=
  let text := trim text
  if text.isEmpty then .ok (some appRoot)
  else if beginsPath text then (ofPath directories text).map some
  else match scheme? text with
    | some scheme =>
      .ok (if supportedSchemes.contains scheme then some (String.ofList text) else none)
    | none => .ok (if isPath text then some (String.ofList text) else none)

end Location

namespace SplitUrl

/-- The schemes whose locations have an authority. -/
def authoritySchemes : List String :=
  ["ftp", "http", "gopher", "nntp", "telnet", "imap", "wais", "file", "mms", "https", "shttp",
    "snews", "prospero", "rtsp", "rtsps", "rtspu", "rsync", "svn", "svn+ssh", "sftp", "nfs", "git",
    "git+ssh", "ws", "wss"]

/-- The text of a location from its parts. The authority is marked by two slashes, also an empty one
where the scheme asks for it or the path begins with two slashes itself. -/
def text (u : SplitUrl) : String :=
  let marked := u.authority ≠ "" ∨ u.scheme ∈ authoritySchemes ∨ startsWith "//".toList u.path.toList
  let path :=
    if marked then
      "//" ++ u.authority ++
        (if u.path ≠ "" ∧ ¬ startsWith ['/'] u.path.toList then "/" ++ u.path else u.path)
    else u.path
  (if u.scheme = "" then "" else u.scheme ++ ":") ++ path
    ++ (if u.query = "" then "" else "?" ++ u.query)
    ++ (if u.fragment = "" then "" else "#" ++ u.fragment)

/-- The scheme in front of a colon, if there is one: a letter and then letters, digits and the
marks plus, minus and point. -/
def cutScheme (text : List Char) : List Char × List Char :=
  match cutAt ':' text with
  | some (before, after) =>
    match before with
    | c :: _ =>
      if isAsciiLetter c && before.all fun c =>
          Location.isAlphanumeric c || c == '+' || c == '-' || c == '.' then
        (before.map asciiLower, after)
      else ([], text)
    | [] => ([], text)
  | none => ([], text)

/-- Splits a location into its parts. Control characters and spaces in front, tabulators and line
ends are dropped; an authority with a single bracket is refused. -/
def ofText (location : String) : Except Fault SplitUrl :=
  let cleaned := (location.toList.dropWhile fun c => c.toNat ≤ 0x20).filter fun c =>
    c != '\t' && c != '\n' && c != '\r'
  let (scheme, rest) := cutScheme cleaned
  let (authority, rest) : List Char × List Char :=
    match rest with
    | '/' :: '/' :: after =>
      let stops := fun c => c == '/' || c == '?' || c == '#'
      (after.takeWhile fun c => !stops c, after.dropWhile fun c => !stops c)
    | _ => ([], rest)
  if authority.contains '[' != authority.contains ']' then .error .value
  else
    let (rest, fragment) := (cutAt '#' rest).getD (rest, [])
    let (path, query) := (cutAt '?' rest).getD (rest, [])
    .ok ⟨String.ofList scheme, String.ofList authority, String.ofList path, String.ofList query,
      String.ofList fragment⟩

end SplitUrl

namespace Location

/-- The path text of a `file:` URI, its escapes undone. -/
def filePath (uri : String) : Except Fault String := do
  let parts ← SplitUrl.ofText uri
  let path := if parts.path = "" then ['/'] else parts.path.toList
  return String.ofList (pathText (Percent.decode path))

end Location

end ResourceScript
