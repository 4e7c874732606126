import ResourceScript.Files
import ResourceScript.Text.Space
/-!
# Shell commands

A small command language: commands one after the other, or depending on the status of the one
before, whose output may go to a file. Output that goes to no file is dropped. The answer is the
status of the last command.
-/

set_option autoImplicit false

namespace ResourceScript

open Text

namespace Shell

/-- A piece of a command line. -/
inductive Piece where
  /-- A word. -/
  | word (text : List Char)
  /-- A mark between words. -/
  | mark (text : String)
  /-- A quote that is not closed. -/
  | unclosed
  deriving DecidableEq, Repr

/-- The marks, longer ones before their beginnings. The last two only count where a word may begin:
they send the error output elsewhere. -/
def marks : List String := ["&&", "||", ">>", ">", ";", "\n", "2>&1", "2>"]

/-- The mark at the beginning of a text; `inWord` tells whether a word is being read. -/
def mark? (inWord : Bool) (text : List Char) : Option String :=
  marks.find? fun m => startsWith m.toList text && !(inWord && m.startsWith "2")

/-- Whether a character stands between words. -/
def isGap (c : Char) : Bool :=
  c == ' ' || c == '\t'

/-- The pieces of a command line; `current` holds the word that is being read in reverse, if there is
one. Quotes keep their content together. -/
def pieces : (fuel : Nat) → (current : Option (List Char)) → List Char → List Piece
  | 0, _, _ => []
  | _ + 1, current, [] => (current.map fun word => Piece.word word.reverse).toList
  | fuel + 1, current, c :: rest =>
    let finished := (current.map fun word => Piece.word word.reverse).toList
    if isGap c then finished ++ pieces fuel none rest
    else if c = '#' ∧ current.isNone then
      pieces fuel none (rest.dropWhile (· != '\n'))
    else match mark? current.isSome (c :: rest) with
      | some m => finished ++ .mark m :: pieces fuel none ((c :: rest).drop m.length)
      | none =>
        if c = '\'' ∨ c = '"' then
          let inside := rest.takeWhile (· != c)
          match rest.drop inside.length with
          | [] => [.unclosed]
          | _ :: after => pieces fuel (some (inside.reverse ++ current.getD [])) after
        else if c = '\\' then
          match rest with
          | e :: more => pieces fuel (some (e :: current.getD [])) more
          | [] => pieces fuel (some (c :: current.getD [])) []
        else pieces fuel (some (c :: current.getD [])) rest

/-- When a command runs. -/
inductive Condition where
  /-- Always. -/
  | always
  /-- When the one before succeeded. -/
  | onSuccess
  /-- When the one before failed. -/
  | onFailure
  deriving DecidableEq, Repr

/-- A command. -/
structure Command where
  /-- When it runs. -/
  condition : Condition
  /-- Its name and its arguments. -/
  words : List String
  /-- The file that takes its output, and whether it is appended. -/
  target : Option (String × Bool)
  deriving Repr

/-- The condition that a mark stands for. -/
def conditionOf (m : String) : Condition :=
  if m = "&&" then .onSuccess else if m = "||" then .onFailure else .always

/-- The commands of pieces from one that is being read on. -/
def commandsFrom (current : Command) : List Piece → List Command
  | [] | .unclosed :: _ => [current]
  | .word w :: rest =>
    commandsFrom { current with words := current.words ++ [String.ofList w] } rest
  | .mark "2>&1" :: rest => commandsFrom current rest
  | .mark m :: .word w :: rest =>
    if m = ">" ∨ m = ">>" then
      commandsFrom { current with target := some (String.ofList w, m = ">>") } rest
    else if m = "2>" then commandsFrom current rest
    else current :: commandsFrom ⟨conditionOf m, [String.ofList w], none⟩ rest
  | .mark m :: rest => current :: commandsFrom ⟨conditionOf m, [], none⟩ rest

/-- The commands of a line; `none` when a quote is not closed. -/
def commands? (line : String) : Option (List Command) :=
  let found := pieces (line.length + 1) none line.toList
  if found.contains .unclosed then none else some (commandsFrom ⟨.always, [], none⟩ found)

/-- What a command leaves behind: the file system, its output, its status, and whether the line ends
with it. -/
structure Outcome where
  /-- The file system. -/
  files : FileSystem
  /-- The output. -/
  output : String
  /-- The status. -/
  status : Int
  /-- Whether the line ends. -/
  ends : Bool

/-- The path of a word from the working directory. -/
def pathOf (files : FileSystem) (word : String) : FilePath :=
  Location.absolute files.directories word

/-- An outcome that only is a status. -/
def status (files : FileSystem) (n : Int) : Outcome :=
  ⟨files, "", n, false⟩

/-- The status of a test. -/
def ofTest (files : FileSystem) (holds : Bool) : Outcome :=
  status files (if holds then 0 else 1)

/-- Does something with each word; a word that is refused makes the status one. -/
def forEach (step : FileSystem → String → Option FileSystem) (files : FileSystem)
    (words : List String) : Outcome :=
  let (files, failed) := words.foldl (fun (files, failed) word =>
    match step files word with
    | some changed => (changed, failed)
    | none => (files, true)) (files, false)
  ofTest files !failed

/-- The options among words: those that begin with a hyphen. -/
def isOption (word : String) : Bool :=
  startsWith ['-'] word.toList

/-- Whether an option with a letter is among words. -/
def hasOption (letter : Char) (words : List String) : Bool :=
  words.any fun w => isOption w && w.toList.contains letter

/-- The words that are no options. -/
def operands (words : List String) : List String :=
  words.filter fun w => !isOption w

/-- Puts a file into an existing directory. -/
def place? (files : FileSystem) (path : FilePath) (bytes : List UInt8) : Option FileSystem :=
  if files.isDirectory path.dropLast then (files.write path bytes).toOption else none

/-- Makes directories; those around them only with the option `p`. -/
def makeAll (files : FileSystem) (words : List String) : Outcome :=
  forEach (fun files w =>
    let path := pathOf files w
    if hasOption 'p' words then (files.makeDirectory path).toOption
    else if (files.entry? path).isSome || !files.isDirectory path.dropLast then none
    else (files.makeDirectory path).toOption) files (operands words)

/-- Makes empty files where there are none. -/
def touchAll (files : FileSystem) (words : List String) : Outcome :=
  forEach (fun files w =>
    let path := pathOf files w
    if (files.entry? path).isSome then some files else place? files path []) files words

/-- Removes files, and with the option `r` directories; one that is not there is a failure without
the option `f`. -/
def removeAll (files : FileSystem) (words : List String) : Outcome :=
  forEach (fun files w =>
    let path := pathOf files w
    match files.entry? path with
    | some .directory => if hasOption 'r' words then some (files.remove path) else none
    | some (.file _) => some (files.remove path)
    | none => if hasOption 'f' words then some files else none) files (operands words)

/-- The path to which a file of a name goes: into a directory, or to the path itself. -/
def destination (files : FileSystem) (source target : FilePath) : FilePath :=
  if files.isDirectory target then target ++ source.getLast?.toList else target

/-- Copies a file, or moves it. -/
def transfer (keep : Bool) (files : FileSystem) (words : List String) : Outcome :=
  match operands words with
  | [source, target] =>
    let source := pathOf files source
    match files.entry? source with
    | some (.file bytes) =>
      match place? files (destination files source (pathOf files target)) bytes with
      | some changed => status (if keep then changed else changed.remove source) 0
      | none => status files 1
    | _ => status files 1
  | _ => status files 1

/-- A test of files, texts or numbers; `none` when it has another form. -/
def test? (files : FileSystem) : List String → Option Bool
  | [] => some false
  | [word] => some (word != "")
  | ["!", word] => some (word == "")
  | ["-e", word] => some (files.entry? (pathOf files word)).isSome
  | ["-f", word] => some (match files.entry? (pathOf files word) with
      | some (.file _) => true
      | _ => false)
  | ["-d", word] => some (files.isDirectory (pathOf files word))
  | ["-n", word] => some (word != "")
  | ["-z", word] => some (word == "")
  | [a, "=", b] => some (a == b)
  | [a, "!=", b] => some (a != b)
  | [a, relation, b] => do
    let n ← a.toInt?
    let m ← b.toInt?
    match relation with
    | "-eq" => some (n == m)
    | "-ne" => some (n != m)
    | "-lt" => some (n < m)
    | "-le" => some (n ≤ m)
    | "-gt" => some (m < n)
    | "-ge" => some (m ≤ n)
    | _ => none
  | _ => none

/-- The contents of files one after the other. -/
def concatenate (files : FileSystem) (words : List String) : Outcome :=
  let contents := words.map fun w => files.entry? (pathOf files w)
  let text := contents.flatMap fun entry =>
    match entry with
    | some (.file bytes) => Utf8.decode bytes
    | _ => []
  let failed := contents.any fun entry =>
    match entry with
    | some (.file _) => false
    | _ => true
  ⟨files, String.ofList text, if failed then 1 else 0, false⟩

/-- The status of a numeral, modulo 256. -/
def statusOf (word : String) : Int :=
  match word.toNat? with
  | some n => n % 256
  | none => 2

/-- Runs a command by its words. A name that is not known fails with the status 127. -/
def run (files : FileSystem) (last : Int) : List String → Outcome
  | [] => status files 0
  | "exit" :: arguments =>
    ⟨files, "", match arguments with | [] => last | word :: _ => statusOf word, true⟩
  | "true" :: _ | ":" :: _ | "sleep" :: _ => status files 0
  | "false" :: _ => status files 1
  | "echo" :: "-n" :: words => ⟨files, " ".intercalate words, 0, false⟩
  | "echo" :: words => ⟨files, " ".intercalate words ++ "\n", 0, false⟩
  | ["printf", word] => ⟨files, word.replace "\\n" "\n", 0, false⟩
  | "pwd" :: _ => ⟨files, "/" ++ "/".intercalate files.work ++ "\n", 0, false⟩
  | ["cd", word] =>
    let path := pathOf files word
    if files.isDirectory path then status { files with work := path } 0 else status files 2
  | "ls" :: words =>
    let found := (operands words).all fun w => (files.entry? (pathOf files w)).isSome
    status files (if found then 0 else 2)
  | "mkdir" :: words => makeAll files words
  | "touch" :: words => touchAll files words
  | "rm" :: words => removeAll files words
  | "cp" :: words => transfer true files words
  | "mv" :: words => transfer false files words
  | "cat" :: words => concatenate files words
  | "test" :: words => ((test? files words).map (ofTest files)).getD (status files 2)
  | "[" :: words =>
    if words.getLast? = some "]" then
      ((test? files words.dropLast).map (ofTest files)).getD (status files 2)
    else status files 2
  | _ => status files 127

/-- The bytes that a file has after output goes to it. -/
def written (files : FileSystem) (path : FilePath) (append : Bool) (output : String) :
    List UInt8 :=
  match append, files.entry? path with
  | true, some (.file bytes) => bytes ++ Utf8.encode output.toList
  | _, _ => Utf8.encode output.toList

/-- Puts the output of a command into its file, if it has one. A command whose file cannot be written
does nothing. -/
def redirect (before : FileSystem) (target : Option (String × Bool)) (o : Outcome) : Outcome :=
  match target with
  | none => o
  | some (word, append) =>
    let path := pathOf o.files word
    if path = ["dev", "null"] then o
    else match place? o.files path (written o.files path append o.output) with
      | some files => { o with files }
      | none => status before 2

/-- Whether a command runs after a status. -/
def isDue (condition : Condition) (status : Int) : Bool :=
  match condition with
  | .always => true
  | .onSuccess => status == 0
  | .onFailure => status != 0

/-- Runs commands one after the other. -/
def runAll (files : FileSystem) (status : Int) : List Command → FileSystem × Int
  | [] => (files, status)
  | command :: rest =>
    if !isDue command.condition status then runAll files status rest
    else
      let o := redirect files command.target (run files status command.words)
      let status := if command.words.isEmpty then status else o.status
      if o.ends then (o.files, status) else runAll o.files status rest

end Shell

/-- Runs a command line in a file system and answers its status: two when the line is malformed. -/
def FileSystem.shell (files : FileSystem) (line : String) : FileSystem × Int :=
  match Shell.commands? line with
  | none => (files, 2)
  | some commands =>
    let (changed, status) := Shell.runAll files 0 commands
    ({ changed with work := files.work }, status)

end ResourceScript
