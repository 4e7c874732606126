import ResourceScript.Language.Bloc
import ResourceScript.Script
/-!
# Loading compiled source text

Each resource of compiled source text is given an identity of its own when the text is loaded.
Source text that a script compiles while it runs makes new resources; those of the source text that
a session compiles are numbered.
-/

set_option autoImplicit false

namespace ResourceScript

namespace Value

section

variable {m : Type → Type} [Monad m]

mutual

/-- A compiled value with its resources identified one after the other. -/
def load (identify : (word uri : String) → m ResourceRef) : Value → m Value
  | call f params => do return call f (← loadAll identify params)
  | resource (.written _ word uri) => do return resource (← identify word uri)
  | value => return value

/-- Compiled values with their resources identified one after the other. -/
def loadAll (identify : (word uri : String) → m ResourceRef) : List Value → m (List Value)
  | [] => return []
  | value :: rest => do return (← load identify value) :: (← loadAll identify rest)

end

end

end Value

namespace Script

/-- A new resource for a resource of source text. -/
def makeWritten (text uri : String) : Task ResourceRef := do
  return .made (← addResource ⟨.text text, some uri, none⟩)

/-- The name of the bloc that a token after `end` stands for, if it stands for one. -/
def blocName (token : Value) : Task (Option String) := do
  ofExcept ((← store).blocName token)

/-- What a word denotes. -/
def evalWord (word : String) : Task Value := do
  (← compiling (Compiler.evalWord word)).load makeWritten

/-- The tokens of a line. -/
def tokenize (line : String) : Task (List Value) := do
  Value.loadAll makeWritten (← compiling (Compiler.tokenize line))

/-- Compiles lines to a program that runs them one after the other. -/
def compileLines (lines : List String) : Task Value := do
  (← compiling (Compiler.compileLines lines)).load makeWritten

/-- Compiles source text of one or of several lines. -/
def compile (source : String) : Task Value := do
  (← compiling (Compiler.compile source)).load makeWritten

end Script

end ResourceScript
