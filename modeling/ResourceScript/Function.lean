import ResourceScript.Kind
/-!
# Functions of the language

A function is a named callable with a category and an arity. What it does is named by an action: one
of the built-in functions, a constructor or static member of a host class, or a command of the
host that reports how it was called.
-/

set_option autoImplicit false

namespace ResourceScript

/-- How a function takes part in the language. -/
inductive Category where
  /-- Collects the lines up to its `end` and drives their evaluation. -/
  | bloc
  /-- Takes its parameters from left to right. -/
  | command
  /-- A test of a state. -/
  | state
  /-- A connective that skips its second operand when the first decides. -/
  | logic
  /-- A comparison. -/
  | relation
  /-- A modifier of one operand. -/
  | qualifier
  deriving DecidableEq, Repr, Inhabited

/-- The built-in functions. -/
inductive Builtin where
  | get | put | post | delete | uri
  | string | number | real | integer | boolean | date | list | set | map
  | add
  | equal | less | more | of
  | and | or | not
  | is | has
  | print | eval | member | shell | exit
  | each | while | endBloc
  deriving DecidableEq, Repr, Inhabited

/-- What a function does. -/
inductive Action where
  /-- A built-in function. -/
  | builtin (which : Builtin)
  /-- The constructor of a host class. -/
  | construct (info : ClassInfo)
  /-- A static member of a host class. -/
  | static (info : ClassInfo) (member : String)
  /-- A command that answers its name and the number of its parameters. -/
  | tally
  deriving DecidableEq, Repr, Inhabited

/-- A named callable. Functions are told apart by their names: no two functions of one registry
have the same. -/
structure Function where
  /-- The name of the function. -/
  name : String
  /-- Its category. -/
  category : Category
  /-- The number of its parameters; `none` when it takes any number. -/
  arity : Option Nat
  /-- What it does. -/
  action : Action
  deriving DecidableEq, Repr, Inhabited

namespace Category

/-- The word for a category. -/
def word : Category → String
  | bloc => "bloc"
  | command => "command"
  | state => "state"
  | logic => "logic"
  | relation => "relation"
  | qualifier => "qualifier"

end Category

namespace Function

/-- Whether a function opens or closes a bloc of lines. -/
def isBloc (f : Function) : Bool :=
  f.category = .bloc

/-- Whether a function takes any number of parameters. -/
def isVariadic (f : Function) : Bool :=
  f.arity.isNone

/-- Whether a function constructs objects of a host class. -/
def isConstructor (f : Function) : Bool :=
  match f.action with
  | .construct _ => true
  | _ => false

/-- The kind of a function as a value. -/
def kind (f : Function) : Kind :=
  if f.isConstructor then .constructor else .function

/-- The display of a function: its category and name. -/
def display (f : Function) : String :=
  "<" ++ f.category.word ++ " " ++ f.name ++ ">"

end Function

namespace Builtin

/-- The built-in functions with their names, categories, arities and aliases. -/
def table : List (Builtin × String × Category × Option Nat × List String) :=
  [ (.add, "add", .command, none, ["sum"]),
    (.and, "and", .logic, some 2, []),
    (.boolean, "boolean", .command, some 1, []),
    (.date, "date", .command, none, []),
    (.delete, "delete", .command, some 1, []),
    (.member, "do", .command, none, []),
    (.each, "each", .bloc, none, []),
    (.endBloc, "end", .bloc, none, []),
    (.equal, "equal", .relation, some 2, ["="]),
    (.eval, "eval", .command, some 1, []),
    (.exit, "exit", .command, some 1, []),
    (.get, "get", .command, some 1, []),
    (.has, "has", .state, some 2, ["that", "with"]),
    (.integer, "integer", .command, some 1, []),
    (.is, "is", .state, some 2, []),
    (.less, "less", .relation, some 2, ["lesser", "<"]),
    (.list, "list", .command, none, []),
    (.map, "map", .command, none, []),
    (.more, "more", .relation, some 2, ["greater", ">"]),
    (.not, "not", .qualifier, some 1, []),
    (.number, "number", .command, some 1, []),
    (.of, "of", .relation, some 2, []),
    (.or, "or", .logic, some 2, []),
    (.post, "post", .command, none, []),
    (.print, "print", .command, none, []),
    (.put, "put", .command, some 2, []),
    (.real, "real", .command, some 1, []),
    (.set, "set", .command, none, []),
    (.shell, "shell", .command, none, []),
    (.string, "string", .command, some 1, []),
    (.uri, "uri", .command, some 1, []),
    (.while, "while", .bloc, none, []) ]

/-- The function of a row of the table. -/
def function (row : Builtin × String × Category × Option Nat × List String) : Function :=
  ⟨row.2.1, row.2.2.1, row.2.2.2.1, .builtin row.1⟩

/-- The function `eval`, which runs the statements of a text one after the other. -/
def evalFunction : Function := ⟨"eval", .command, some 1, .builtin .eval⟩

end Builtin

end ResourceScript
