import ResourceScript.Function
import ResourceScript.Calendar
import ResourceScript.Format.Xml.Document
/-!
# Values

Atoms are values without parts. A value is an atom, an immutable compound, or a reference: lists,
maps, sets, buffers and host objects are cells of a store, since they are shared and changed in
place; resources and scopes are referred to likewise. `Data` is what a value shows at one moment:
the tree in which every reference is replaced by what it refers to.
-/

set_option autoImplicit false

namespace ResourceScript

/-- The five parts of a location. -/
structure SplitUrl where
  /-- The scheme. -/
  scheme : String
  /-- The authority. -/
  authority : String
  /-- The path. -/
  path : String
  /-- The query. -/
  query : String
  /-- The fragment. -/
  fragment : String
  deriving DecidableEq, Repr, Inhabited

/-- A value without parts. -/
inductive Atom where
  | null
  | bool (b : Bool)
  | int (n : Int)
  | real (x : Double)
  | text (s : String)
  | bytes (data : List UInt8)
  | moment (m : Moment)
  | day (d : Day)
  | time (t : TimeOfDay)
  | function (f : Function)
  | kind (k : Kind)
  | path (location : String)
  | url (parts : SplitUrl)
  | document (d : Xml.Document)
  deriving Repr, Inhabited

/-- A resource: one that is made by running, at a position in a store, or one that is written in
source text, with a number of its own. -/
inductive ResourceRef where
  /-- A resource made by running. -/
  | made (n : Nat)
  /-- A resource written in source text: its number, the text and the location that it denotes. -/
  | written (n : Nat) (text uri : String)
  deriving DecidableEq, Repr, Inhabited

instance : Coe Nat ResourceRef := ⟨.made⟩

/-- A value. References are positions in the tables of a store, or resources. -/
inductive Value where
  /-- A value without parts. -/
  | atom (a : Atom)
  /-- An immutable sequence. -/
  | tuple (items : List Value)
  /-- An immutable set. -/
  | frozen (items : List Value)
  /-- An expression: a function, if there is one, applied to parameters. -/
  | call (function : Option Function) (params : List Value)
  /-- A shared container. -/
  | cell (ref : Nat)
  /-- A resource. -/
  | resource (ref : ResourceRef)
  /-- A scope of variables. -/
  | scope (ref : Nat)
  deriving Repr, Inhabited

/-- What a value shows: a finite tree. A container inside itself shows as `cycle`. -/
inductive Data where
  /-- A value without parts. -/
  | atom (a : Atom)
  /-- An immutable sequence. -/
  | tuple (items : List Data)
  /-- An immutable set. -/
  | frozen (items : List Data)
  /-- An expression. -/
  | call (function : Option Function) (params : List Data)
  /-- A list. -/
  | list (items : List Data)
  /-- A map in insertion order. -/
  | map (entries : List (Data × Data))
  /-- A parsed page: a map together with its source text. -/
  | page (entries : List (Data × Data)) (source : Option String)
  /-- A set. -/
  | set (items : List Data)
  /-- A view of a map: its keys, its values, or pairs of both. -/
  | side (which : MapSide) (items : List Data)
  /-- A changeable sequence of bytes. -/
  | buffer (bytes : List UInt8)
  /-- An object of a host class with its fields. -/
  | object (info : ClassInfo) (fields : List (String × Data))
  /-- A resource: its location, if it has one, and its text. -/
  | resource (uri : Option String) (label : String)
  /-- A scope with all that is visible in it. -/
  | scope (entries : List (Data × Data))
  /-- A container inside itself. -/
  | cycle
  deriving Repr, Inhabited

namespace Atom

/-- The kind of an atom. -/
def kindOf : Atom → Kind
  | null => .null
  | bool _ => .bool
  | int _ => .int
  | real _ => .real
  | text _ => .text
  | bytes _ => .bytes
  | moment _ => .moment
  | day _ => .day
  | time _ => .time
  | function f => f.kind
  | kind k => k.kindOf
  | path _ => .path
  | url _ => .url
  | document _ => .document

end Atom

namespace Value

/-- The null value. -/
@[match_pattern] abbrev null : Value := .atom .null

/-- A truth value. -/
@[match_pattern] abbrev bool (b : Bool) : Value := .atom (.bool b)

/-- An integer. -/
@[match_pattern] abbrev int (n : Int) : Value := .atom (.int n)

/-- A double. -/
@[match_pattern] abbrev real (x : Double) : Value := .atom (.real x)

/-- A text. -/
@[match_pattern] abbrev text (s : String) : Value := .atom (.text s)

/-- A function as a value. -/
@[match_pattern] abbrev function (f : Function) : Value := .atom (.function f)

/-- A number as a value. -/
def ofNumber : Number → Value
  | .int n => .int n
  | .real x => .real x

/-- Whether a value is the null value. -/
def isNull : Value → Bool
  | .null => true
  | _ => false

end Value

namespace Data

/-- The null value. -/
@[match_pattern] abbrev null : Data := .atom .null

/-- A truth value. -/
@[match_pattern] abbrev bool (b : Bool) : Data := .atom (.bool b)

/-- An integer. -/
@[match_pattern] abbrev int (n : Int) : Data := .atom (.int n)

/-- A double. -/
@[match_pattern] abbrev real (x : Double) : Data := .atom (.real x)

/-- A text. -/
@[match_pattern] abbrev text (s : String) : Data := .atom (.text s)

/-- The kind of what is shown. -/
def kindOf : Data → Kind
  | atom a => a.kindOf
  | tuple _ => .tuple
  | frozen _ => .frozenSet
  | call .. => .expression
  | list _ => .list
  | map _ => .map
  | page .. => .page
  | set _ => .set
  | side which _ => .side which
  | buffer _ => .buffer
  | object info _ => .host info
  | resource .. => .resource
  | scope _ => .scope
  | cycle => .list

/-- The entries of a map-like value. -/
def entries? : Data → Option (List (Data × Data))
  | map entries => some entries
  | page entries _ => some entries
  | scope entries => some entries
  | _ => none

/-- A number as data. -/
def ofNumber : Number → Data
  | .int n => .int n
  | .real x => .real x

end Data

namespace SplitUrl

/-- The parts of a location in order. -/
def parts (u : SplitUrl) : List String :=
  [u.scheme, u.authority, u.path, u.query, u.fragment]

end SplitUrl

end ResourceScript
