/-!
# Kinds of values

Every value has a kind, and kinds are values themselves. A kind has a short name, used in messages,
and a qualified name, which is its text. Some kinds have no values of their own and only serve as
targets of conversion.
-/

set_option autoImplicit false

namespace ResourceScript

/-- What a host class shows of its objects to scripts. -/
inductive ClassAccess where
  /-- Fields, members and constructors are open to scripts. -/
  | exposed
  /-- The objects are plain records: their fields can be read and changed. -/
  | record
  /-- The objects are plain records whose fields cannot change. -/
  | frozenRecord
  /-- Nothing is shown. -/
  | hidden
  deriving DecidableEq, Repr, Inhabited

/-- A host class by name. -/
structure ClassInfo where
  /-- The module of the class. -/
  module : String
  /-- The name of the class in its module. -/
  name : String
  /-- What its objects show. -/
  access : ClassAccess
  /-- The text of its objects, when the class sets one. -/
  text : Option String
  /-- The names of the fields that the class declares. -/
  fields : List String
  deriving DecidableEq, Repr, Inhabited

/-- What a view of a map shows of its entries. -/
inductive MapSide where
  /-- The keys. -/
  | keys
  /-- The values. -/
  | values
  /-- The pairs of a key and its value. -/
  | items
  deriving DecidableEq, Repr, Inhabited

/-- The short name of the kind of a view of a map. -/
def MapSide.name : MapSide → String
  | keys => "dict_keys"
  | values => "dict_values"
  | items => "dict_items"

/-- A kind of values. -/
inductive Kind where
  | object | null | bool | int | real | text | bytes | buffer | list | tuple | set | frozenSet | map
  | side (which : MapSide)
  | kind | abstractKind | moment | day | time | function | constructor | expression | resource
  | scope | page | path | url | document
  | number | mapping | collection | anything | optionalInt
  | host (info : ClassInfo)
  deriving DecidableEq, Repr, Inhabited

namespace Kind

/-- The short name of a kind. -/
def name : Kind → String
  | object => "object"
  | null => "NoneType"
  | bool => "bool"
  | int => "int"
  | real => "float"
  | text => "str"
  | bytes => "bytes"
  | buffer => "bytearray"
  | list => "list"
  | tuple => "tuple"
  | set => "set"
  | frozenSet => "frozenset"
  | map => "dict"
  | side which => which.name
  | kind => "type"
  | abstractKind => "ABCMeta"
  | moment => "datetime"
  | day => "date"
  | time => "time"
  | function => "Function"
  | constructor => "TypeFunction"
  | expression => "Expression"
  | resource => "Resource"
  | scope => "Context"
  | page => "HtmlDocument"
  | path => "PosixPath"
  | url => "SplitResult"
  | document => "Document"
  | number => "Number"
  | mapping => "Mapping"
  | collection => "Collection"
  | anything => "Any"
  | optionalInt => "typing.Optional[int]"
  | host info => info.name

/-- The module that a qualified name begins with; built-in kinds have none. -/
def home : Kind → Option String
  | moment | day | time => some "datetime"
  | function | constructor | expression => some "rexl.rexl_datatypes"
  | resource => some "rexl.rexl_resource"
  | scope => some "rexl.rexl_context"
  | page => some "rexl.rexl_serialize"
  | path => some "pathlib"
  | url => some "urllib.parse"
  | document => some "xml.dom.minidom"
  | number => some "numbers"
  | mapping | collection => some "collections.abc"
  | anything => some "typing"
  | abstractKind => some "abc"
  | host info => some info.module
  | _ => none

/-- The qualified name of a kind. -/
def qualifiedName (k : Kind) : String :=
  match k.home with
  | some module => module ++ "." ++ k.name
  | none => k.name

/-- The kind of a kind. -/
def kindOf : Kind → Kind
  | host info => if info.access = .exposed then abstractKind else kind
  | number | mapping | collection | scope => abstractKind
  | _ => kind

/-- Whether the values of a kind are atoms whose members are those of the interpreter. -/
def isNative : Kind → Bool
  | text | bytes | bool | int | real | moment | day | url => true
  | _ => false

end Kind

end ResourceScript
