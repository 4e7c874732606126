import ResourceScript.Store.Equality
import ResourceScript.Data.Display
/-!
# Views of values

The view of a value is the finite tree that it shows. References are followed, except those that
lead back to a container on the way; such a container shows as a cycle.
-/

set_option autoImplicit false

namespace ResourceScript

namespace ResourceRecord

/-- The location of null, under which a resource made from nothing shows. -/
def nullLocation : String := "data:application/json,null"

/-- The text of a resource: its location, or else the text of its source. -/
def label (see : Value → Data) (record : ResourceRecord) : String :=
  match record.uri with
  | some uri => uri
  | none =>
    match record.source with
    | .null => nullLocation
    | source => ((see source).display.toOption).getD nullLocation

end ResourceRecord

namespace Store

/-- What a reference shows when values show as given. -/
def showsRef (s : Store) (see : Value → Data) : Ref → Data
  | .cell n => (s.cell n).shows see s.sideOf
  | .resource n => .resource (s.resource n).uri ((s.resource n).label see)
  | .scope n => .scope ((s.visible n).map fun (key, value) => (see key, see value))

/-- The view of a value through a number of references; `path` holds those already followed. -/
def viewWithin (s : Store) : (depth : Nat) → (path : List Ref) → Value → Data
  | 0, _ => Value.shows fun _ => .cycle
  | depth + 1, path => Value.shows fun ref =>
    if path.contains ref then .cycle else s.showsRef (s.viewWithin depth (ref :: path)) ref

/-- The view of a value. No path leads through more references than the store has entries, but for
a last one: to a resource of source text, or to nothing. -/
def view (s : Store) (value : Value) : Data :=
  s.viewWithin (s.cells.size + s.resources.size + s.scopes.size + 1) [] value

end Store

end ResourceScript
