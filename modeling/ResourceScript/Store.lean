import ResourceScript.Value
/-!
# The store

Containers, resources and scopes live in a store and are referred to by their positions. New entries
go to the end of a table, so a reference stays good for ever. A resource that is written in source
text carries what it is made from; the store holds what has become of those that have changed.
-/

set_option autoImplicit false

namespace ResourceScript

/-- What a reference refers to. -/
inductive Ref where
  /-- A container. -/
  | cell (n : Nat)
  /-- A resource. -/
  | resource (r : ResourceRef)
  /-- A scope. -/
  | scope (n : Nat)
  deriving DecidableEq, Repr

/-- The content of a container. -/
inductive Cell where
  /-- A list. -/
  | list (items : List Value)
  /-- A map in insertion order. -/
  | map (entries : List (Value × Value))
  /-- A parsed page: a map and the source text. -/
  | page (entries : List (Value × Value)) (source : Option String)
  /-- A set. -/
  | set (items : List Value)
  /-- A view of the map in another container, which changes with it. -/
  | side (which : MapSide) (owner : Nat)
  /-- A changeable sequence of bytes. -/
  | buffer (bytes : List UInt8)
  /-- An object of a host class. -/
  | object (info : ClassInfo) (fields : List (String × Value))
  deriving Inhabited

/-- An addressable source of data: what it was made from, the location found in that, and the media
type once it is known. -/
structure ResourceRecord where
  /-- What the resource was made from. -/
  source : Value
  /-- Its location, if the source denotes one. -/
  uri : Option String
  /-- Its media type, once it is known. -/
  mimetype : Option String
  deriving Inhabited

/-- A scope: constants over variables over the parent scope. -/
structure Scope where
  /-- The enclosing scope. -/
  parent : Option Nat
  /-- The bindings that never change. -/
  constants : List (Value × Value)
  /-- The bindings that can change. -/
  changeable : List (Value × Value)
  /-- The arguments of the script. -/
  arguments : List Value
  deriving Inhabited

/-- The tables of containers, resources and scopes. -/
structure Store where
  /-- The containers. -/
  cells : Array Cell
  /-- The resources made by running. -/
  resources : Array ResourceRecord
  /-- The scopes. -/
  scopes : Array Scope
  /-- The resources of source text that have changed, by their numbers; the latest change first. -/
  rewritten : List (Nat × ResourceRecord)
  deriving Inhabited

namespace Value

mutual

/-- What a value shows when references show as given. -/
def shows (refer : Ref → Data) : Value → Data
  | atom a => .atom a
  | tuple items => .tuple (showsAll refer items)
  | frozen items => .frozen (showsAll refer items)
  | call f params => .call f (showsAll refer params)
  | cell n => refer (.cell n)
  | resource n => refer (.resource n)
  | scope n => refer (.scope n)

/-- What values show. -/
def showsAll (refer : Ref → Data) : List Value → List Data
  | [] => []
  | value :: rest => shows refer value :: showsAll refer rest

end

theorem showsAll_eq_map (refer : Ref → Data) (values : List Value) :
    showsAll refer values = values.map (shows refer) := by
  induction values with
  | nil => rfl
  | cons value rest ih => simp [showsAll, ih]

end Value

/-- The entries of a map or page. -/
def Cell.entries? : Cell → Option (List (Value × Value))
  | map entries => some entries
  | page entries _ => some entries
  | _ => none

/-- What a view shows of an entry. -/
def MapSide.of (which : MapSide) (entry : Value × Value) : Value :=
  match which with
  | keys => entry.1
  | values => entry.2
  | items => .tuple [entry.1, entry.2]

/-- What a container shows when its values show as given, and so do the views of maps. -/
def Cell.shows (see : Value → Data) (sideOf : MapSide → Nat → List Value) : Cell → Data
  | list items => .list (items.map see)
  | map entries => .map (entries.map fun (key, value) => (see key, see value))
  | page entries source => .page (entries.map fun (key, value) => (see key, see value)) source
  | set items => .set (items.map see)
  | side which owner => .side which ((sideOf which owner).map see)
  | buffer bytes => .buffer bytes
  | object info fields => .object info (fields.map fun (name, value) => (name, see value))

namespace Store

/-- The store without entries. -/
def empty : Store := ⟨#[], #[], #[], []⟩

/-- The content of a container. -/
def cell (s : Store) (n : Nat) : Cell :=
  s.cells.getD n (.list [])

/-- What a view shows of the map in a container. -/
def sideOf (s : Store) (which : MapSide) (n : Nat) : List Value :=
  ((s.cell n).entries?.getD []).map which.of

/-- A resource. -/
def resource (s : Store) : ResourceRef → ResourceRecord
  | .made n => s.resources.getD n ⟨.null, none, none⟩
  | .written n text uri => (s.rewritten.lookup n).getD ⟨.text text, some uri, none⟩

/-- A scope. -/
def scope (s : Store) (n : Nat) : Scope :=
  s.scopes.getD n ⟨none, [], [], []⟩

/-- Adds a container. -/
def addCell (s : Store) (content : Cell) : Store × Value :=
  ({ s with cells := s.cells.push content }, .cell s.cells.size)

/-- Replaces the content of a container. -/
def setCell (s : Store) (n : Nat) (content : Cell) : Store :=
  { s with cells := s.cells.setIfInBounds n content }

/-- Adds a resource. -/
def addResource (s : Store) (record : ResourceRecord) : Store × Nat :=
  ({ s with resources := s.resources.push record }, s.resources.size)

/-- Replaces a resource. -/
def setResource (s : Store) (r : ResourceRef) (record : ResourceRecord) : Store :=
  match r with
  | .made n => { s with resources := s.resources.setIfInBounds n record }
  | .written n _ _ => { s with rewritten := (n, record) :: s.rewritten }

/-- Adds a scope. -/
def addScope (s : Store) (scope : Scope) : Store × Nat :=
  ({ s with scopes := s.scopes.push scope }, s.scopes.size)

/-- Replaces a scope. -/
def setScope (s : Store) (n : Nat) (scope : Scope) : Store :=
  { s with scopes := s.scopes.setIfInBounds n scope }

/-- The scopes from a scope outward. A scope is younger than its parent, so the way out ends. -/
def chain (s : Store) (n : Nat) : List Nat :=
  match (s.scope n).parent with
  | some parent => if _h : parent < n then n :: chain s parent else [n]
  | none => [n]
termination_by n

theorem chain_of_parent {s : Store} {n parent : Nat} (hparent : (s.scope n).parent = some parent)
    (hlt : parent < n) : s.chain n = n :: s.chain parent := by
  rw [chain, hparent]
  exact dif_pos hlt

theorem chain_of_root {s : Store} {n : Nat} (hparent : (s.scope n).parent = none) :
    s.chain n = [n] := by
  rw [chain, hparent]

/-- The bindings of the scopes from a scope outward, constants before variables in each. -/
def bindings (s : Store) (n : Nat) : List (Value × Value) :=
  (s.chain n).flatMap fun m => (s.scope m).constants ++ (s.scope m).changeable

end Store

end ResourceScript
