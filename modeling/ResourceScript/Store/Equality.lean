import ResourceScript.Store
import ResourceScript.Format.Xml.Written
/-!
# Equality of values

Numbers are equal by value, whatever their kind; texts, bytes, days, times, locations and functions
by content. Sequences are equal item by item, sets when each holds the items of the other, maps when
they have equal values under equal keys. A resource equals another with the same location; objects
that are no records and scopes only equal themselves.
-/

set_option autoImplicit false

namespace ResourceScript

namespace Atom

/-- The number that an atom counts as in comparisons. -/
def number? : Atom → Option Number
  | bool b => some (.int (if b then 1 else 0))
  | int n => some (.int n)
  | real x => some (.real x)
  | _ => none

/-- Equality of moments: with zones the instants count, a zone never equals its absence. -/
def sameMoment (m n : Moment) : Bool :=
  m.offset.isSome == n.offset.isSome && m.microseconds == n.microseconds

/-- Equality of atoms. -/
def same (a b : Atom) : Bool :=
  match a.number?, b.number? with
  | some x, some y => x.equal y
  | some _, none => false
  | none, some _ => false
  | none, none =>
    match a, b with
    | null, null => true
    | text s, text t => s == t
    | bytes d, bytes e => d == e
    | moment m, moment n => sameMoment m n
    | day d, day e => d == e
    | time t, time u => t == u
    | function f, function g => f == g
    | kind k, kind l => k == l
    | path p, path q => p == q
    | url u, url v => u == v
    | document d, document e => d.text == e.text
    | _, _ => false

end Atom

namespace Value

mutual

/-- Equality of values, references being compared as given. -/
def sameBy (refers : Ref → Value → Bool) : Value → Value → Bool
  | atom a, atom b => a.same b
  | tuple items, tuple others => sameAll refers items others
  | frozen items, frozen others =>
    items.length == others.length && containsAll refers items others
  | call f params, call g others => f == g && sameAll refers params others
  | cell n, other => refers (.cell n) other
  | resource n, other => refers (.resource n) other
  | scope n, other => refers (.scope n) other
  | value, cell n => refers (.cell n) value
  | _, _ => false

/-- Equality item by item. -/
def sameAll (refers : Ref → Value → Bool) : List Value → List Value → Bool
  | [], [] => true
  | value :: rest, other :: others => sameBy refers value other && sameAll refers rest others
  | _, _ => false

/-- Whether each of the first values equals one of the second. -/
def containsAll (refers : Ref → Value → Bool) : List Value → List Value → Bool
  | [], _ => true
  | value :: rest, others => others.any (sameBy refers value) && containsAll refers rest others

end

end Value

/-- Equality of sets when values compare as given: as many items, and each of one in the other. -/
def Cell.sameSets (same : Value → Value → Bool) (items others : List Value) : Bool :=
  items.length == others.length && items.all fun item => others.any (same item)

/-- Equality of the contents of two containers when values compare as given. -/
def Cell.sameBy (same : Value → Value → Bool) : Cell → Cell → Bool
  | list items, list others => sameItems items others
  | map entries, map others => sameEntries entries others
  | map entries, page others _ => sameEntries entries others
  | page entries _, map others => sameEntries entries others
  | page entries _, page others _ => sameEntries entries others
  | set items, set others => sameSets same items others
  | buffer bytes, buffer others => bytes == others
  | object info fields, object other others =>
    info == other && (info.access = .record || info.access = .frozenRecord)
      && sameItems (fields.map Prod.snd) (others.map Prod.snd)
  | _, _ => false
where
  /-- Item by item. -/
  sameItems : List Value → List Value → Bool
    | [], [] => true
    | value :: rest, other :: others => same value other && sameItems rest others
    | _, _ => false
  /-- As many entries, and equal values under equal keys. -/
  sameEntries (entries others : List (Value × Value)) : Bool :=
    entries.length == others.length && entries.all fun (key, value) =>
      others.any fun (otherKey, other) => same key otherKey && same value other

namespace Store

/-- The items of a set, or the keys or pairs that a view of a map shows: such views are equal as sets
are. A view of values only equals itself. -/
def members? (s : Store) (n : Nat) : Option (List Value) :=
  match s.cell n with
  | .set items => some items
  | .side .keys owner => some (s.sideOf .keys owner)
  | .side .items owner => some (s.sideOf .items owner)
  | _ => none

/-- Equality of what a reference refers to with a value, when values compare as given. -/
def sameRef (s : Store) (same : Value → Value → Bool) : Ref → Value → Bool
  | .cell n, .cell m =>
    n == m ||
      match s.members? n, s.members? m with
      | some items, some others => Cell.sameSets same items others
      | _, _ => (s.cell n).sameBy same (s.cell m)
  | .cell n, .frozen others =>
    ((s.members? n).map fun items => Cell.sameSets same items others).getD false
  | .cell n, .atom (.bytes others) =>
    match s.cell n with
    | .buffer bytes => bytes == others
    | _ => false
  | .resource n, .resource m =>
    n == m || ((s.resource n).uri.isSome && (s.resource n).uri == (s.resource m).uri)
  | .scope n, .scope m => n == m
  | _, _ => false

/-- Equality of values through a number of containers. -/
def sameWithin (s : Store) : (depth : Nat) → Value → Value → Bool
  | 0 => Value.sameBy fun _ _ => false
  | depth + 1 => Value.sameBy (s.sameRef (s.sameWithin depth))

/-- The number of containers in containers through which values are compared. -/
def sameDepth : Nat := 1000

/-- Equality of values. -/
def same (s : Store) (a b : Value) : Bool :=
  s.sameWithin sameDepth a b

/-- The bindings seen from a scope: of several with one key the innermost. -/
def visible (s : Store) (n : Nat) : List (Value × Value) :=
  firstOfEach [] (s.bindings n)
where
  /-- The bindings whose keys are not among those seen before. -/
  firstOfEach (seen : List Value) : List (Value × Value) → List (Value × Value)
    | [] => []
    | (key, value) :: rest =>
      if seen.any (s.same key) then firstOfEach seen rest
      else (key, value) :: firstOfEach (key :: seen) rest

end Store

end ResourceScript
