import ResourceScript.Number.Numeral
/-!
# Plain data

Plain data is what text formats carry: scalars, lists, and maps whose keys are scalars. Maps keep
their order and have at most one entry for a key; putting an entry under a key that is there
replaces the value and keeps the place.
-/

set_option autoImplicit false

namespace ResourceScript

/-- A value of a text format without parts. -/
inductive Scalar where
  | null
  | bool (b : Bool)
  | int (n : Int)
  | real (x : Double)
  | text (s : String)
  deriving DecidableEq, Repr, Inhabited

namespace Scalar

/-- The number that a scalar counts as among keys: a truth value counts as 0 or 1. -/
def number? : Scalar → Option Number
  | bool b => some (.int (if b then 1 else 0))
  | int n => some (.int n)
  | real x => some (.real x)
  | _ => none

/-- Whether two scalars are the same key. -/
def sameKey (a b : Scalar) : Bool :=
  match a.number?, b.number? with
  | some x, some y => x.equal y
  | none, none => a = b
  | _, _ => false

end Scalar

/-- Data of a text format. -/
inductive Plain where
  /-- A scalar. -/
  | scalar (s : Scalar)
  /-- A list. -/
  | list (items : List Plain)
  /-- A map in order. -/
  | map (entries : List (Scalar × Plain))
  deriving Repr, Inhabited

namespace Plain

/-- The null value. -/
@[match_pattern] abbrev null : Plain := scalar .null

/-- A truth value. -/
@[match_pattern] abbrev bool (b : Bool) : Plain := scalar (.bool b)

/-- An integer. -/
@[match_pattern] abbrev int (n : Int) : Plain := scalar (.int n)

/-- A double. -/
@[match_pattern] abbrev real (x : Double) : Plain := scalar (.real x)

/-- A text. -/
@[match_pattern] abbrev text (s : String) : Plain := scalar (.text s)

end Plain

/-- Puts an entry into an ordered map: the value under a key that is there is replaced in its
place, a new key goes to the end. -/
def putEntry {κ α : Type} (same : κ → κ → Bool) (key : κ) (value : α) :
    List (κ × α) → List (κ × α)
  | [] => [(key, value)]
  | (k, v) :: rest =>
    if same k key then (k, value) :: rest else (k, v) :: putEntry same key value rest

/-- The value under a key of an ordered map. -/
def findEntry {κ α : Type} (same : κ → κ → Bool) (key : κ) : List (κ × α) → Option α
  | [] => none
  | (k, v) :: rest => if same k key then some v else findEntry same key rest

/-- An ordered map without the entry of a key. -/
def dropEntry {κ α : Type} (same : κ → κ → Bool) (key : κ) : List (κ × α) → List (κ × α)
  | [] => []
  | (k, v) :: rest => if same k key then rest else (k, v) :: dropEntry same key rest

/-- The ordered map of a sequence of entries, later ones replacing earlier ones of the same key. -/
def mapOfEntries {κ α : Type} (same : κ → κ → Bool) (entries : List (κ × α)) : List (κ × α) :=
  entries.foldl (fun map entry => putEntry same entry.1 entry.2 map) []

end ResourceScript
