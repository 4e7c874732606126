import ResourceScript.Store.Equality
/-!
# Keys of data

When two keys of shown maps are the same key.
-/

set_option autoImplicit false

namespace ResourceScript

namespace Data

mutual

/-- Whether two keys are the same. -/
def sameKey : Data → Data → Bool
  | atom a, atom b => a.same b
  | tuple items, tuple others => sameKeys items others
  | frozen items, frozen others => items.length == others.length && keysAmong items others
  | resource uri _, resource other _ => uri.isSome && uri == other
  | object info fields, object other others => info == other && sameFields fields others
  | _, _ => false

/-- Whether two sequences of keys are the same. -/
def sameKeys : List Data → List Data → Bool
  | [], [] => true
  | item :: rest, other :: others => sameKey item other && sameKeys rest others
  | _, _ => false

/-- Whether each of the first keys is among the second. -/
def keysAmong : List Data → List Data → Bool
  | [], _ => true
  | item :: rest, others => others.any (sameKey item) && keysAmong rest others

/-- Whether two sequences of fields have the same values. -/
def sameFields : List (String × Data) → List (String × Data) → Bool
  | [], [] => true
  | (_, value) :: rest, (_, other) :: others => sameKey value other && sameFields rest others
  | _, _ => false

end

/-- A list of keys with those of a map that are not in it yet. -/
def gatherKeys (keys : List Data) (entries : List (Data × Data)) : List Data :=
  entries.foldl (fun keys entry =>
    if keys.any (sameKey entry.1) then keys else keys ++ [entry.1]) keys

end Data

end ResourceScript
