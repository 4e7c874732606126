/-!
# Sets of characters given by ranges

A Unicode property is stored as an ascending array of code point ranges; membership is decided by
bisection.
-/

set_option autoImplicit false

namespace ResourceScript.Text

/-- An ascending array of disjoint ranges of code points, both ends included. -/
abbrev Ranges := Array (Nat × Nat)

/-- Bisection: looks for a range that holds `n` among the positions from `low` up to `high`. The
distance of the two positions halves at each step, so `fuel` steps suffice for `2 ^ fuel` ranges. -/
def Ranges.search (ranges : Ranges) (n : Nat) : (fuel low high : Nat) → Bool
  | 0, _, _ => false
  | fuel + 1, low, high =>
    if high ≤ low then false
    else
      let middle := (low + high) / 2
      match ranges[middle]? with
      | none => false
      | some (first, last) =>
        if n < first then Ranges.search ranges n fuel low middle
        else if last < n then Ranges.search ranges n fuel (middle + 1) high
        else true

/-- Whether some range holds the code point of a character. -/
def Ranges.holds (ranges : Ranges) (c : Char) : Bool :=
  Ranges.search ranges c.toNat (ranges.size + 1) 0 ranges.size

end ResourceScript.Text
