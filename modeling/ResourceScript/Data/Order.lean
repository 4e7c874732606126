import ResourceScript.Data.Conversion
/-!
# The order of data

A total order over values of all kinds. Null comes first. A list on either side makes the comparison
one of lists, item by item and then by length; a number on either side makes it numeric; two moments
compare in time; all else compares as text.

The recursion descends through lists on either side. It ends because a list weighs more than its
items together, and a text or bytes at least as much as the items it counts as.
-/

set_option autoImplicit false

namespace ResourceScript

open Text

namespace Data

/-- The order of two texts by their characters' code points. -/
def orderChars : List Char → List Char → Ordering
  | [], [] => .eq
  | [], _ :: _ => .lt
  | _ :: _, [] => .gt
  | a :: as, b :: bs =>
    if a.toNat < b.toNat then .lt else if b.toNat < a.toNat then .gt else orderChars as bs

/-- The order of two doubles; what is not a number is equal to everything. -/
def orderReals (x y : Double) : Ordering :=
  if x.less y then .lt else if y.less x then .gt else .eq

/-- The weight of texts: one more than their length for each. -/
def textsWeight : List String → Nat
  | [] => 0
  | part :: rest => 1 + part.toList.length + textsWeight rest

mutual

/-- The weight of data: more than that of its items together. -/
def weight : Data → Nat
  | text s => 1 + s.toList.length
  | atom (.bytes data) => 1 + data.length
  | buffer data => 1 + data.length
  | atom (.url u) => 2 + textsWeight u.parts
  | list items => 1 + listWeight items
  | tuple items => 1 + listWeight items
  | set items => 1 + listWeight items
  | frozen items => 1 + listWeight items
  | side _ items => 1 + listWeight items
  | _ => 1

/-- The weight of a list of data. -/
def listWeight : List Data → Nat
  | [] => 0
  | item :: rest => weight item + listWeight rest

end

theorem listWeight_map_text (parts : List String) :
    listWeight (parts.map text) = textsWeight parts := by
  induction parts with
  | nil => rfl
  | cons part rest ih => simp [listWeight, weight, textsWeight, ih]

theorem listWeight_byteItems (bytes : List UInt8) :
    listWeight (byteItems bytes) = bytes.length := by
  induction bytes with
  | nil => rfl
  | cons b rest ih =>
    have h : byteItems (b :: rest) = int b.toNat :: byteItems rest := rfl
    rw [h]
    simp [listWeight, weight, ih]
    omega

theorem splitOn_go_weight (separator : Char) (piece rest : List Char) :
    textsWeight ((splitOn.go separator piece rest).map String.ofList) =
      1 + piece.length + rest.length := by
  induction rest generalizing piece with
  | nil => simp [splitOn.go, textsWeight]
  | cons c rest ih =>
    simp only [splitOn.go]
    split
    · simp only [List.map_cons, textsWeight, ih, String.toList_ofList, List.length_reverse,
        List.length_nil, List.length_cons]
      omega
    · simp only [ih, List.length_cons]
      omega

theorem textItems_weight (s : String) :
    textsWeight (textItems s) ≤ 1 + s.toList.length := by
  have htrim : (trim s.toList).length ≤ s.toList.length := (trim_sublist _).length_le
  unfold textItems
  simp only
  split
  · simp [textsWeight]
  · simp only [splitOn, splitOn_go_weight, List.length_nil]
    omega

/-- Taking items never adds weight, and takes some away from a sequence. -/
theorem listWeight_items (data : Data) :
    listWeight data.items + (if data.isSequence then 1 else 0) ≤ data.weight := by
  cases data with
  | atom a =>
    cases a with
    | text s =>
      have h := textItems_weight s
      simp only [items, isSequence, weight, listWeight_map_text]
      simpa using h
    | url u =>
      simp only [items, isSequence, weight, listWeight_map_text, if_true]
      omega
    | bytes data => simp [items, isSequence, weight, listWeight_byteItems]
    | null => simp [items, isSequence, weight, listWeight]
    | _ => simp [items, isSequence, weight, listWeight]
  | buffer data => simp [items, isSequence, weight, listWeight_byteItems]
  | _ => simp [items, isSequence, weight, listWeight, Nat.add_comm]

/-- Whether data is a number or a truth value. -/
def isNumber : Data → Bool
  | bool _ | int _ | real _ => true
  | _ => false

/-- The order of data that is neither null nor a sequence. -/
def orderScalars (a b : Data) : Except Fault Ordering :=
  if a.isNumber || b.isNumber then do return orderReals (← a.toReal) (← b.toReal)
  else match a, b with
    | atom (.moment m), atom (.moment n) => m.order n
    | _, _ => do return orderChars (← a.toText).toList (← b.toText).toList

theorem weight_pos (data : Data) : 0 < data.weight := by
  unfold weight
  split <;> omega

/-- Whether data is null. -/
def isNull : Data → Bool
  | null => true
  | _ => false

/-- Whether data is the mark of a container inside itself. -/
def isCycle : Data → Bool
  | cycle => true
  | _ => false

mutual

/-- The order of two values. -/
def order (a b : Data) : Except Fault Ordering :=
  if a.isNull then .ok (if b.isNull then .eq else .lt)
  else if b.isNull then .ok .gt
  else if a.isCycle || b.isCycle then .error .recursion
  else if _hsequence : a.isSequence ∨ b.isSequence then orderLists a.items b.items
  else orderScalars a b
termination_by (a.weight + b.weight, 0)
decreasing_by
  have ha := listWeight_items a
  have hb := listWeight_items b
  apply Prod.Lex.left
  rcases _hsequence with h | h
  · rw [if_pos h] at ha
    split at hb <;> omega
  · rw [if_pos h] at hb
    split at ha <;> omega

/-- The order of two lists: that of the first items that differ, else that of the lengths. -/
def orderLists (xs ys : List Data) : Except Fault Ordering :=
  match xs, ys with
  | [], [] => .ok .eq
  | [], _ :: _ => .ok .lt
  | _ :: _, [] => .ok .gt
  | x :: xs, y :: ys => do
    match ← order x y with
    | .eq => orderLists xs ys
    | decided => return decided
termination_by (listWeight xs + listWeight ys, 1)
decreasing_by
  · simp only [listWeight]
    rcases Nat.eq_or_lt_of_le (show x.weight + y.weight ≤
      x.weight + listWeight xs + (y.weight + listWeight ys) by omega) with h | h
    · rw [← h]; exact Prod.Lex.right _ (by omega)
    · exact Prod.Lex.left _ _ h
  · have hx := weight_pos x
    simp only [listWeight]
    exact Prod.Lex.left _ _ (by omega)

end

end Data

end ResourceScript
