import ResourceScript.Proofs.Number.Numeral
import ResourceScript.Proofs.Store.Access
/-!
# The item of a list under a text key

A text key designates at most one position of a list: `first`, `last` and the integers that are not
negative do. Putting writes at that position, behind null as far as the list is too short; deleting
closes the gap; a key that designates nothing leaves the list as it is. Only an integer of more
digits than a numeral may have is refused (`Store.putValue_deleteValue_list`).
-/

set_option autoImplicit false

namespace ResourceScript

open Text

/-- The position that a key designates in a list of a given length. -/
inductive Designates (length : Nat) (key : String) : Nat → Prop
  | first (hkey : key = "first") : Designates length key 0
  | last (hkey : key = "last") (hlength : 0 < length) : Designates length key (length - 1)
  | numeral {i : Nat} (hkey : Numeral.Spells key.toList i) : Designates length key i

/-- Whether a key spells an integer of more digits than a numeral may have. -/
def IsOverlong (key : String) : Prop :=
  (∃ n, Numeral.Spells key.toList n) ∧ Numeral.maxDigits < (Numeral.sign key.toList).2.length

variable {length i : Nat} {key : String}

/-! ### The position of a key -/

theorem ne_of_spells {n : Int} {word : String} (hkey : Numeral.Spells key.toList n)
    (hword : Numeral.isWhole word.toList = false) : key ≠ word := by
  rintro rfl
  rw [Numeral.isWhole_iff.2 ⟨n, hkey⟩] at hword
  cases hword

/-- The position of a key that spells an integer is that integer, if it is not negative. -/
theorem position?_of_spells {n : Int} (hkey : Numeral.Spells key.toList n) :
    position? length key =
      if Numeral.maxDigits < (Numeral.sign key.toList).2.length then .error .value
      else .ok (if 0 ≤ n then some n.toNat else none) := by
  have hfirst : key ≠ "first" := ne_of_spells hkey (by decide)
  have hlast : key ≠ "last" := ne_of_spells hkey (by decide)
  rw [position?, if_neg hfirst, if_neg hlast]
  simp only [Numeral.dropFinalLineFeed_of_not_mem hkey.not_mem_lineFeed,
    if_pos (Numeral.isWhole_iff.2 ⟨n, hkey⟩), Numeral.wholeValue_of_spells hkey]
  split <;> rfl

theorem position?_of_isOverlong (hkey : IsOverlong key) :
    position? length key = .error .value := by
  obtain ⟨⟨n, hspells⟩, hlong⟩ := hkey
  rw [position?_of_spells hspells, if_pos hlong]

/-- A key that is not overlong has the position that it designates. -/
theorem position?_of_designates (hshort : ¬ IsOverlong key) (h : Designates length key i) :
    position? length key = .ok (some i) := by
  cases h with
  | first hkey => rw [position?, if_pos hkey]
  | last hkey hlength =>
    have hfirst : key ≠ "first" := by
      rw [hkey]
      decide
    rw [position?, if_neg hfirst, if_pos hkey, if_neg (Nat.ne_of_gt hlength)]
  | numeral hkey =>
    have hdigits : ¬ Numeral.maxDigits < (Numeral.sign key.toList).2.length := fun hlong ↦
      hshort ⟨⟨_, hkey⟩, hlong⟩
    rw [position?_of_spells hkey, if_neg hdigits, if_pos (Int.natCast_nonneg i), Int.toNat_natCast]

/-- A key that is not overlong and designates nothing has no position. -/
theorem position?_of_not_designates (hline : '\n' ∉ key.toList) (hshort : ¬ IsOverlong key)
    (h : ∀ i, ¬ Designates length key i) : position? length key = .ok none := by
  have hfirst : key ≠ "first" := fun hkey ↦ h 0 (.first hkey)
  by_cases hlast : key = "last"
  · have hempty : length = 0 := by
      by_contra hlength
      exact h (length - 1) (.last hlast (Nat.pos_of_ne_zero hlength))
    rw [position?, if_neg hfirst, if_pos hlast, if_pos hempty]
  · by_cases hwhole : Numeral.isWhole key.toList = true
    · obtain ⟨n, hkey⟩ := Numeral.isWhole_iff.1 hwhole
      have hdigits : ¬ Numeral.maxDigits < (Numeral.sign key.toList).2.length := fun hlong ↦
        hshort ⟨⟨n, hkey⟩, hlong⟩
      have hneg : ¬ 0 ≤ n := by
        intro hn
        obtain ⟨i, rfl⟩ := Int.eq_ofNat_of_zero_le hn
        exact h i (.numeral hkey)
      rw [position?_of_spells hkey, if_neg hdigits, if_neg hneg]
    · rw [position?, if_neg hfirst, if_neg hlast]
      simp only [Numeral.dropFinalLineFeed_of_not_mem hline, if_neg hwhole]

/-! ### Lists with one item changed -/

/-- Whether a list is another one with a value at a position, and with null between the end of the
other and that position. -/
structure IsPut (items : List Value) (i : Nat) (value : Value) (changed : List Value) : Prop where
  length_eq : changed.length = max items.length (i + 1)
  here : changed[i]? = some value
  padding : ∀ j, items.length ≤ j → j < i → changed[j]? = some .null
  elsewhere : ∀ j, j < items.length → j ≠ i → changed[j]? = items[j]?

/-- Whether a list is another one without the item at a position, later items moving down by
one. -/
structure IsRemoved (items : List Value) (i : Nat) (rest : List Value) : Prop where
  length_eq : rest.length + 1 = items.length
  before : ∀ j, j < i → rest[j]? = items[j]?
  behind : ∀ j, i ≤ j → rest[j]? = items[j + 1]?

namespace Store

variable {items changed : List Value} {value : Value}

theorem isPut_putItem (items : List Value) (i : Nat) (value : Value) :
    IsPut items i value (putItem items i value) := by
  have hlength : (items ++ List.replicate (i + 1 - items.length) Value.null).length =
      max items.length (i + 1) := by
    simp only [List.length_append, List.length_replicate]
    omega
  constructor
  case length_eq => rw [putItem, List.length_set, hlength]
  case here => rw [putItem, List.getElem?_set_self (by omega)]
  case padding =>
    intro j hj hi
    rw [putItem, List.getElem?_set_ne (by omega), List.getElem?_append_right hj,
      List.getElem?_replicate_of_lt (by omega)]
  case elsewhere =>
    intro j hj hi
    rw [putItem, List.getElem?_set_ne (Ne.symm hi), List.getElem?_append_left hj]

theorem isRemoved_eraseIdx (hi : i < items.length) : IsRemoved items i (items.eraseIdx i) where
  length_eq := List.length_eraseIdx_add_one hi
  before _ hj := List.getElem?_eraseIdx_of_lt hj
  behind _ hj := List.getElem?_eraseIdx_of_ge hj

/-- At every other position a list reads as before, be it that there was none. -/
theorem getD_of_isPut (hput : IsPut items i value changed) {j : Nat} (hj : j ≠ i) :
    (changed[j]?).getD .null = (items[j]?).getD .null := by
  by_cases hitem : j < items.length
  · rw [hput.elsewhere j hitem hj]
  · rw [List.getElem?_eq_none (Nat.not_lt.1 hitem)]
    by_cases hpad : j < i
    · rw [hput.padding j (Nat.not_lt.1 hitem) hpad]
      rfl
    · have hend : changed.length ≤ j := by
        rw [hput.length_eq]
        omega
      rw [List.getElem?_eq_none hend]

/-- Every integer but the one at whose position a value is put reads as before. -/
theorem getElement_of_isPut (hput : IsPut items i value changed) {other : String} {n : Int}
    (hother : Numeral.Spells other.toList n) (hn : n ≠ i) :
    getElement changed other = getElement items other := by
  have hsize : ¬ (other = "size" || other = "length" || other = "count") = true := by
    have hsize : other ≠ "size" := ne_of_spells hother (by decide)
    have hlength : other ≠ "length" := ne_of_spells hother (by decide)
    have hcount : other ≠ "count" := ne_of_spells hother (by decide)
    simp [hsize, hlength, hcount]
  rw [getElement, getElement, if_neg hsize, if_neg hsize, position?_of_spells hother,
    position?_of_spells hother]
  split
  · rfl
  · split
    · have hposition : n.toNat ≠ i := by omega
      show Except.ok ((changed[n.toNat]?).getD .null) = Except.ok ((items[n.toNat]?).getD .null)
      rw [getD_of_isPut hput hposition]
    · rfl

/-! ### Putting and deleting -/

variable {s : Store} {n : Nat}

theorem putValue_list (hcell : s.cells[n]? = some (.list items)) (key : String) (value : Value) :
    s.putValue (.cell n) key value = (position? items.length key).map fun
      | some i => (s.setCell n (.list (putItem items i value)), true)
      | none => (s, false) := by
  rw [putValue, cell_of_getElem? hcell]
  simp only [putContent]
  rcases position? items.length key with cause | _ | i <;> rfl

theorem deleteContent_list (s : Store) (key : String) (items : List Value) :
    s.deleteContent key (.list items) = (position? items.length key).map fun
      | some i => if i < items.length then some (.list (items.eraseIdx i)) else none
      | none => none := by
  rw [deleteContent]
  rcases position? items.length key with cause | _ | i <;> rfl

theorem deleteValue_list (hcell : s.cells[n]? = some (.list items)) (key : String) :
    s.deleteValue (.cell n) key = (position? items.length key).map fun
      | some i => if i < items.length then (s.setCell n (.list (items.eraseIdx i)), true)
        else (s, false)
      | none => (s, false) := by
  rw [deleteValue, cell_of_getElem? hcell, deleteContent_list]
  rcases position? items.length key with cause | _ | i
  · rfl
  · rfl
  · by_cases hi : i < items.length
    · simp only [Except.map, if_pos hi]
      rfl
    · simp only [Except.map, if_neg hi]
      rfl

/-- For every list, every text key without line breaks and every value: an integer of too many
digits is refused; otherwise a position that the key designates gets the value, positions up to it
are filled with null, and every other integer reads as before; deleting takes away the item at such
a position, if there is one; and where there is none, or the key designates nothing, the answer is
false and nothing changes. -/
theorem putValue_deleteValue_list (hcell : s.cells[n]? = some (.list items))
    (hline : '\n' ∉ key.toList) (value : Value) :
    (IsOverlong key → s.putValue (.cell n) key value = .error .value ∧
      s.deleteValue (.cell n) key = .error .value) ∧
    (¬ IsOverlong key →
      (∀ i, Designates items.length key i →
        (∃ changed, s.putValue (.cell n) key value = .ok (s.setCell n (.list changed), true) ∧
          IsPut items i value changed ∧
          ∀ (other : String) (m : Int), Numeral.Spells other.toList m → m ≠ i →
            (s.setCell n (.list changed)).getValue (.cell n) other =
              s.getValue (.cell n) other) ∧
        (i < items.length → ∃ rest,
          s.deleteValue (.cell n) key = .ok (s.setCell n (.list rest), true) ∧
          IsRemoved items i rest) ∧
        (items.length ≤ i → s.deleteValue (.cell n) key = .ok (s, false))) ∧
      ((∀ i, ¬ Designates items.length key i) →
        s.putValue (.cell n) key value = .ok (s, false) ∧
        s.deleteValue (.cell n) key = .ok (s, false))) := by
  have hput := putValue_list hcell key value
  have hdelete := deleteValue_list hcell key
  refine ⟨fun hlong ↦ ?refused, fun hshort ↦
    ⟨fun i hi ↦ ⟨?put, ?removed, ?missing⟩, fun hnone ↦ ?nothing⟩⟩
  case refused =>
    rw [position?_of_isOverlong hlong] at hput hdelete
    exact ⟨hput, hdelete⟩
  case put =>
    rw [position?_of_designates hshort hi] at hput
    have hchanged := isPut_putItem items i value
    refine ⟨putItem items i value, hput, hchanged, fun other m hother hm ↦ ?_⟩
    have htype : other ≠ "type" := ne_of_spells hother (by decide)
    rw [getValue_elements (.inl (getElem?_setCell_self hcell)) htype,
      getValue_elements (.inl hcell) htype, getElement_of_isPut hchanged hother hm]
  case removed =>
    intro hlt
    rw [position?_of_designates hshort hi] at hdelete
    exact ⟨items.eraseIdx i, hdelete.trans (congrArg Except.ok (if_pos hlt)),
      isRemoved_eraseIdx hlt⟩
  case missing =>
    intro hle
    rw [position?_of_designates hshort hi] at hdelete
    exact hdelete.trans (congrArg Except.ok (if_neg (Nat.not_lt.2 hle)))
  case nothing =>
    rw [position?_of_not_designates hline hshort hnone] at hput hdelete
    exact ⟨hput, hdelete⟩

/-- A store with a list of one item. -/
def listStore : Store := ⟨#[.list [.text "a"]], #[], #[], []⟩

/-- The key `+02` of a list with one item pads it, and deleting finds nothing there. -/
theorem putValue_deleteValue_list_padded :
    (∃ changed, listStore.putValue (.cell 0) "+02" (.text "c") =
        .ok (listStore.setCell 0 (.list changed), true) ∧
      IsPut [.text "a"] 2 (.text "c") changed ∧
      (listStore.setCell 0 (.list changed)).getValue (.cell 0) "-0" = .ok (.text "a")) ∧
    listStore.deleteValue (.cell 0) "+02" = .ok (listStore, false) := by
  have hlist : listStore.cells[0]? = some (.list [.text "a"]) := rfl
  have hdigits : Numeral.IsDigits ['0', '2'] := Numeral.isDigits_iff.2 (by decide)
  have hplus : Numeral.Spells "+02".toList (2 : Nat) := .plus hdigits
  have hminus : Numeral.Spells "-0".toList 0 := .minus (Numeral.isDigits_iff.2 (by decide))
  have hshort : ¬ IsOverlong "+02" := fun h ↦ absurd h.2 (by decide)
  obtain ⟨⟨changed, hput, hchanged, hother⟩, -, hdelete⟩ :=
    ((putValue_deleteValue_list hlist (by decide) (.text "c")).2 hshort).1 2 (.numeral hplus)
  exact ⟨⟨changed, hput, hchanged, hother "-0" 0 hminus (by decide)⟩, hdelete (by decide)⟩

/-- So many zeros spell the first position of every list, and are refused all the same. -/
theorem putValue_manyZeros :
    Designates 1 (String.ofList (List.replicate 4301 '0')) 0 ∧
      listStore.putValue (.cell 0) (String.ofList (List.replicate 4301 '0')) (.text "b") =
        .error .value := by
  have hdigits : Numeral.IsDigits (List.replicate 4301 '0') := by
    refine ⟨List.cons_ne_nil _ _, fun c hc ↦ ?_⟩
    rw [List.eq_of_mem_replicate hc]
    decide
  have hspells : Numeral.Spells (String.ofList (List.replicate 4301 '0')).toList (0 : Nat) := by
    rw [String.toList_ofList, ← Numeral.digitsValue_replicate_zero 4301]
    exact .unsigned hdigits
  have hlong : IsOverlong (String.ofList (List.replicate 4301 '0')) := by
    refine ⟨⟨_, hspells⟩, ?_⟩
    rw [String.toList_ofList, hdigits.sign, List.length_replicate]
    decide
  refine ⟨.numeral hspells, ?_⟩
  have hlist : listStore.cells[0]? = some (.list [.text "a"]) := rfl
  rw [putValue_list hlist, position?_of_isOverlong hlong]
  rfl

end Store

end ResourceScript
