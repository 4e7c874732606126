import Mathlib.Data.List.Perm.Subperm
import ResourceScript.Proofs.Store.Keys
import ResourceScript.Scope
/-!
# The test for keys

Scopes refuse a key by what it shows. Every key passes that test (`unhashable?_view_of_isKey`): what
a key shows has no containers in it and is shown in full, since a record that cannot change is not
inside itself.
-/

set_option autoImplicit false

namespace ResourceScript

namespace Store

variable {s : Store}

/-- Whether a container is inside a value: the value itself, or in an item of a sequence or a field
of a record that cannot change. -/
inductive Inside (s : Store) (n : Nat) : Value → Prop
  | here : Inside s n (.cell n)
  | item {items : List Value} {item : Value} (hitem : item ∈ items) (hinside : Inside s n item) :
      Inside s n (.tuple items)
  | field {m : Nat} {info : ClassInfo} {fields : List (String × Value)} {field : String × Value}
      (hcell : s.cell m = .object info fields) (haccess : info.access = .frozenRecord)
      (hfield : field ∈ fields) (hinside : Inside s n field.2) : Inside s n (.cell m)

/-- No record inside a key is inside one of its own fields. -/
theorem IsKey.not_inside_field {v : Value} (hv : s.IsKey v) {n : Nat} (hinside : s.Inside n v)
    {info : ClassInfo} {fields : List (String × Value)} (hcell : s.cell n = .object info fields)
    (haccess : info.access = .frozenRecord) {field : String × Value} (hfield : field ∈ fields) :
    ¬ s.Inside n field.2 := by
  induction hv generalizing field with
  | atom => cases hinside
  | tuple _ ih =>
    cases hinside with
    | item hitem hinside => exact ih _ hitem hinside hfield
  | frozen => cases hinside
  | resource => cases hinside
  | object hcell' _ _ ih =>
    cases hinside with
    | here =>
      rw [hcell] at hcell'
      cases hcell'
      exact fun hself ↦ ih haccess field hfield hself hfield hself
    | field hcell'' haccess' hfield' hinside =>
      rw [hcell'] at hcell''
      cases hcell''
      exact ih haccess' _ hfield' hinside hfield
  | values hcell' =>
    cases hinside with
    | here =>
      rw [hcell] at hcell'
      cases hcell'
    | field hcell'' _ _ _ =>
      rw [hcell'] at hcell''
      cases hcell''

end Store

namespace Data

theorem unhashableItem?_eq_none {items : List Data}
    (hitems : ∀ item ∈ items, item.unhashable? = none) : unhashableItem? items = none := by
  induction items with
  | nil => rfl
  | cons item rest ih =>
    rw [unhashableItem?, hitems item List.mem_cons_self]
    exact ih fun i hi ↦ hitems i (List.mem_cons_of_mem _ hi)

theorem unhashableField?_eq_none {fields : List (String × Data)}
    (hfields : ∀ field ∈ fields, field.2.unhashable? = none) : unhashableField? fields = none := by
  induction fields with
  | nil => rfl
  | cons field rest ih =>
    rw [unhashableField?, hfields field List.mem_cons_self]
    exact ih fun f hf ↦ hfields f (List.mem_cons_of_mem _ hf)

end Data

namespace Store

variable {s : Store}

theorem lt_size_of_cell {n : Nat} (hcell : s.cell n ≠ .list []) : n < s.cells.size := by
  by_contra hlarge
  have hnone : s.cells[n]? = none := Array.getElem?_eq_none (Nat.not_lt.1 hlarge)
  rw [cell, Array.getD_eq_getD_getElem?, hnone] at hcell
  exact hcell rfl

theorem viewWithin_tuple (depth : Nat) (path : List Ref) (items : List Value) :
    s.viewWithin depth path (.tuple items) = .tuple (items.map (s.viewWithin depth path)) := by
  cases depth with
  | zero => exact congrArg Data.tuple (Value.showsAll_eq_map _ items)
  | succ depth => exact congrArg Data.tuple (Value.showsAll_eq_map _ items)

/-- The containers on a way that meets none of them twice are no more than all. -/
theorem length_le_of_cells {path : List Ref}
    (hpath : ∀ ref ∈ path, ∃ n, n < s.cells.size ∧ ref = .cell n) (hnodup : path.Nodup) :
    path.length ≤ s.cells.size := by
  have hsubset : path ⊆ (List.range s.cells.size).map Ref.cell := by
    intro ref href
    obtain ⟨n, hn, rfl⟩ := hpath ref href
    exact List.mem_map_of_mem (List.mem_range.2 hn)
  simpa using (List.subperm_of_subset hnodup hsubset).length_le

/-- A container that is not on the way yet is shown in full, if there is room for all containers that
are not on the way. -/
theorem viewWithin_cell_of_room {n depth : Nat} {path : List Ref} (hn : n < s.cells.size)
    (hpath : ∀ ref ∈ path, ∃ m, m < s.cells.size ∧ ref = .cell m ∧ ¬ s.Inside m (.cell n))
    (hnodup : path.Nodup) (hroom : s.cells.size < depth + path.length) :
    ∃ below, depth = below + 1 ∧ (Ref.cell n :: path).Nodup ∧
      s.viewWithin depth path (.cell n) =
        s.showsRef (s.viewWithin below (.cell n :: path)) (.cell n) := by
  have hmem : Ref.cell n ∉ path := by
    intro hmem
    obtain ⟨m, _, heq, hnot⟩ := hpath _ hmem
    cases heq
    exact hnot .here
  have hnodup' : (Ref.cell n :: path).Nodup := List.nodup_cons.2 ⟨hmem, hnodup⟩
  have hlength := length_le_of_cells (List.forall_mem_cons.2 ⟨⟨n, hn, rfl⟩, fun ref href ↦ by
    obtain ⟨m, hm, heq, -⟩ := hpath ref href
    exact ⟨m, hm, heq⟩⟩) hnodup'
  rw [List.length_cons] at hlength
  obtain ⟨below, rfl⟩ : ∃ below, depth = below + 1 := ⟨depth - 1, by omega⟩
  have hnew : ¬ path.contains (.cell n) = true := by rwa [List.contains_iff_mem]
  exact ⟨below, rfl, hnodup', if_neg hnew⟩

/-- What a key shows passes the test, if there is room for all containers that are not on the way to
it, and none of those on the way is inside it. -/
theorem IsKey.unhashable?_viewWithin {v : Value} (hv : s.IsKey v) {depth : Nat} {path : List Ref}
    (hpath : ∀ ref ∈ path, ∃ n, n < s.cells.size ∧ ref = .cell n ∧ ¬ s.Inside n v)
    (hnodup : path.Nodup) (hroom : s.cells.size < depth + path.length) :
    (s.viewWithin depth path v).unhashable? = none := by
  induction hv generalizing depth path with
  | atom a => cases depth <;> rfl
  | tuple hitems ih =>
    rw [viewWithin_tuple, Data.unhashable?]
    refine Data.unhashableItem?_eq_none fun shown hshown ↦ ?_
    obtain ⟨item, hitem, rfl⟩ := List.mem_map.1 hshown
    refine ih item hitem (fun ref href ↦ ?_) hnodup hroom
    obtain ⟨n, hn, rfl, hnot⟩ := hpath ref href
    exact ⟨n, hn, rfl, fun hinside ↦ hnot (.item hitem hinside)⟩
  | frozen => cases depth <;> rfl
  | resource r =>
    have hlength := length_le_of_cells (fun ref href ↦ by
      obtain ⟨n, hn, heq, -⟩ := hpath ref href
      exact ⟨n, hn, heq⟩) hnodup
    obtain ⟨depth, rfl⟩ : ∃ below, depth = below + 1 := ⟨depth - 1, by omega⟩
    have hnew : ¬ path.contains (.resource r) = true := by
      rw [List.contains_iff_mem]
      intro hmem
      obtain ⟨n, _, heq, _⟩ := hpath _ hmem
      cases heq
    show (if path.contains (.resource r) then Data.cycle else _).unhashable? = none
    rw [if_neg hnew]
    rfl
  | @object n info fields hcell haccess hfields ih =>
    have hn : n < s.cells.size := lt_size_of_cell (by rw [hcell]; exact nofun)
    obtain ⟨depth, rfl, hnodup', hshows⟩ := viewWithin_cell_of_room hn hpath hnodup hroom
    rw [hshows, showsRef, hcell]
    show (Data.object info (fields.map _)).unhashable? = none
    rw [Data.unhashable?]
    split
    · rename_i hrecord
      exact absurd hrecord haccess
    · rename_i hfrozen
      refine Data.unhashableField?_eq_none fun shown hshown ↦ ?_
      obtain ⟨field, hfield, rfl⟩ := List.mem_map.1 hshown
      refine ih hfrozen field hfield (List.forall_mem_cons.2 ⟨?_, fun ref href ↦ ?_⟩) hnodup'
        (by rw [List.length_cons]; omega)
      · exact ⟨n, hn, rfl,
          (IsKey.object hcell haccess hfields).not_inside_field .here hcell hfrozen hfield⟩
      · obtain ⟨m, hm, rfl, hnot⟩ := hpath ref href
        exact ⟨m, hm, rfl, fun hinside ↦ hnot (.field hcell hfrozen hfield hinside)⟩
    · rfl
  | @values n owner hcell =>
    have hn : n < s.cells.size := lt_size_of_cell (by rw [hcell]; exact nofun)
    obtain ⟨depth, rfl, -, hshows⟩ := viewWithin_cell_of_room hn hpath hnodup hroom
    rw [hshows, showsRef, hcell]
    rfl

/-- Every key passes the test. -/
theorem unhashable?_view_of_isKey {v : Value} (hv : s.IsKey v) : (s.view v).unhashable? = none :=
  hv.unhashable?_viewWithin (fun _ h ↦ absurd h List.not_mem_nil) .nil (by simp; omega)

end Store

end ResourceScript
