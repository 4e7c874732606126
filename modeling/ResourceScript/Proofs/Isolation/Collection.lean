import Mathlib.Data.List.InsertIdx
import ResourceScript.Member.Collection
import ResourceScript.Proofs.Isolation.Overload
/-!
# Members of collections in a placed store

The members of a list, map or set at the image of a position follow those at the position. Items are
ordered alike, since the order of two of them does not depend on where they are; so sorting makes
the same moves.
-/

set_option autoImplicit false

namespace ResourceScript

namespace Placement

open Member

variable {P : Placement} {α β : Type}

/-! ### Arguments -/

@[simp] theorem argument_map (arguments : List Value) (position : Nat) :
    argument (arguments.map P.value) position = P.value (argument arguments position) := by
  unfold argument
  rw [List.getElem?_map]
  cases arguments[position]? <;> simp

theorem follows_text (v : Value) : P.Follows (fun t ↦ t) (text v) (text (P.value v)) := by
  cases v with
  | atom a =>
    rw [value_atom]
    cases a with
    | text s => exact follows_pure rfl
    | _ => exact follows_fail _
  | _ => exact follows_fail _

theorem follows_integer (v : Value) : P.Follows (fun n ↦ n) (integer v) (integer (P.value v)) := by
  cases v with
  | atom a =>
    rw [value_atom]
    cases a with
    | int n => exact follows_pure rfl
    | bool b => exact follows_pure rfl
    | _ => exact follows_fail _
  | _ => exact follows_fail _

theorem follows_size (v : Value) : P.Follows (fun n ↦ n) (size v) (size (P.value v)) := by
  refine (follows_integer v).bind fun n ↦ ?_
  split
  · exact follows_fail_bind _ _ _
  · exact follows_pure rfl

theorem follows_shortSize (v : Value) :
    P.Follows (fun n ↦ n) (shortSize v) (shortSize (P.value v)) := by
  refine (follows_integer v).bind fun n ↦ ?_
  split
  · exact follows_fail_bind _ _ _
  · exact follows_pure rfl

theorem follows_oneChar (v : Value) :
    P.Follows (fun c ↦ c) (oneChar v) (oneChar (P.value v)) := by
  refine (follows_text v).bind fun t ↦ ?_
  split
  · exact follows_pure rfl
  · exact follows_fail _

section

variable {read : Value → Task α} (hread : ∀ v, P.Follows (fun a ↦ a) (read v) (read (P.value v)))

include hread

theorem follows_optional (arguments : List Value) (position : Nat) :
    P.Follows (fun a ↦ a) (optional read arguments position)
      (optional read (arguments.map P.value) position) := by
  unfold Member.optional
  rw [List.getElem?_map]
  cases arguments[position]? with
  | none => exact follows_pure rfl
  | some v => exact (hread v).bind fun a ↦ follows_pure rfl

theorem follows_nullable (arguments : List Value) (position : Nat) :
    P.Follows (fun a ↦ a) (nullable read arguments position)
      (nullable read (arguments.map P.value) position) := by
  have hsome (v : Value) : P.Follows (fun a ↦ a) (do return some (← read v))
      (do return some (← read (P.value v))) := (hread v).bind fun a ↦ follows_pure rfl
  unfold nullable
  rw [List.getElem?_map]
  cases arguments[position]? with
  | none => exact follows_pure rfl
  | some v =>
    have hv := hsome v
    cases v with
    | atom a =>
      simp only [Option.map_some, value_atom] at hv ⊢
      cases a with
      | null => exact follows_pure rfl
      | _ => exact hv
    | _ => exact hv

end

theorem follows_iterated (v : Value) :
    P.Follows (List.map P.value) (iterated v) (iterated (P.value v)) :=
  follows_store fun own _ h ↦ by
    rw [h.elements?, h.entries?]
    cases own.elements? v with
    | some items => exact follows_pure rfl
    | none =>
      cases own.entries? v with
      | some entries => exact follows_pure (P.map_fst_map_entry entries).symm
      | none => exact follows_fail _

theorem follows_missingKey (key : Value) :
    P.Follows P.value (missingKey key) (missingKey (P.value key)) := by
  refine (follows_view key).bind fun data ↦ ?_
  split
  · exact follows_fail _
  · exact follows_fail _

section

variable {run run' : List Value → Task Value}
  (hrun : ∀ arguments, P.Follows P.value (run arguments) (run' (arguments.map P.value)))

include hrun

theorem followsOverload_declared (least most : Nat) :
    P.FollowsOverload (declared least most run) (declared least most run') :=
  ⟨rfl, hrun⟩

theorem followsOverload_any : P.FollowsOverload ⟨none, run⟩ ⟨none, run'⟩ :=
  ⟨rfl, hrun⟩

theorem followsOverload_checked (least most : Nat) :
    P.FollowsOverload (checked least most run) (checked least most run') :=
  ⟨rfl, fun arguments ↦ by
    simp only [checked, List.length_map]
    split
    · exact hrun arguments
    · exact follows_fail _⟩

end

/-- What a member of the interpreter answers is new data, over what the same values show. -/
theorem followsOverload_ofNative (a : Atom) (m : NativeMember) :
    P.FollowsOverload (ofNative a m) (ofNative a m) := by
  have hrun (arguments : List Value) : P.Follows P.value
      (do
        let held ← Script.held
        let s ← Script.store
        let shown := held.map fun field => (field.1, s.view field.2)
        Script.ofData (← Script.ofExcept (m.answer shown a (arguments.map s.view))))
      (do
        let held ← Script.held
        let s ← Script.store
        let shown := held.map fun field => (field.1, s.view field.2)
        Script.ofData (← Script.ofExcept (m.answer shown a ((arguments.map P.value).map s.view)))) := by
    refine follows_held.bind fun held ↦ follows_store fun own whole h ↦ ?_
    have hheld : (held.map P.field).map (fun field => (field.1, whole.view field.2)) =
        held.map fun field => (field.1, own.view field.2) := by
      simp [field, Function.comp_def, h.view]
    have harguments : (arguments.map P.value).map whole.view = arguments.map own.view := by
      simp [Function.comp_def, h.view]
    dsimp only
    rw [hheld, harguments]
    exact (follows_ofExcept_same _).bind follows_ofData
  unfold ofNative
  dsimp only
  split
  · exact followsOverload_declared hrun _ _
  · exact followsOverload_any hrun

theorem followsOverload_plain {x x' : Task Value} (hx : P.Follows P.value x x') :
    P.FollowsOverload (plain x) (plain x') :=
  followsOverload_declared (fun _ ↦ hx) 0 0

theorem forall₂_some {o o' : Overload} (ho : P.FollowsOverload o o') :
    List.Forall₂ P.FollowsOverload (some o).toList (some o').toList :=
  .cons ho .nil

/-! ### The order of items -/

section

variable {before before' : Value → Value → Task Bool}
  (hbefore : ∀ a b, P.Follows (fun o ↦ o) (before a b) (before' (P.value a) (P.value b)))

include hbefore

theorem follows_itemsPrecede (items others : List Value) :
    P.Follows (fun o ↦ o) (precedes.itemsPrecede before items others)
      (precedes.itemsPrecede before' (items.map P.value) (others.map P.value)) := by
  induction items generalizing others with
  | nil => cases others <;> exact follows_pure rfl
  | cons item rest ih =>
    cases others with
    | nil => exact follows_pure rfl
    | cons other others =>
      refine follows_store fun own _ h ↦ ?_
      rw [h.same]
      split
      · exact ih others
      · exact hbefore item other

end

theorem follows_precedes (depth : Nat) (a b : Value) :
    P.Follows (fun o ↦ o) (precedes depth a b) (precedes depth (P.value a) (P.value b)) := by
  induction depth generalizing a b with
  | zero => exact follows_fail _
  | succ depth ih =>
    unfold precedes
    rw [number?_value, number?_value]
    split
    · split <;> exact follows_pure rfl
    · cases a with
      | atom x =>
        rw [value_atom]
        cases b with
        | atom y =>
          rw [value_atom]
          split
          · exact follows_pure rfl
          · exact follows_pure rfl
          · exact (follows_ofExcept_same _).bind fun o ↦ follows_pure rfl
          · exact follows_pure rfl
          · rename_i htuple _
            cases htuple
          · rename_i hcell _
            cases hcell
          · exact follows_fail _
        | _ => cases x <;> exact follows_fail _
      | tuple items =>
        cases b with
        | tuple others =>
          rw [value_tuple, value_tuple]
          exact follows_itemsPrecede ih items others
        | _ => exact follows_fail _
      | cell n =>
        cases b with
        | cell m =>
          rw [value_cell, value_cell]
          refine (follows_cell n).bind fun c ↦ (follows_cell m).bind fun d ↦ ?_
          cases c with
          | list items =>
            cases d with
            | list others => exact follows_itemsPrecede ih items others
            | _ => exact follows_fail _
          | _ => exact follows_fail _
        | _ => exact follows_fail _
      | _ => exact follows_fail _

/-- The images of two lists of values. -/
def valuesPair (P : Placement) (p : List Value × List Value) : List Value × List Value :=
  (p.1.map P.value, p.2.map P.value)

theorem follows_fallingRun (depth : Nat) (run rest : List Value) :
    P.Follows P.valuesPair (fallingRun depth run rest)
      (fallingRun depth (run.map P.value) (rest.map P.value)) := by
  induction rest generalizing run with
  | nil => cases run <;> exact follows_pure rfl
  | cons v rest ih =>
    cases run with
    | nil => exact follows_pure rfl
    | cons last run =>
      refine (follows_precedes depth v last).bind fun o ↦ ?_
      split
      · exact ih (v :: last :: run)
      · exact follows_pure rfl

theorem follows_risingRun (depth : Nat) (run rest : List Value) :
    P.Follows P.valuesPair (risingRun depth run rest)
      (risingRun depth (run.map P.value) (rest.map P.value)) := by
  have hreverse (run : List Value) : (run.map P.value).reverse = run.reverse.map P.value :=
    List.map_reverse.symm
  induction rest generalizing run with
  | nil => cases run <;> exact follows_pure (Prod.ext (hreverse _).symm rfl)
  | cons v rest ih =>
    cases run with
    | nil => exact follows_pure rfl
    | cons last run =>
      refine (follows_precedes depth v last).bind fun o ↦ ?_
      split
      · exact follows_pure (Prod.ext (hreverse _).symm rfl)
      · exact ih (v :: last :: run)

theorem follows_firstRun (depth : Nat) (items : List Value) :
    P.Follows P.valuesPair (firstRun depth items) (firstRun depth (items.map P.value)) := by
  rcases items with _ | ⟨first, _ | ⟨second, rest⟩⟩
  · exact follows_pure rfl
  · exact follows_pure rfl
  · refine (follows_precedes depth second first).bind fun o ↦ ?_
    split
    · exact follows_fallingRun depth [second, first] rest
    · exact follows_risingRun depth [second, first] rest

theorem follows_insertPosition (depth : Nat) (run : Array Value) (v : Value)
    (fuel low high : Nat) :
    P.Follows (fun n ↦ n) (insertPosition depth run v fuel low high)
      (insertPosition depth (run.map P.value) (P.value v) fuel low high) := by
  induction fuel generalizing low high with
  | zero => exact follows_pure rfl
  | succ fuel ih =>
    have hget (i : Nat) : (run.map P.value).getD i .null = P.value (run.getD i .null) := by
      simp only [Array.getD_eq_getD_getElem?, Array.getElem?_map]
      cases run[i]? <;> simp
    unfold insertPosition
    split
    · exact follows_pure rfl
    · dsimp only
      rw [hget]
      refine (follows_precedes depth v _).bind fun o ↦ ?_
      split
      · exact ih _ _
      · exact ih _ _

theorem map_insertIdxIfInBounds (run : Array Value) (position : Nat) (v : Value) :
    (run.map P.value).insertIdxIfInBounds position (P.value v) =
      (run.insertIdxIfInBounds position v).map P.value := by
  unfold Array.insertIdxIfInBounds
  simp only [Array.size_map]
  split
  · apply Array.ext'
    rw [Array.toList_insertIdx, Array.toList_map, Array.toList_map, Array.toList_insertIdx]
    exact (List.map_insertIdx _ _ _ _).symm
  · rfl

theorem follows_insertAll (depth : Nat) (run : Array Value) (rest : List Value) :
    P.Follows (fun p ↦ (p.1.map P.value, p.2.map P.value)) (insertAll depth run rest)
      (insertAll depth (run.map P.value) (rest.map P.value)) := by
  induction rest generalizing run with
  | nil => exact follows_pure rfl
  | cons v rest ih =>
    have hposition : P.Follows (fun p ↦ p)
        (tryCatch (some <$> insertPosition depth run v (run.size + 1) 0 run.size)
          fun _ ↦ return none)
        (tryCatch (some <$> insertPosition depth (run.map P.value) (P.value v)
          ((run.map P.value).size + 1) 0 (run.map P.value).size) fun _ ↦ return none) := by
      rw [Array.size_map]
      exact ((follows_insertPosition depth run v _ _ _).map fun _ ↦ rfl).tryCatch
        fun _ ↦ follows_pure rfl
    refine hposition.bind fun position ↦ ?_
    cases position with
    | some position =>
      dsimp only
      rw [map_insertIdxIfInBounds]
      exact ih _
    | none => exact follows_pure rfl

/-! ### Lists and tuples -/

theorem Holds.findIdx? {own whole : Store} (h : P.Holds own whole) (v : Value)
    (items : List Value) :
    (items.map P.value).findIdx? (whole.same (P.value v)) = items.findIdx? (own.same v) := by
  rw [List.findIdx?_map]
  exact congrArg (items.findIdx? ·) (funext fun item ↦ h.same v item)

theorem Holds.filter_same {own whole : Store} (h : P.Holds own whole) (v : Value)
    (items : List Value) :
    (items.map P.value).filter (whole.same (P.value v)) =
      (items.filter (own.same v)).map P.value := by
  rw [List.filter_map]
  exact congrArg (fun p ↦ (items.filter p).map P.value) (funext fun item ↦ h.same v item)

theorem follows_indexOf (items arguments : List Value) :
    P.Follows P.value (indexOf items arguments)
      (indexOf (items.map P.value) (arguments.map P.value)) := by
  refine (follows_optional follows_integer arguments 1).bind fun start ↦
    (follows_optional follows_integer arguments 2).bind fun stop ↦ follows_store fun own _ h ↦ ?_
  simp only [argument_map, List.length_map, ← List.map_take, ← List.map_drop, h.findIdx?]
  split
  · exact follows_pure (P.value_atom _)
  · exact follows_fail _

theorem follows_countOf (items arguments : List Value) :
    P.Follows P.value (countOf items arguments)
      (countOf (items.map P.value) (arguments.map P.value)) :=
  follows_store fun own _ h ↦ follows_pure (by
    rw [argument_map, h.filter_same, List.length_map]
    exact P.value_atom _)

theorem forall₂_tupleMember? (items : List Value) (name : String) :
    List.Forall₂ P.FollowsOverload (tupleMember? items name).toList
      (tupleMember? (items.map P.value) name).toList := by
  unfold tupleMember?
  split
  · exact forall₂_some (followsOverload_declared (follows_countOf items) 1 1)
  · exact forall₂_some (followsOverload_declared (follows_indexOf items) 1 3)
  · exact .nil

theorem follows_onList (n : Nat) {run run' : List Value → List Value → Task Value}
    (hrun : ∀ items arguments, P.Follows P.value (run items arguments)
      (run' (items.map P.value) (arguments.map P.value))) (arguments : List Value) :
    P.Follows P.value (onList n run arguments)
      (onList (P.cell n) run' (arguments.map P.value)) := by
  refine (follows_cell n).bind fun c ↦ ?_
  cases c with
  | list items => exact hrun items arguments
  | _ => exact follows_fail _

theorem follows_setItems (n : Nat) (items : List Value) :
    P.Follows P.value (setItems n items) (setItems (P.cell n) (items.map P.value)) :=
  (follows_setCell n (.list items)).bind fun _ ↦ follows_pure (P.value_atom .null)

theorem follows_popItem (n : Nat) (items arguments : List Value) :
    P.Follows P.value (popItem n items arguments)
      (popItem (P.cell n) (items.map P.value) (arguments.map P.value)) := by
  refine (follows_optional follows_size arguments 0).bind fun position? ↦ ?_
  dsimp only
  rw [List.length_map]
  generalize (if position?.getD (-1) < 0 then position?.getD (-1) + ↑items.length
    else position?.getD (-1)) = index
  have hitem : (if index < 0 then none else (items.map P.value)[index.toNat]?) =
      (if index < 0 then none else items[index.toNat]?).map P.value := by
    rw [List.getElem?_map]
    split <;> rfl
  rw [hitem]
  cases if index < 0 then none else items[index.toNat]? with
  | none => exact follows_fail _
  | some v =>
    dsimp only [Option.map_some]
    rw [List.eraseIdx_map]
    exact (follows_setItems n _).discard.bind fun _ ↦ follows_pure rfl

theorem follows_sortItems (n : Nat) (items : List Value) :
    P.Follows P.value (sortItems n items) (sortItems (P.cell n) (items.map P.value)) := by
  refine (follows_firstRun sortDepth items).bind fun p ↦ ?_
  have hrun : (P.valuesPair p).1.toArray = p.1.toArray.map P.value := by
    simp [valuesPair]
  dsimp only
  rw [hrun]
  refine (follows_insertAll sortDepth _ p.2).bind fun placed ↦ ?_
  have hitems : (placed.1.map P.value).toList ++ placed.2.map P.value =
      (placed.1.toList ++ placed.2).map P.value := by
    simp
  dsimp only
  rw [hitems, List.isEmpty_map]
  refine (follows_setCell n (.list _)).bind fun _ ↦ ?_
  split
  · exact follows_pure (P.value_atom .null)
  · exact follows_fail _

theorem forall₂_listMember? (n : Nat) (name : String) :
    List.Forall₂ P.FollowsOverload (listMember? n name).toList
      (listMember? (P.cell n) name).toList := by
  unfold listMember?
  split
  · -- append
    refine forall₂_some (followsOverload_declared (follows_onList n fun items arguments ↦ ?_) 1 1)
    simpa using follows_setItems n (items ++ [argument arguments 0])
  · -- extend
    refine forall₂_some (followsOverload_declared (follows_onList n fun items arguments ↦ ?_) 1 1)
    rw [argument_map]
    refine (follows_iterated _).bind fun added ↦ ?_
    rw [← List.map_append]
    exact follows_setItems n _
  · -- insert
    refine forall₂_some (followsOverload_declared (follows_onList n fun items arguments ↦ ?_) 2 2)
    simp only [argument_map, List.length_map]
    refine (follows_size _).bind fun position ↦ ?_
    simpa using follows_setItems n (items.take (clamp items.length position) ++
      argument arguments 1 :: items.drop (clamp items.length position))
  · -- pop
    exact forall₂_some (followsOverload_declared (follows_onList n (follows_popItem n)) 0 1)
  · -- remove
    refine forall₂_some (followsOverload_declared (follows_onList n fun items arguments ↦ ?_) 1 1)
    refine follows_store fun own _ h ↦ ?_
    rw [argument_map, h.findIdx?]
    split
    · rw [List.eraseIdx_map]
      exact follows_setItems n _
    · exact follows_fail _
  · -- clear
    exact forall₂_some (followsOverload_declared
      (follows_onList n fun _ _ ↦ follows_setItems n []) 0 0)
  · -- index
    exact forall₂_some (followsOverload_declared (follows_onList n follows_indexOf) 1 3)
  · -- count
    exact forall₂_some (followsOverload_declared (follows_onList n follows_countOf) 1 1)
  · -- sort
    exact forall₂_some (followsOverload_declared
      (follows_onList n fun items _ ↦ follows_sortItems n items) 0 0)
  · -- reverse
    refine forall₂_some (followsOverload_declared (follows_onList n fun items _ ↦ ?_) 0 0)
    rw [← List.map_reverse]
    exact follows_setItems n _
  · -- copy
    exact forall₂_some (followsOverload_declared
      (follows_onList n fun items _ ↦ follows_newList items) 0 0)
  · exact .nil

/-! ### Maps -/

theorem follows_entryOf (entries : List (Value × Value)) (key : Value) :
    P.Follows (Option.map P.value) (entryOf entries key)
      (entryOf (entries.map P.entry) (P.value key)) :=
  (follows_requireKey key).bind fun _ ↦ follows_store fun _ _ h ↦
    follows_pure (h.findEntry_entries key entries).symm

theorem follows_pairOf (v : Value) : P.Follows P.entry (pairOf v) (pairOf (P.value v)) := by
  refine (follows_iterated v).bind fun items ↦ ?_
  rcases items with _ | ⟨key, _ | ⟨item, _ | ⟨third, rest⟩⟩⟩
  · exact follows_fail _
  · exact follows_fail _
  · exact (follows_requireKey key).bind fun _ ↦ follows_pure rfl
  · exact follows_fail _

theorem follows_onMap (n : Nat)
    {run run' : (List (Value × Value) → Task Unit) → List (Value × Value) → List Value →
      Task Value}
    (hrun : ∀ restore restore' entries arguments,
      (∀ e, P.Follows (fun u ↦ u) (restore e) (restore' (e.map P.entry))) →
      P.Follows P.value (run restore entries arguments)
        (run' restore' (entries.map P.entry) (arguments.map P.value)))
    (arguments : List Value) :
    P.Follows P.value (onMap n run arguments)
      (onMap (P.cell n) run' (arguments.map P.value)) := by
  refine (follows_cell n).bind fun c ↦ ?_
  cases c with
  | map entries => exact hrun _ _ entries arguments fun e ↦ follows_setCell n (.map e)
  | page entries source =>
    exact hrun _ _ entries arguments fun e ↦ follows_setCell n (.page e source)
  | _ => exact follows_fail _

theorem follows_addEntries (entries : List (Value × Value)) (source : Value) :
    P.Follows (List.map P.entry) (addEntries entries source)
      (addEntries (entries.map P.entry) (P.value source)) := by
  have hadd (added : List (Value × Value)) : P.Follows (List.map P.entry)
      (do
        let s ← Script.store
        return added.foldl (fun map entry => putEntry s.same entry.1 entry.2 map) entries)
      (do
        let s ← Script.store
        return (added.map P.entry).foldl (fun map entry => putEntry s.same entry.1 entry.2 map)
          (entries.map P.entry)) :=
    follows_store fun _ _ h ↦ follows_pure (h.putEntries added entries).symm
  refine follows_store fun own _ h ↦ ?_
  rw [h.entries?]
  cases own.entries? source with
  | some added => exact hadd added
  | none =>
    exact (follows_iterated source).bind fun items ↦ (follows_mapM follows_pairOf items).bind hadd

theorem forall₂_mapMember? (n : Nat) (name : String) :
    List.Forall₂ P.FollowsOverload (mapMember? n name).toList
      (mapMember? (P.cell n) name).toList := by
  unfold mapMember?
  split
  · -- get
    refine forall₂_some (followsOverload_declared
      (follows_onMap n fun restore restore' entries arguments hrestore ↦ ?_) 1 2)
    rw [argument_map, argument_map]
    exact (follows_entryOf entries _).bind fun found ↦ follows_pure (by cases found <;> rfl)
  · -- setdefault
    refine forall₂_some (followsOverload_declared
      (follows_onMap n fun restore restore' entries arguments hrestore ↦ ?_) 1 2)
    rw [argument_map, argument_map]
    refine (follows_entryOf entries _).bind fun found ↦ ?_
    cases found with
    | some v => exact follows_pure rfl
    | none =>
      have hnew := hrestore (entries ++ [(argument arguments 0, argument arguments 1)])
      rw [List.map_append] at hnew
      exact hnew.bind fun _ ↦ follows_pure rfl
  · -- pop
    refine forall₂_some (followsOverload_checked
      (follows_onMap n fun restore restore' entries arguments hrestore ↦ ?_) 1 2)
    rw [argument_map, List.getElem?_map]
    refine (follows_entryOf entries _).bind fun found ↦ ?_
    cases found with
    | some v =>
      refine follows_store fun own _ h ↦ ?_
      rw [h.dropEntry_entries]
      exact (hrestore _).bind fun _ ↦ follows_pure rfl
    | none =>
      cases arguments[1]? with
      | some missing => exact follows_pure rfl
      | none => exact follows_missingKey _
  · -- popitem
    refine forall₂_some (followsOverload_declared
      (follows_onMap n fun restore restore' entries arguments hrestore ↦ ?_) 0 0)
    rw [List.getLast?_map, ← List.map_dropLast]
    cases entries.getLast? with
    | some last =>
      exact (hrestore _).bind fun _ ↦ follows_pure (P.value_tuple [last.1, last.2])
    | none => exact follows_fail _
  · -- fromkeys
    refine forall₂_some (followsOverload_declared (fun arguments ↦ ?_) 1 2)
    rw [argument_map, argument_map]
    refine (follows_iterated _).bind fun keys ↦ (follows_forM follows_requireKey keys).bind
      fun _ ↦ follows_store fun own whole h ↦ ?_
    have hkeys : (keys.map P.value).map (fun key ↦ (key, P.value (argument arguments 1))) =
        (keys.map fun key ↦ (key, argument arguments 1)).map P.entry := by
      simp [entry, Function.comp_def]
    have hentries : mapOfEntries whole.same
          ((keys.map P.value).map fun key ↦ (key, P.value (argument arguments 1))) =
        (mapOfEntries own.same (keys.map fun key ↦ (key, argument arguments 1))).map P.entry := by
      rw [hkeys]
      exact h.putEntries _ []
    dsimp only
    rw [hentries]
    refine (follows_cell n).bind fun c ↦ ?_
    cases c with
    | page entries source => exact follows_newCell (.page _ none)
    | _ => exact follows_newMap _
  · -- copy
    exact forall₂_some (followsOverload_checked
      (follows_onMap n fun _ _ entries _ _ ↦ follows_newMap entries) 0 0)
  · -- clear
    refine forall₂_some (followsOverload_checked
      (follows_onMap n fun restore restore' entries arguments hrestore ↦ ?_) 0 0)
    exact (hrestore []).bind fun _ ↦ follows_pure (P.value_atom .null)
  · -- keys
    exact forall₂_some (followsOverload_checked (fun _ ↦ follows_newCell (.side .keys n)) 0 0)
  · -- values
    exact forall₂_some (followsOverload_checked (fun _ ↦ follows_newCell (.side .values n)) 0 0)
  · -- items
    exact forall₂_some (followsOverload_checked (fun _ ↦ follows_newCell (.side .items n)) 0 0)
  · -- update
    refine forall₂_some (followsOverload_checked
      (follows_onMap n fun restore restore' entries arguments hrestore ↦ ?_) 0 1)
    cases arguments with
    | nil => exact follows_pure (P.value_atom .null)
    | cons source rest =>
      exact (follows_addEntries entries source).bind fun added ↦
        (hrestore added).bind fun _ ↦ follows_pure (P.value_atom .null)
  · exact .nil

/-! ### Sets -/

/-- Whether an operation on the items of sets does at the images of values what it does with the
values. -/
def Carries₂ (P : Placement) (operation : Store → List Value → List Value → List Value) : Prop :=
  ∀ own whole, P.Holds own whole → ∀ items others,
    operation whole (items.map P.value) (others.map P.value) =
      (operation own items others).map P.value

theorem Holds.any_same {own whole : Store} (h : P.Holds own whole) (others : List Value)
    (item : Value) :
    (others.map P.value).any (whole.same (P.value item)) = others.any (own.same item) := by
  simp [Function.comp_def, h.same]

theorem carries₂_addItems : P.Carries₂ fun s items others ↦ others.foldl s.addItem items :=
  fun _ _ h items others ↦ h.foldl_addItem others items

theorem carries₂_itemsAmong : P.Carries₂ itemsAmong := by
  intro own whole h items others
  unfold itemsAmong
  rw [List.filter_map]
  exact congrArg (fun p ↦ (items.filter p).map P.value) (funext fun item ↦ h.any_same others item)

theorem carries₂_itemsBeyond : P.Carries₂ itemsBeyond := by
  intro own whole h items others
  unfold itemsBeyond
  rw [List.filter_map]
  exact congrArg (fun p ↦ (items.filter p).map P.value)
    (funext fun item ↦ congrArg (!·) (h.any_same others item))

theorem carries₂_itemsApart : P.Carries₂ itemsApart := by
  intro own whole h items others
  have hdistinct := h.foldl_addItem others []
  rw [List.map_nil] at hdistinct
  unfold itemsApart
  rw [hdistinct, carries₂_itemsBeyond own whole h, carries₂_itemsBeyond own whole h,
    List.map_append]

theorem carries₂_of_setOperation? {name : String}
    {operation : Store → List Value → List Value → List Value}
    (h : setOperation? name = some operation) : P.Carries₂ operation := by
  unfold setOperation? at h
  split at h <;> cases h
  · exact carries₂_addItems
  · exact carries₂_itemsAmong
  · exact carries₂_itemsBeyond

theorem carries₂_of_setUpdate? {name : String}
    {operation : Store → List Value → List Value → List Value}
    (h : setUpdate? name = some operation) : P.Carries₂ operation := by
  unfold setUpdate? at h
  split at h
  · exact carries₂_of_setOperation? h
  · exact carries₂_of_setOperation? h
  · exact carries₂_of_setOperation? h
  · cases h

theorem follows_setArgument (v : Value) :
    P.Follows (List.map P.value) (setArgument v) (setArgument (P.value v)) :=
  (follows_iterated v).bind fun items ↦ (follows_forM follows_requireKey items).bind fun _ ↦
    follows_pure rfl

theorem follows_combining {operation : Store → List Value → List Value → List Value}
    (hoperation : P.Carries₂ operation) {make make' : List Value → Task Value}
    (hmake : ∀ items, P.Follows P.value (make items) (make' (items.map P.value)))
    (items arguments : List Value) :
    P.Follows P.value (combining operation make items arguments)
      (combining operation make' (items.map P.value) (arguments.map P.value)) := by
  refine (follows_mapM follows_setArgument arguments).bind fun others ↦
    follows_store fun own whole h ↦ ?_
  have hfold : (others.map (List.map P.value)).foldl (operation whole) (items.map P.value) =
      (others.foldl (operation own) items).map P.value := by
    induction others generalizing items with
    | nil => rfl
    | cons first rest ih =>
      rw [List.map_cons, List.foldl_cons, List.foldl_cons, hoperation own whole h, ih]
  rw [hfold]
  exact hmake _

theorem follows_isApart (items others : List Value) :
    P.Follows (fun b ↦ b) (isApart items others)
      (isApart (items.map P.value) (others.map P.value)) := by
  induction others with
  | nil => exact follows_pure rfl
  | cons other rest ih =>
    refine (follows_requireKey other).bind fun _ ↦ follows_store fun own whole h ↦ ?_
    rw [h.any_same]
    split
    · exact follows_pure rfl
    · exact ih

theorem setTest?_map {own whole : Store} (h : P.Holds own whole) {name : String}
    {test : Store → List Value → List Value → Bool} (htest : setTest? name = some test)
    (items others : List Value) :
    test whole (items.map P.value) (others.map P.value) = test own items others := by
  unfold setTest? at htest
  split at htest <;> cases htest <;> dsimp only
  · rw [carries₂_itemsBeyond own whole h, List.isEmpty_map]
  · rw [carries₂_itemsBeyond own whole h, List.isEmpty_map]

section

variable {onItems onItems' : (List Value → List Value → Task Value) → List Value → Task Value}
  {make make' : List Value → Task Value}
  (hitems : ∀ run run' : List Value → List Value → Task Value,
    (∀ items arguments, P.Follows P.value (run items arguments)
      (run' (items.map P.value) (arguments.map P.value))) →
    ∀ arguments, P.Follows P.value (onItems run arguments)
      (onItems' run' (arguments.map P.value)))
  (hmake : ∀ items, P.Follows P.value (make items) (make' (items.map P.value)))

include hitems hmake

theorem forall₂_anySetMember? (name : String) :
    List.Forall₂ P.FollowsOverload (anySetMember? onItems make name).toList
      (anySetMember? onItems' make' name).toList := by
  unfold anySetMember?
  split
  · rename_i hoperation
    exact forall₂_some (followsOverload_any
      (hitems _ _ (follows_combining (carries₂_of_setOperation? hoperation) hmake)))
  · rename_i htest
    refine forall₂_some (followsOverload_declared (hitems _ _ fun items arguments ↦ ?_) 1 1)
    rw [argument_map]
    refine (follows_setArgument _).bind fun others ↦ follows_store fun own whole h ↦ ?_
    exact follows_pure (by rw [setTest?_map h htest]; exact P.value_atom _)
  · split
    · -- isdisjoint
      refine forall₂_some (followsOverload_checked (hitems _ _ fun items arguments ↦ ?_) 1 1)
      rw [argument_map]
      exact (follows_iterated _).bind fun others ↦ (follows_isApart items others).bind fun _ ↦
        follows_pure (P.value_atom _)
    · -- symmetric_difference
      exact forall₂_some (followsOverload_checked
        (hitems _ _ (follows_combining carries₂_itemsApart hmake)) 1 1)
    · -- copy
      exact forall₂_some (followsOverload_checked (hitems _ _ fun items _ ↦ hmake items) 0 0)
    · exact .nil

end

theorem forall₂_frozenMember? (items : List Value) (name : String) :
    List.Forall₂ P.FollowsOverload (frozenMember? items name).toList
      (frozenMember? (items.map P.value) name).toList :=
  forall₂_anySetMember? (fun _ _ hrun ↦ hrun items)
    (fun items ↦ follows_pure (P.value_frozen items)) name

theorem follows_onSet (n : Nat) {run run' : List Value → List Value → Task Value}
    (hrun : ∀ items arguments, P.Follows P.value (run items arguments)
      (run' (items.map P.value) (arguments.map P.value))) (arguments : List Value) :
    P.Follows P.value (onSet n run arguments)
      (onSet (P.cell n) run' (arguments.map P.value)) := by
  refine (follows_cell n).bind fun c ↦ ?_
  cases c with
  | set items => exact hrun items arguments
  | _ => exact follows_fail _

theorem follows_setMembers (n : Nat) (items : List Value) :
    P.Follows P.value (setMembers n items) (setMembers (P.cell n) (items.map P.value)) :=
  (follows_setCell n (.set items)).bind fun _ ↦ follows_pure (P.value_atom .null)

theorem follows_requireItem (v : Value) :
    P.Follows (fun u ↦ u) (requireItem v) (requireItem (P.value v)) :=
  follows_store fun own whole h ↦ by
    rw [h.kindOf]
    split
    · exact follows_pure rfl
    · exact follows_requireKey v

theorem follows_takeItem (n : Nat) {missing : Value → Task Value}
    (hmissing : ∀ v, P.Follows P.value (missing v) (missing (P.value v)))
    (items arguments : List Value) :
    P.Follows P.value (takeItem n missing items arguments)
      (takeItem (P.cell n) missing (items.map P.value) (arguments.map P.value)) := by
  unfold takeItem
  rw [argument_map]
  refine (follows_requireItem _).bind fun _ ↦ follows_store fun own whole h ↦ ?_
  have hfilter : (items.map P.value).filter
        (fun other ↦ !whole.same (P.value (argument arguments 0)) other) =
      (items.filter fun other ↦ !own.same (argument arguments 0) other).map P.value := by
    rw [List.filter_map]
    exact congrArg (fun p ↦ (items.filter p).map P.value)
      (funext fun other ↦ congrArg (!·) (h.same _ other))
  rw [h.any_same, hfilter]
  split
  · exact follows_setMembers n _
  · exact hmissing _

theorem forall₂_setChange? (n : Nat) (name : String) :
    List.Forall₂ P.FollowsOverload (setChange? n name).toList
      (setChange? (P.cell n) name).toList := by
  unfold setChange?
  split
  · rename_i hoperation
    exact forall₂_some (followsOverload_any (follows_onSet n
      (follows_combining (carries₂_of_setUpdate? hoperation) (follows_setMembers n))))
  · split
    · -- symmetric_difference_update
      exact forall₂_some (followsOverload_checked (follows_onSet n
        (follows_combining carries₂_itemsApart (follows_setMembers n))) 1 1)
    · -- add
      refine forall₂_some (followsOverload_checked (follows_onSet n fun items arguments ↦ ?_) 1 1)
      rw [argument_map]
      refine (follows_requireKey _).bind fun _ ↦ follows_store fun own _ h ↦ ?_
      rw [h.addItem]
      exact follows_setMembers n _
    · -- clear
      exact forall₂_some (followsOverload_checked
        (follows_onSet n fun _ _ ↦ follows_setMembers n []) 0 0)
    · -- remove
      exact forall₂_some (followsOverload_checked
        (follows_onSet n (follows_takeItem n follows_missingKey)) 1 1)
    · -- discard
      exact forall₂_some (followsOverload_checked (follows_onSet n
        (follows_takeItem n fun _ ↦ follows_pure (P.value_atom .null))) 1 1)
    · -- pop
      refine forall₂_some (followsOverload_checked (follows_onSet n fun items arguments ↦ ?_) 0 0)
      cases items with
      | nil => exact follows_fail _
      | cons item rest =>
        exact (follows_setMembers n rest).discard.bind fun _ ↦ follows_pure rfl
    · exact .nil

theorem forall₂_setMember? (n : Nat) (name : String) :
    List.Forall₂ P.FollowsOverload (setMember? n name).toList
      (setMember? (P.cell n) name).toList := by
  have hchange := forall₂_setChange? (P := P) n name
  unfold setMember?
  cases hown : setChange? n name <;> cases hwhole : setChange? (P.cell n) name <;>
    rw [hown, hwhole] at hchange
  · exact forall₂_anySetMember? (fun _ _ ↦ follows_onSet n) (fun items ↦ follows_newCell (.set items))
      name
  · cases hchange
  · cases hchange
  · exact hchange

end Placement

end ResourceScript
